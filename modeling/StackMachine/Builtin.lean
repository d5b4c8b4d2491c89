import StackMachine.Registry

/-! The built-in instructions: their names, documentation and effects. -/
namespace StackMachine

/-- The built-in instructions in registration order. -/
inductive Builtin where
  | print
  | loadConst
  | exit
  | pop
  | add
  | div
  | eq
  | neq
  | dup
  | jmp
  | jmpz
  | write
  | writeChar
deriving DecidableEq

namespace Builtin

/-- All built-ins in registration order. -/
def all : List Builtin :=
  [.print, .loadConst, .exit, .pop, .add, .div, .eq, .neq, .dup, .jmp, .jmpz, .write, .writeChar]

/-- The mnemonic. -/
def name : Builtin → Bytes
  | .print => utf8 "PRINT"
  | .loadConst => utf8 "LOAD_CONST"
  | .exit => utf8 "EXIT"
  | .pop => utf8 "POP"
  | .add => utf8 "ADD"
  | .div => utf8 "DIV"
  | .eq => utf8 "EQ"
  | .neq => utf8 "NEQ"
  | .dup => utf8 "DUP"
  | .jmp => utf8 "JMP"
  | .jmpz => utf8 "JMPZ"
  | .write => utf8 "WRITE"
  | .writeChar => utf8 "WRITE_CHAR"

/-- The number of values taken from the stack. -/
def pops : Builtin → Nat
  | .print | .loadConst | .exit | .jmp | .write | .writeChar => 0
  | .pop | .dup | .jmpz => 1
  | .add | .div | .eq | .neq => 2

/-- The number of values put on the stack. -/
def pushes : Builtin → Nat
  | .print | .exit | .pop | .jmp | .jmpz | .write | .writeChar => 0
  | .loadConst | .add | .div | .eq | .neq => 1
  | .dup => 2

/-- The operand means something. -/
def usesOperand : Builtin → Bool
  | .loadConst | .jmp | .jmpz => true
  | _ => false

/-- One line of documentation. -/
def summary : Builtin → Bytes
  | .print => utf8 "write top of stack to the diagnostic stream"
  | .loadConst => utf8 "push the argument"
  | .exit => utf8 "halt execution"
  | .pop => utf8 "discard top of stack"
  | .add => utf8 "pop b, pop a, push a+b"
  | .div => utf8 "pop b, pop a, push a/b"
  | .eq => utf8 "pop b, pop a, push 1 if a == b else 0"
  | .neq => utf8 "pop b, pop a, push 1 if a != b else 0"
  | .dup => utf8 "push a copy of top of stack"
  | .jmp => utf8 "jump to the argument address"
  | .jmpz => utf8 "pop; jump to the argument address if zero"
  | .write => utf8 "append top of stack as decimal text to the output"
  | .writeChar => utf8 "append top of stack as a character to the output"

/-- The built-in of a mnemonic. -/
def lookup (mnemonic : Bytes) : Option Builtin :=
  all.find? fun b => b.name == mnemonic

/-- Goes on with the top of the stack, which stays; an empty stack underflows. -/
def withTop (s : State) (next : Int64 → State) : Reaction :=
  match s.peek? with
  | none => .fail s .stackUnderflow
  | some top => .proceed (next top)

/-- Takes `b` and then `a` from the stack and puts `op a b` on it. A failure leaves the
operands that were taken consumed. -/
def binary (s : State) (op : Int64 → Int64 → Except Kind Int64) : Reaction :=
  match s.pop? with
  | none => .fail s .stackUnderflow
  | some (b, s₁) =>
    match s₁.pop? with
    | none => .fail s₁ .stackUnderflow
    | some (a, s₂) =>
      match op a b with
      | .ok v => .proceed (s₂.push v)
      | .error k => .fail s₂ k

/-- One for true, zero for false. -/
def truth (b : Bool) : Int64 :=
  if b then 1 else 0

/-- The bytes of the character with the given number; U+FFFD where there is none. -/
def character (v : Int64) : Bytes :=
  if v < 0 ∨ 0x10FFFF < v then Text.Utf8.replacement else Text.Utf8.encode v.toInt.toNat

/-- The effect of a built-in. -/
def effect : Builtin → Behavior
  | .print, s, _ => withTop s fun top => s.report (Text.Decimal.ofInt64 top ++ [newline])
  | .loadConst, s, arg => .proceed (s.push arg)
  | .exit, s, _ => .halt s
  | .pop, s, _ =>
    match s.pop? with
    | none => .fail s .stackUnderflow
    | some (_, s₁) => .proceed s₁
  | .add, s, _ => binary s fun a b => .ok (a + b)
  | .div, s, _ => binary s fun a b => if b = 0 then .error .divideByZero else .ok (a / b)
  | .eq, s, _ => binary s fun a b => .ok (truth (a == b))
  | .neq, s, _ => binary s fun a b => .ok (truth (a != b))
  | .dup, s, _ => withTop s fun top => s.push top
  | .jmp, s, arg => .proceed { s with pc := arg }
  | .jmpz, s, arg =>
    match s.pop? with
    | none => .fail s .stackUnderflow
    | some (top, s₁) => .proceed (if top = 0 then { s₁ with pc := arg } else s₁)
  | .write, s, _ => withTop s fun top => s.write (Text.Decimal.ofInt64 top)
  | .writeChar, s, _ => withTop s fun top => s.write (character top)

/-- The registry entry of a built-in. -/
def entry (b : Builtin) : Entry :=
  ⟨b.name, b.effect⟩

end Builtin

namespace Registry

/-- The registry with every built-in registered once more. -/
def addBuiltins (r : Registry) : Registry :=
  Builtin.all.foldl (fun registry b => registry.append b.entry) r

/-- The registry of the built-ins. -/
def builtins : Registry :=
  empty.addBuiltins

end Registry

end StackMachine
