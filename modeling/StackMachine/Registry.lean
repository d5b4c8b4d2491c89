import StackMachine.Behavior

/-! Instruction sets. A registry keeps two tables: the opcode that each name means, which the last
registration under the name writes, and the entries by opcode, to which every registration adds
one. An opcode keeps its mnemonic and behavior for ever. -/
namespace StackMachine

/-- One registered instruction. -/
structure Entry where
  mnemonic : Bytes
  behavior : Behavior

/-- Why a registration is refused. -/
inductive RegistrationFault where
  | emptyMnemonic
  | missingBehavior (mnemonic : Bytes)

/-- The wording of a refused registration. -/
def RegistrationFault.message : RegistrationFault → Bytes
  | .emptyMnemonic => utf8 "bytecode: register with empty mnemonic"
  | .missingBehavior mnemonic =>
    utf8 "bytecode: register " ++ mnemonic ++ utf8 " with nil behavior"

/-- The entry that a registration asks for. The mnemonic must not be empty and the behavior must
be there. -/
def Entry.make (mnemonic : Bytes) (behavior : Option Behavior) :
    Except RegistrationFault Entry :=
  if mnemonic.isEmpty then .error .emptyMnemonic
  else
    match behavior with
    | none => .error (.missingBehavior mnemonic)
    | some b => .ok ⟨mnemonic, b⟩

namespace Registry

/-- Which opcode each name means. No name stands in it twice. -/
abbrev Ids := List (Bytes × Opcode)

/-- Lets a name mean an opcode, whatever it meant before. -/
def Ids.assign (name : Bytes) (op : Opcode) : Ids → Ids
  | [] => [(name, op)]
  | (n, o) :: rest => if n = name then (n, op) :: rest else (n, o) :: Ids.assign name op rest

/-- The two tables of a registry; the opcode of an entry is its position. -/
structure Tables where
  ids : Ids := []
  entries : List Entry := []

/-- Puts a name at its place in an increasing list. -/
def insertName (name : Bytes) : List Bytes → List Bytes
  | [] => [name]
  | n :: rest => if name < n then name :: n :: rest else n :: insertName name rest

namespace Tables

/-- The number of registered opcodes. -/
def size (t : Tables) : Nat :=
  t.entries.length

/-- Writes an entry into both tables, under the next opcode. -/
def add (t : Tables) (e : Entry) : Tables where
  ids := Ids.assign e.mnemonic (UInt32.ofNat t.size) t.ids
  entries := t.entries ++ [e]

/-- Registers an instruction under the next opcode. -/
def register (t : Tables) (mnemonic : Bytes) (behavior : Option Behavior) :
    Except RegistrationFault (Opcode × Tables) :=
  (Entry.make mnemonic behavior).map fun e => (UInt32.ofNat t.size, t.add e)

/-- The tables that entries are written to one after the other. -/
def ofEntries (entries : List Entry) : Tables :=
  entries.foldl add {}

/-- The entry of an opcode. -/
def entry? (t : Tables) (op : Opcode) : Option Entry :=
  t.entries[op.toNat]?

/-- The mnemonic that an opcode was registered under. -/
def describe (t : Tables) (op : Opcode) : Option Bytes :=
  (t.entry? op).map (·.mnemonic)

/-- The behavior of an opcode. -/
def behavior? (t : Tables) (op : Opcode) : Option Behavior :=
  (t.entry? op).map (·.behavior)

/-- The opcode that a mnemonic names now. -/
def resolve (t : Tables) (mnemonic : Bytes) : Option Opcode :=
  t.ids.lookup mnemonic

/-- Every opcode registered under the mnemonic, oldest first. -/
def registrations (t : Tables) (mnemonic : Bytes) : List Opcode :=
  (t.entries.zipIdx.filter fun (e, _) => e.mnemonic == mnemonic).map fun (_, i) => UInt32.ofNat i

/-- A later registration took over the mnemonic of the opcode. A name that means nothing is read
as the first opcode. -/
def isShadowed (t : Tables) (op : Opcode) : Bool :=
  match t.describe op with
  | none => false
  | some mnemonic => (t.resolve mnemonic).getD 0 != op

/-- The mnemonics that can be resolved, in byte order. -/
def mnemonics (t : Tables) : List Bytes :=
  (t.ids.map (·.1)).foldr insertName []

/-- How an opcode is shown: by its mnemonic, or by its number if it has none. -/
def nameOf (t : Tables) (op : Opcode) : Bytes :=
  (t.describe op).getD (utf8 "op_" ++ Text.Decimal.ofNat op.toNat)

@[simp]
theorem entries_add (t : Tables) (e : Entry) : (t.add e).entries = t.entries ++ [e] :=
  rfl

theorem ofEntries_concat (entries : List Entry) (e : Entry) :
    ofEntries (entries ++ [e]) = (ofEntries entries).add e :=
  List.foldl_append

theorem entries_foldl_add (t : Tables) (entries : List Entry) :
    (entries.foldl add t).entries = t.entries ++ entries := by
  induction entries generalizing t with
  | nil => simp
  | cons e rest ih => rw [List.foldl_cons, ih, entries_add, List.append_assoc, List.singleton_append]

@[simp]
theorem entries_ofEntries (entries : List Entry) : (ofEntries entries).entries = entries :=
  entries_foldl_add {} entries

end Tables

end Registry

/-- An instruction set: two tables that entries were written to. -/
structure Registry extends Registry.Tables where
  built : toTables = Registry.Tables.ofEntries entries

namespace Registry

/-- The registry of entries registered one after the other. -/
def ofEntries (entries : List Entry) : Registry where
  toTables := .ofEntries entries
  built := by rw [Tables.entries_ofEntries]

/-- The registry without instructions. -/
def empty : Registry :=
  ofEntries []

/-- The registry with one entry more. -/
def append (r : Registry) (e : Entry) : Registry where
  toTables := r.toTables.add e
  built := by rw [Tables.entries_add, Tables.ofEntries_concat, ← r.built]

/-- Registers an instruction under the next opcode. -/
def register (r : Registry) (mnemonic : Bytes) (behavior : Option Behavior) :
    Except RegistrationFault (Opcode × Registry) :=
  (Entry.make mnemonic behavior).map fun e => (UInt32.ofNat r.size, r.append e)

/-- A registry is determined by its entries. -/
theorem eq_of_entries {r s : Registry} (h : r.entries = s.entries) : r = s := by
  obtain ⟨t, ht⟩ := r
  obtain ⟨u, hu⟩ := s
  have htables : t = u := by rw [ht, hu, h]
  subst htables
  rfl

@[simp]
theorem entries_append (r : Registry) (e : Entry) : (r.append e).entries = r.entries ++ [e] :=
  rfl

@[simp]
theorem entries_ofEntries (entries : List Entry) : (ofEntries entries).entries = entries :=
  Tables.entries_ofEntries entries

end Registry

end StackMachine
