import StackMachine.Toml.Grammar

/-! Tables: what a document defines. -/
namespace StackMachine.Toml

/-- A defined value. -/
inductive Value where
  | text (value : Bytes)
  | integer (value : Int64)
  | float (literal : Bytes)
  | bool (value : Bool)
  | moment (literal : Bytes)
  | array (items : List Value)
  | table (entries : List (Bytes × Value))
  /-- An array of tables that can still grow; the last table is the one being defined. -/
  | tables (earlier : List (List (Bytes × Value))) (last : List (Bytes × Value))

/-- A table: keys and values in the order of their definition. -/
abbrev Table := List (Bytes × Value)

namespace Table

/-- The value of a key. -/
def get? (t : Table) (key : Bytes) : Option Value :=
  t.lookup key

/-- Defines a key, or changes its value in place. -/
def set (t : Table) (key : Bytes) (value : Value) : Table :=
  match t with
  | [] => [(key, value)]
  | (k, v) :: rest => if k = key then (k, value) :: rest else (k, v) :: set rest key value

/-- The table that a path leads to. -/
def at? (t : Table) : Path → Option Table
  | [] => some t
  | key :: path =>
    match t.get? key with
    | some (.table sub) => at? sub path
    | some (.tables _ last) => at? last path
    | _ => none

/-- The table with a key set in the table that a path leads to. -/
def setAt (t : Table) (key : Bytes) (value : Value) : Path → Option Table
  | [] => some (t.set key value)
  | step :: path =>
    match t.get? step with
    | some (.table sub) => (setAt sub key value path).map fun sub' => t.set step (.table sub')
    | some (.tables earlier last) =>
      (setAt last key value path).map fun last' => t.set step (.tables earlier last')
    | _ => none

/-- The table with a value at a path, of which missing tables on the way are added. -/
def insertPath (t : Table) (value : Value) : Path → Option Table
  | [] => none
  | [key] => some (t.set key value)
  | step :: path =>
    match t.get? step with
    | none => (insertPath [] value path).map fun sub => t.set step (.table sub)
    | some (.table sub) => (insertPath sub value path).map fun sub' => t.set step (.table sub')
    | some _ => none

end Table

end StackMachine.Toml
