import StackMachine.Toml.Table

/-! Documents: the table that statements define together. What a statement may define depends
on how the names in it came about: a table that was only passed through on the way to another
one may still be defined once, any other name may not. -/
namespace StackMachine.Toml

/-- A document in the making. `passed` holds the paths that were only passed through, `arrays`
the paths of arrays, and `context` is the table that keys belong to. -/
structure Draft where
  root : Table := []
  passed : List Path := []
  arrays : List Path := []
  context : Path := []

namespace Draft

/-- Marks a path as passed through. -/
def pass (d : Draft) (path : Path) : Draft :=
  { d with passed := path :: d.passed.filter (· != path) }

/-- Marks a path as defined. -/
def settle (d : Draft) (path : Path) : Draft :=
  { d with passed := d.passed.filter (· != path) }

/-- Notes whether a path is that of an array. -/
def note (d : Draft) (path : Path) (isArray : Bool) : Draft :=
  let others := d.arrays.filter (· != path)
  { d with arrays := if isArray then path :: others else others }

/-- The path of a key in the context; an empty key stands for the context itself, unless that
is the document. -/
def notedPath (d : Draft) (key : Bytes) : Path :=
  if key.isEmpty && !d.context.isEmpty then d.context else d.context ++ [key]

/-- Defines a key in the context. A key that is there already must have been passed through
only; it then keeps its table, but an array gives way. -/
def define (d : Draft) (key : Bytes) (value : Value) : Option Draft :=
  let path := d.context ++ [key]
  let write (d : Draft) : Option Draft :=
    (d.root.setAt key value d.context).map fun root => { d with root }
  match d.root.at? d.context with
  | none => none
  | some here =>
    match here.get? key with
    | none => write d
    | some _ =>
      if d.passed.contains path then
        if d.arrays.contains path then write (d.settle path) else some (d.settle path)
      else none

/-- Passes through the steps of a path, adding the tables that are missing. -/
def travel (d : Draft) (done : Path) : Path → Option Draft
  | [] => some d
  | step :: rest =>
    let path := done ++ [step]
    match d.root.at? done with
    | none => none
    | some here =>
      match here.get? step with
      | some (.table _) => travel d path rest
      | some (.tables _ _) => travel d path rest
      | some _ => none
      | none =>
        match d.root.setAt step (.table []) done with
        | none => none
        | some root => travel { d.pass path with root } path rest

/-- Makes a path the context, defining its last step as a table. -/
def enterTable (d : Draft) (path : Path) : Option Draft :=
  match path.getLast? with
  | none => none
  | some last =>
    match d.travel [] path.dropLast with
    | none => none
    | some d₁ =>
      (define { d₁ with context := path.dropLast } last (.table [])).map fun d₂ =>
        { d₂ with context := path }

/-- Makes a path the context, adding a table to the array of tables that it names. -/
def enterElement (d : Draft) (path : Path) : Option Draft :=
  match path.getLast? with
  | none => none
  | some last =>
    match d.travel [] path.dropLast with
    | none => none
    | some d₁ =>
      let grown : Option Value :=
        match (d₁.root.at? path.dropLast).bind (·.get? last) with
        | none => some (.tables [] [])
        | some (.tables earlier latest) => some (.tables (earlier ++ [latest]) [])
        | some _ => none
      match grown with
      | none => none
      | some value =>
        (d₁.root.setAt last value path.dropLast).map fun root =>
          { d₁ with root, context := path }

/-- Enters the tables that a dotted key passes through. -/
def enterParents (d : Draft) : Path → Option Draft
  | [] => some d
  | step :: rest =>
    let path := d.context ++ [step]
    match (d.pass path).enterTable path with
    | none => none
    | some d₁ => enterParents d₁ rest

mutual

/-- Evaluates the value of a key in the context. Inline tables are defined on the way, as
elements of an array of tables inside an array. -/
def evaluate (d : Draft) (key : Bytes) (inArray : Bool) : Expr → Option (Draft × Value)
  | .text value => some (d, .text value)
  | .integer value => some (d, .integer value)
  | .float literal => some (d, .float literal)
  | .bool value => some (d, .bool value)
  | .moment literal => some (d, .moment literal)
  | .array items =>
    (evaluateItems (d.note (d.notedPath key) true) key items).map fun (after, values) =>
      (after, .array values)
  | .inline pairs =>
    let path := d.context ++ [key]
    let opened :=
      if inArray then (d.pass path).enterElement path else (d.pass path).enterTable path
    match opened with
    | none => none
    | some inside =>
      (evaluatePairs inside path [] pairs).map fun (after, entries) =>
        ({ after with context := d.context }, .table entries)

/-- Evaluates the items of an array. -/
def evaluateItems (d : Draft) (key : Bytes) : List Expr → Option (Draft × List Value)
  | [] => some (d, [])
  | item :: rest =>
    match evaluate d key true item with
    | none => none
    | some (d₁, value) =>
      (evaluateItems d₁ key rest).map fun (after, values) => (after, value :: values)

/-- Evaluates the pairs of an inline table onto the entries before them. -/
def evaluatePairs (d : Draft) (context : Path) (entries : Table) :
    List (Path × Expr) → Option (Draft × Table)
  | [] => some (d, entries)
  | (path, expr) :: rest =>
    match path.getLast?, d.enterParents path.dropLast with
    | some key, some d₁ =>
      match evaluate d₁ key false expr with
      | none => none
      | some (d₂, value) =>
        match d₂.define key value, entries.insertPath value path with
        | some d₃, some entries' =>
          let isArray := match value with
            | .array _ => true
            | _ => false
          evaluatePairs { d₃.note (d₃.notedPath key) isArray with context } context entries' rest
        | _, _ => none
    | _, _ => none

end

/-- Carries out one statement. -/
def apply (d : Draft) : Statement → Option Draft
  | .table path => (d.enterTable path).map fun d₁ => d₁.note path false
  | .element path => (d.enterElement path).map fun d₁ => d₁.note path false
  | .assign path expr =>
    match evaluatePairs d d.context [] [(path, expr)] with
    | none => none
    | some (d₁, _) => some d₁

end Draft

/-- The table that a document defines; `none` if it is malformed. -/
def parse (document : Bytes) : Option Table :=
  match statements document with
  | none => none
  | some list => (list.foldlM Draft.apply {}).map (·.root)

end StackMachine.Toml
