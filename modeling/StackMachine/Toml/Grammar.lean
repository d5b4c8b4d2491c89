import StackMachine.Toml.Text

/-! The statements of a document, read without regard to what has been defined before. -/
namespace StackMachine.Toml

/-- A dotted name. -/
abbrev Path := List Bytes

/-- A value as it is written. -/
inductive Expr where
  | text (value : Bytes)
  | integer (value : Int64)
  | float (literal : Bytes)
  | bool (value : Bool)
  | moment (literal : Bytes)
  | array (items : List Expr)
  | inline (pairs : List (Path × Expr))

/-- A statement. -/
inductive Statement where
  /-- `[path]` -/
  | table (path : Path)
  /-- `[[path]]` -/
  | element (path : Path)
  /-- `path = value` -/
  | assign (path : Path) (value : Expr)

/-- The input without leading spaces and tabs. -/
def skipBlanks (input : Bytes) : Bytes :=
  input.dropWhile fun b => b == 32 || b == 9

/-- The input without leading blanks, newlines and comments. `inComment` tells whether it
starts inside a comment. -/
def skipGaps : Bool → Bytes → Bytes
  | _, [] => []
  | true, b :: rest => skipGaps (b != 10) rest
  | false, b :: rest =>
    if isGap b then skipGaps false rest
    else if b = 35 then skipGaps true rest
    else b :: rest

/-- What follows the end of a line, on which only blanks and a comment may stand. -/
def endLine (input : Bytes) : Option Bytes :=
  match skipBlanks input with
  | [] => some []
  | 10 :: rest => some rest
  | 13 :: rest => some rest
  | 35 :: rest => some (rest.dropWhile (· != 10))
  | _ => none

/-- The byte may stand in a name without quotes. -/
def isBare (b : UInt8) : Bool :=
  isDigit b || (97 ≤ b && b ≤ 122) || (65 ≤ b && b ≤ 90) || b == 95 || b == 45

/-- Reads one part of a dotted name. -/
def readName : Bytes → Quotation
  | 34 :: rest => readBasic 0 rest
  | 39 :: rest => readLiteral rest
  | input =>
    match input.span isBare with
    | ([], _) => none
    | (name, rest) => some (name, rest)

/-- Reads a dotted name with the blanks around its parts; the fuel bounds their number. -/
def readPath : Nat → Bytes → Option (Path × Bytes)
  | 0, _ => none
  | fuel + 1, input =>
    match readName (skipBlanks input) with
    | none => none
    | some (name, rest) =>
      match skipBlanks rest with
      | 46 :: rest₁ => (readPath fuel rest₁).map fun (path, r) => (name :: path, r)
      | rest₁ => some ([name], rest₁)

/-- The byte may stand in a floating-point literal. -/
def isFloatByte (b : UInt8) : Bool :=
  isDigit b || [95, 46, 45, 43, 101, 69].contains b

/-- The byte may stand in a date and time. -/
def isMomentByte (b : UInt8) : Bool :=
  isDigit b || [45, 58, 84, 116, 32, 46, 90, 122, 43].contains b

/-- The number literal that a text of digits and underscores begins. -/
def readDecimal (sign digits rest : Bytes) : Option (Expr × Bytes) :=
  match rest with
  | b :: _ =>
    if b == 46 || b == 101 || b == 69 then
      let (tail, rest₁) := rest.span isFloatByte
      let literal := sign ++ digits ++ tail
      if Scalar.isFloat literal then some (.float literal, rest₁) else none
    else (Scalar.integer? (sign ++ digits)).map fun n => (.integer n, rest)
  | [] => (Scalar.integer? (sign ++ digits)).map fun n => (.integer n, rest)

/-- Reads digits and underscores and what they begin. -/
def readSigned (sign input : Bytes) : Option (Expr × Bytes) :=
  match input with
  | 105 :: 110 :: 102 :: rest => some (.float (sign ++ utf8 "inf"), rest)
  | 110 :: 97 :: 110 :: rest => some (.float (sign ++ utf8 "nan"), rest)
  | b :: _ =>
    if isDigit b then
      let (digits, rest) := input.span fun b => isDigit b || b == 95
      readDecimal sign digits rest
    else none
  | [] => none

/-- Reads a number in a base that is no ten: the mark of the base has been seen. -/
def readBased (isDigitOfBase : UInt8 → Bool) (mark : UInt8) (input : Bytes) :
    Option (Expr × Bytes) :=
  match input with
  | first :: _ =>
    if isDigitOfBase first then
      let (digits, rest) := input.span fun b => isDigitOfBase b || b == 95
      (Scalar.integer? (48 :: mark :: digits)).map fun n => (.integer n, rest)
    else none
  | [] => none

/-- Reads a number, a date or a time, which starts with a digit. -/
def readUnsigned (input : Bytes) : Option (Expr × Bytes) :=
  match input with
  | 48 :: 98 :: rest => readBased (fun b => b == 48 || b == 49) 98 rest
  | 48 :: 111 :: rest => readBased (fun b => 48 ≤ b && b ≤ 55) 111 rest
  | 48 :: 120 :: rest => readBased isHexDigit 120 rest
  | _ =>
    match (input.dropWhile isDigit).head? with
    | some 45 | some 58 =>
      let (written, rest) := input.span isMomentByte
      let literal := Bytes.trimEnd 32 written
      if Scalar.isMoment literal then some (.moment literal, rest) else none
    | _ => readSigned [] input

mutual

/-- Reads a value, before which blanks may stand; the fuel bounds how many values are begun on
the way. -/
def readExpr : Nat → Bytes → Option (Expr × Bytes)
  | 0, _ => none
  | fuel + 1, input =>
    match skipBlanks input with
    | 91 :: rest => (readItems fuel rest).map fun (items, r) => (.array items, r)
    | 123 :: rest => (readPairs fuel rest).map fun (pairs, r) => (.inline pairs, r)
    | 34 :: rest => (readQuoted (34 :: rest)).map fun (t, r) => (.text t, r)
    | 39 :: rest => (readQuoted (39 :: rest)).map fun (t, r) => (.text t, r)
    | 116 :: 114 :: 117 :: 101 :: rest => some (.bool true, rest)
    | 102 :: 97 :: 108 :: 115 :: 101 :: rest => some (.bool false, rest)
    | 43 :: rest => readSigned [43] rest
    | 45 :: rest => readSigned [45] rest
    | b :: rest => if isDigit b then readUnsigned (b :: rest) else readSigned [] (b :: rest)
    | [] => none

/-- Reads the items of an array and its closing bracket; a comma may follow the last item. -/
def readItems : Nat → Bytes → Option (List Expr × Bytes)
  | 0, _ => none
  | fuel + 1, input =>
    match skipGaps false input with
    | 93 :: rest => some ([], rest)
    | start =>
      match readExpr fuel start with
      | none => none
      | some (item, rest) =>
        match skipGaps false rest with
        | 44 :: rest₁ => (readItems fuel rest₁).map fun (items, r) => (item :: items, r)
        | 93 :: rest₁ => some ([item], rest₁)
        | _ => none

/-- Reads the pairs of an inline table and its closing brace; a comma may follow the last
pair. -/
def readPairs : Nat → Bytes → Option (List (Path × Expr) × Bytes)
  | 0, _ => none
  | fuel + 1, input =>
    match skipGaps false input with
    | 125 :: rest => some ([], rest)
    | start =>
      match readPath start.length start with
      | some (path, 61 :: rest) =>
        match readExpr fuel rest with
        | none => none
        | some (value, rest₁) =>
          match skipGaps false rest₁ with
          | 44 :: rest₂ => (readPairs fuel rest₂).map fun (pairs, r) => ((path, value) :: pairs, r)
          | 125 :: rest₂ => some ([(path, value)], rest₂)
          | _ => none
      | _ => none

end

/-- Reads one statement. -/
def readStatement (input : Bytes) : Option (Statement × Bytes) :=
  match input with
  | 91 :: 91 :: rest =>
    match readPath rest.length rest with
    | some (path, 93 :: 93 :: rest₁) => some (.element path, rest₁)
    | _ => none
  | 91 :: rest =>
    match readPath rest.length rest with
    | some (path, 93 :: rest₁) => some (.table path, rest₁)
    | _ => none
  | _ =>
    match readPath input.length input with
    | some (path, 61 :: rest) =>
      (readExpr (2 * rest.length + 1) rest).map fun (value, r) => (.assign path value, r)
    | _ => none

/-- Reads statements to the end, each on lines of its own; the fuel bounds their number. -/
def readStatements : Nat → Bytes → Option (List Statement)
  | 0, _ => none
  | fuel + 1, input =>
    match skipGaps false input with
    | [] => some []
    | start =>
      match readStatement start with
      | none => none
      | some (statement, rest) =>
        match endLine rest with
        | none => none
        | some rest₁ => (readStatements fuel rest₁).map fun others => statement :: others

/-- Only tabs, newlines and characters that are no control characters occur; a carriage return
stands before a newline only. -/
def isPlain : Bytes → Bool
  | [] => true
  | 13 :: rest => rest.head? == some 10 && isPlain rest
  | b :: rest => (b == 9 || b == 10 || (32 ≤ b && b != 127)) && isPlain rest

/-- The input without a byte order mark. -/
def dropMark : Bytes → Bytes
  | 0xEF :: 0xBB :: 0xBF :: rest => rest
  | 0xFF :: 0xFE :: rest => rest
  | 0xFE :: 0xFF :: rest => rest
  | input => input

/-- The statements of a document. -/
def statements (document : Bytes) : Option (List Statement) :=
  let input := dropMark document
  if isPlain input && Text.Utf8.valid input then readStatements (input.length + 1) input else none

end StackMachine.Toml
