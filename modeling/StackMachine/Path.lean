import StackMachine.Text.Fields

/-! Paths as texts: segments between slashes, resolved without looking at a disk. -/
namespace StackMachine.Path

/-- The byte between segments. -/
def slash : UInt8 := 47

/-- The segment for the directory itself. -/
def here : Bytes := [46]

/-- The segment for the directory above. -/
def above : Bytes := [46, 46]

/-- The path starts at the root. -/
def isAbsolute (path : Bytes) : Bool :=
  path.head? == some slash

/-- Adds a segment to resolved ones, which are kept last first. A step up removes a segment;
at the root it leads nowhere, and at the start of a relative path it is kept. -/
def step (rooted : Bool) (kept : List Bytes) (segment : Bytes) : List Bytes :=
  if segment = [] ∨ segment = here then kept
  else if segment = above then
    match kept with
    | [] => if rooted then [] else [above]
    | last :: rest => if last = above then above :: kept else rest
  else segment :: kept

/-- The segments of a path after resolving steps up, in order. -/
def resolved (path : Bytes) : List Bytes :=
  ((Text.pieces slash path).foldl (step (isAbsolute path)) []).reverse

/-- The shortest path that means the same. -/
def clean (path : Bytes) : Bytes :=
  let body := Bytes.join [slash] (resolved path)
  if isAbsolute path then slash :: body
  else if body.isEmpty then here
  else body

/-- The path of a name in a directory; an empty directory is the one the name is relative to. -/
def join (directory name : Bytes) : Bytes :=
  if directory.isEmpty then if name.isEmpty then [] else clean name
  else clean (directory ++ slash :: name)

/-- The directory that holds what the path names. -/
def parent (path : Bytes) : Bytes :=
  clean (path.reverse.dropWhile (· != slash)).reverse

/-- The path from the root; `base` is the directory that relative paths start in. -/
def absolute (base path : Bytes) : Bytes :=
  if isAbsolute path then clean path else join base path

/-- The directory and those above it up to the root; the fuel bounds their number. -/
def ancestorsWithin : Nat → Bytes → List Bytes
  | 0, _ => []
  | fuel + 1, directory =>
    let up := parent directory
    if up = directory then [directory] else directory :: ancestorsWithin fuel up

/-- The directory and those above it, the nearest first. -/
def ancestors (directory : Bytes) : List Bytes :=
  ancestorsWithin (directory.length + 1) directory

end StackMachine.Path
