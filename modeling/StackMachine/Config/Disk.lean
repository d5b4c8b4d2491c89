import StackMachine.Path

/-! Disks: whether something is found under a path, and what reading it gives. A tree of files is
one such disk. -/
namespace StackMachine.Config

/-- Why nothing is found under a path. -/
inductive Absence where
  | missing
  | notDirectory
  | nameTooLong
  | invalidName
deriving DecidableEq

/-- The wording of a failed look-up. -/
def Absence.message : Absence → Bytes
  | .missing => utf8 "no such file or directory"
  | .notDirectory => utf8 "not a directory"
  | .nameTooLong => utf8 "file name too long"
  | .invalidName => utf8 "invalid argument"

/-- A disk. What is there need not be readable. -/
structure Disk where
  /-- Something is there, whatever it is. -/
  holds (path : Bytes) : Bool
  /-- The content of a file, or the wording of why it cannot be read. -/
  read (path : Bytes) : Except Bytes Bytes

/-- What is found under a path. -/
inductive Found where
  | file (content : Bytes)
  | directory
  /-- Something that may not be read. -/
  | sealed
  | nothing (why : Absence)
deriving DecidableEq

namespace Found

/-- Something is there. -/
def isThere : Found → Bool
  | .nothing _ => false
  | _ => true

/-- The content of a file, or why there is none. -/
def content (path : Bytes) : Found → Except Bytes Bytes
  | .file content => .ok content
  | .directory => .error (utf8 "read " ++ path ++ utf8 ": is a directory")
  | .sealed => .error (utf8 "open " ++ path ++ utf8 ": permission denied")
  | .nothing why => .error (utf8 "open " ++ path ++ utf8 ": " ++ why.message)

end Found

namespace Disk

/-- The disk on which so much is found. -/
def ofFound (found : Bytes → Found) : Disk where
  holds path := (found path).isThere
  read path := (found path).content path

/-- The disk on which look-ups have been made beforehand; nothing else is there. -/
def ofLookups (lookups : List (Bytes × Found)) : Disk :=
  ofFound fun path => (lookups.lookup path).getD (.nothing .missing)

end Disk

/-- A tree of files and directories: the segments that lead from the root to each of them, and
the content of a file. -/
structure FileTree where
  entries : List (List Bytes × Option Bytes)

namespace FileTree

/-- The longest name of a file. -/
def maxName : Nat := 255

/-- What the segments lead to. The way to an entry is made of directories. -/
def node (tree : FileTree) (segments : List Bytes) : Found :=
  match tree.entries.find? fun (way, _) => way == segments with
  | some (_, some content) => .file content
  | some (_, none) => .directory
  | none =>
    if segments.isEmpty || tree.entries.any fun (way, _) => segments.isPrefixOf way then .directory
    else .nothing .missing

/-- Follows segments from where others have led. -/
def walk (tree : FileTree) (reached : List Bytes) : List Bytes → Found
  | [] => tree.node reached
  | segment :: rest =>
    match tree.node reached with
    | .directory =>
      if segment = [] ∨ segment = Path.here then walk tree reached rest
      else if segment = Path.above then walk tree reached.dropLast rest
      else if maxName < segment.length then .nothing .nameTooLong
      else walk tree (reached ++ [segment]) rest
    | .file _ | .sealed => .nothing .notDirectory
    | .nothing why => .nothing why

/-- What is found under a path; `base` is the directory that relative paths start in. -/
def found (tree : FileTree) (base path : Bytes) : Found :=
  if path.isEmpty then .nothing .missing
  else if path.contains 0 then .nothing .invalidName
  else
    let start := if Path.isAbsolute path then [] else Path.resolved base
    tree.walk start (Text.pieces Path.slash path)

/-- The tree as a disk. -/
def disk (tree : FileTree) (base : Bytes) : Disk :=
  .ofFound (tree.found base)

end FileTree

end StackMachine.Config
