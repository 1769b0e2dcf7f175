/-
  CursorDiagnostics.FileTree — a directory of files as a value, and what reading a path in it gives.

  Paths are relative to the directory. They are followed part by part: each part must be in the
  directory that the parts before it name, so `x/..` is found only if `x` is. Empty parts and `.`
  stay where they are; a slash at the end asks for a directory. Above the directory, and at the
  root, nothing is known but that they are directories.

  Putting a file makes every directory that its path goes through, so one put at `x/../e` makes `x`.
-/

import CursorDiagnostics.Failure
import CursorDiagnostics.Text.Utf8

namespace CursorDiagnostics

namespace FileTree

inductive Node where
  | file (content : List UInt8)
  | directory
  deriving DecidableEq, Repr

/-- Where a path has led to: names below the directory, or a place outside it. -/
inductive Place where
  | inside (names : List String)
  | outside
  deriving DecidableEq, Repr

end FileTree

/-- What stands in the directory, each with the names that lead to it. -/
structure FileTree where
  entries : List (List String × FileTree.Node)

namespace FileTree

/-- The longest name of a file, in bytes. -/
def nameLimit : Nat := 255

/-- The longest path is shorter than this, in bytes. -/
def pathLimit : Nat := 4096

def empty : FileTree := ⟨[]⟩

/-- What stands at a place. -/
def node? (t : FileTree) : Place → Option Node
  | .outside => some .directory
  | .inside [] => some .directory
  | .inside names => t.entries.lookup names

def Place.child : Place → String → Option Place
  | .inside names, n => some (.inside (names ++ [n]))
  | .outside, _ => none

def Place.parent : Place → Place
  | .inside [] => .outside
  | .inside names => .inside names.dropLast
  | .outside => .outside

/-- Makes a node stand at a place, instead of what stands there. -/
def write (t : FileTree) (p : Place) (n : Node) : FileTree :=
  match p with
  | .outside => t
  | .inside names => ⟨t.entries.filter (·.1 != names) ++ [(names, n)]⟩

def Place.follow (p : Place) (part : String) : Place :=
  if part = "" ∨ part = "." then p
  else if part = ".." then p.parent
  else (p.child part).getD .outside

/-- Goes on to one part of a path, and makes it a directory unless something stands there. -/
def enter (t : FileTree × Place) (part : String) : FileTree × Place :=
  let p := t.2.follow part
  (if (t.1.node? p).isSome then t.1 else t.1.write p .directory, p)

def enterAll (t : FileTree) (parts : List String) : FileTree × Place := parts.foldl enter (t, .inside [])

def putDirectory (t : FileTree) (path : String) : FileTree := (t.enterAll (path.splitOn "/")).1

def putFile (t : FileTree) (path : String) (content : List UInt8) : FileTree :=
  let parts := path.splitOn "/"
  let (t, above) := t.enterAll parts.dropLast
  t.write (above.follow (parts.getLastD "")) (.file content)

/-- One part of a path, from a place that has been found. -/
def advance (t : FileTree) (p : Place) (part : String) : Except IoFault Place :=
  match t.node? p with
  | some .directory =>
    if part = "" ∨ part = "." then .ok p
    else if part = ".." then .ok p.parent
    else if nameLimit < part.utf8ByteSize then .error .nameTooLong
    else
      match (p.child part).filter fun q => (t.node? q).isSome with
      | some q => .ok q
      | none => .error .notFound
  | _ => .error .notDirectory

/-- The bytes of the file at a path. -/
def bytes (t : FileTree) (path : String) : Except IoFault (List UInt8) := do
  if '\x00' ∈ path.toList then .error .nulInPath
  if path = "" then .error .notFound
  if pathLimit ≤ path.utf8ByteSize then .error .nameTooLong
  let start : Place := if path.startsWith "/" then .outside else .inside []
  let place ← (path.splitOn "/").foldlM t.advance start
  match t.node? place with
  | some (.file content) => .ok content
  | some .directory => .error .isDirectory
  | none => .error .notFound

/-- The text of the file at a path. -/
def text (t : FileTree) (path : String) : Except IoFault String := do
  match Text.Utf8.strict (← t.bytes path) with
  | some s => .ok s
  | none => .error .notText

end FileTree

end CursorDiagnostics
