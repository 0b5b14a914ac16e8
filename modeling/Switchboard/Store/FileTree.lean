/-!
# File trees

A tree of folders and plain files, in which a path is followed step by step. A path that leads to
no file fails at its first bad step: behind a file there is nothing to follow, and a name that is
too long is not looked up.

* `FileTree.follow` follows steps from a folder.
* `FileTree.read` is the content of the file that a path leads to.
-/

namespace Switchboard

/-- Why a file yields no text. -/
inductive FileFault
  | notFound
  | denied
  | isFolder
  /-- The path goes on behind a file. -/
  | notFolder
  | nameTooLong
  /-- The path holds the NUL character. -/
  | nulInName
  /-- The content is no UTF-8. -/
  | invalidText
deriving DecidableEq, Repr

/-- The fault in words. -/
def FileFault.message : FileFault → String
  | notFound => "No such file or directory (os error 2)"
  | denied => "Permission denied (os error 13)"
  | isFolder => "Is a directory (os error 21)"
  | notFolder => "Not a directory (os error 20)"
  | nameTooLong => "File name too long (os error 36)"
  | nulInName => "file name contained an unexpected NUL byte"
  | invalidText => "stream did not contain valid UTF-8"

/-- The steps from the root of a tree to a place in it. -/
abbrev Location := List String

/-- A tree of folders and files. -/
structure FileTree where
  /-- The folder at which paths without a leading slash start. -/
  working : Location := []
  /-- Folders that are there even without files. -/
  folders : List Location := []
  files : List (Location × List UInt8) := []

namespace FileTree

/-- The most bytes in the name of one step. -/
def longestName : Nat := 255

/-- The most bytes in a path. -/
def longestPath : Nat := 4095

/-- Whether a place is a folder: one that has been set up, or one on the way to something. -/
def isFolder (t : FileTree) (l : Location) : Bool :=
  l.isPrefixOf t.working || t.folders.any (l.isPrefixOf ·)
    || t.files.any fun (file, _) => l.isPrefixOf file && l ≠ file

/-- The content of the file at a place. -/
def content? (t : FileTree) (l : Location) : Option (List UInt8) :=
  if t.isFolder l then none else t.files.lookup l

/-- Whether a place is a file. -/
def isFile (t : FileTree) (l : Location) : Bool := (t.content? l).isSome

/-- Where one step leads from a folder. -/
def enter (t : FileTree) (l : Location) (step : String) : Except FileFault Location :=
  if step = "" ∨ step = "." then .ok l
  else if step = ".." then .ok l.dropLast
  else if step.utf8ByteSize > longestName then .error .nameTooLong
  else
    let next := l ++ [step]
    if t.isFolder next || t.isFile next then .ok next else .error .notFound

/-- Where steps lead from a place. -/
def follow (t : FileTree) : Location → List String → Except FileFault Location
  | l, [] => .ok l
  | l, step :: rest =>
    if t.isFile l then .error .notFolder
    else
      match t.enter l step with
      | .error fault => .error fault
      | .ok next => t.follow next rest

/-- Where a path starts. -/
def start (t : FileTree) (path : String) : Location := if path.startsWith "/" then [] else t.working

/-- The content of the file that a path leads to. -/
def read (t : FileTree) (path : String) : Except FileFault (List UInt8) :=
  if path.contains '\x00' then .error .nulInName
  else if path = "" then .error .notFound
  else if path.utf8ByteSize > longestPath then .error .nameTooLong
  else
    match t.follow (t.start path) (path.splitOn "/") with
    | .error fault => .error fault
    | .ok l =>
      match t.content? l with
      | some content => .ok content
      | none => .error .isFolder

/-- The place that a path names, whether or not anything is there. -/
def place (t : FileTree) (path : String) : Location :=
  (path.splitOn "/").foldl (fun l step =>
    if step = "" ∨ step = "." then l else if step = ".." then l.dropLast else l ++ [step])
    (t.start path)

/-- The tree with a file at the place that a path names. -/
def write (t : FileTree) (path : String) (content : List UInt8) : FileTree :=
  { t with files := (t.place path, content) :: t.files }

end FileTree
end Switchboard
