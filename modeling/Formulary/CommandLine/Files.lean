import Formulary.Text.Search

/-!
# Files

* `FileFault` : why a file cannot be read, and the words for it;
* `Files` : the contents of files by their paths;
* `FileTree` : files at their places, and the directory that paths start from;
* `FileTree.step`, `FileTree.locate` : the place that a name, and a path, leads to;
* `FileTree.read` : the content of the file that a path leads to.

A place is given by the names on the way to it from the root. A directory is there because
something stands in it: a file, or the directory that paths start from.
-/

namespace Formulary.CommandLine

/-- Why a file cannot be read. -/
inductive FileFault where
  | notFound
  | permissionDenied
  | notDirectory
  | isDirectory
  | nameTooLong
  | tooManyLinks
  /-- The bytes of the file are no text. -/
  | notText
  | other (reason : String)
  deriving DecidableEq, Repr

/-- The words for a fault, with the number that the system gives it. -/
def FileFault.message : FileFault → String
  | .notFound => "No such file or directory (os error 2)"
  | .permissionDenied => "Permission denied (os error 13)"
  | .notDirectory => "Not a directory (os error 20)"
  | .isDirectory => "Is a directory (os error 21)"
  | .nameTooLong => "File name too long (os error 36)"
  | .tooManyLinks => "Too many levels of symbolic links (os error 40)"
  | .notText => "stream did not contain valid UTF-8"
  | .other reason => reason

/-- The contents of files by their paths, or why a file cannot be read. -/
abbrev Files := String → Except FileFault String

/-- The names on the way to a place from the root. -/
abbrev Place := List String

/-- The most bytes that a name may have. -/
def longestName : Nat := 255

/-- The most bytes that a path may have. -/
def longestPath : Nat := 4095

/-- Files at their places, and the directory that relative paths start from. -/
structure FileTree where
  home : Place
  files : List (Place × String)

/-- The names between the slashes of a path. -/
def pathNames (path : String) : List String :=
  (Text.splitOn ['/'] path.toList).map String.ofList

namespace FileTree

/-- The tree with files in its home, under names that may lead through directories. -/
def ofHome (home : Place) (contents : List (String × String)) : FileTree :=
  ⟨home, contents.map fun (name, content) => (home ++ pathNames name, content)⟩

/-- Whether a file stands at the place. -/
def isFile (tree : FileTree) (place : Place) : Bool :=
  tree.files.any fun entry => entry.1 == place

/-- Whether the place is on the way to a file or to the home. -/
def isDirectory (tree : FileTree) (place : Place) : Bool :=
  place.isPrefixOf tree.home ||
    tree.files.any fun entry => place.isPrefixOf entry.1 && entry.1 != place

/-- The place that a name leads to from a place, which has to be a directory. The empty name and a
dot stay there, and two dots lead towards the root. -/
def step (tree : FileTree) (place : Place) (name : String) : Except FileFault Place :=
  if !tree.isDirectory place then .error .notDirectory
  else if name == "" || name == "." then .ok place
  else if name == ".." then .ok place.dropLast
  else if longestName < name.utf8ByteSize then .error .nameTooLong
  else if tree.isDirectory (place ++ [name]) || tree.isFile (place ++ [name]) then
    .ok (place ++ [name])
  else .error .notFound

/-- The place that a path leads to: from the root if it begins with a slash, else from the home. -/
def locate (tree : FileTree) (path : String) : Except FileFault Place :=
  if path == "" then .error .notFound
  else if longestPath < path.utf8ByteSize then .error .nameTooLong
  else (pathNames path).foldlM tree.step (if path.startsWith "/" then [] else tree.home)

/-- The content of the file that a path leads to. -/
def read (tree : FileTree) : Files := fun path => do
  match tree.files.lookup (← tree.locate path) with
  | some content => return content
  | none => throw .isDirectory

theorem step_dot {tree : FileTree} {place : Place} (h : tree.isDirectory place = true) :
    tree.step place "." = .ok place := by
  simp [step, h]

/-- Nothing lies behind a file, not even itself behind a slash. -/
theorem step_of_not_isDirectory {tree : FileTree} {place : Place}
    (h : tree.isDirectory place = false) (name : String) :
    tree.step place name = .error .notDirectory := by
  simp [step, h]

end FileTree

end Formulary.CommandLine
