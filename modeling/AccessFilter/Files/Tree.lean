import AccessFilter.Value.Basic

/-!
# Files and folders

On a disk stand files and folders, and nothing else: no links, no devices. Every entry of a folder can
be looked at, and every file can be read as far as its octets are text; whether a folder can be listed
is left to the one who lists it (`PolicyFolder.Call`). A path is bounded in length where it is given
as a whole (`FileTree.locate`); the paths that a search makes up below its root are not.

* `FileTree`         a file with its text, or a folder with its entries; a file whose octets are no
                     text has none;
* `FileError`        why nothing can be read at a path;
* `FileTree.locate`  what stands at a path, from a folder on;
* `FileTree.write`, `makeFolder`, `remove`  changes;
* `Disk`             what stands at each path.
-/

namespace AccessFilter

/-- A file, or a folder with named entries. -/
inductive FileTree where
  | file (text : Option String)
  | folder (entries : List (String × FileTree))

instance : Inhabited FileTree := ⟨.folder []⟩

/-- Why nothing can be read at a path. -/
inductive FileError where
  | notFound
  | notFolder
  | isFolder
  | nameTooLong
  | zeroInPath
  | notText
  | denied
deriving DecidableEq

def FileError.message : FileError → String
  | .notFound => "No such file or directory (os error 2)"
  | .notFolder => "Not a directory (os error 20)"
  | .isFolder => "Is a directory (os error 21)"
  | .nameTooLong => "File name too long (os error 36)"
  | .zeroInPath => "file name contained an unexpected NUL byte"
  | .notText => "stream did not contain valid UTF-8"
  | .denied => "Permission denied (os error 13)"

/-- What stands at each path. -/
abbrev Disk := String → Except FileError FileTree

namespace FileTree

def text : FileTree → Except FileError String
  | .file (some text) => .ok text
  | .file none => .error .notText
  | .folder _ => .error .isFolder

def ofOctets (octets : ByteArray) : FileTree := .file (String.fromUTF8? octets)

/-! ## paths -/

def splitSlashes : List Char → List (List Char)
  | [] => [[]]
  | c :: cs =>
    if c = '/' then [] :: splitSlashes cs
    else
      match splitSlashes cs with
      | [] => [[c]]
      | part :: parts => (c :: part) :: parts

/-- The parts of a path between slashes, the empty ones left out. -/
def pathParts (path : String) : List String :=
  ((splitSlashes path.toList).filter fun part => !part.isEmpty).map String.ofList

/-- Whether the last part of a path must be a folder. -/
def endsInSlash (path : String) : Bool := path.toList.getLast? == some '/'

/-- How many octets a path may have. -/
def maxPathSize : Nat := 4095

def maxNameSize : Nat := 255

/-- Follow the parts of a path. The folders above the place reached are given, the nearest first;
nothing is known of what the further ones above hold. -/
def walk (above : List FileTree) (here : FileTree) : List String → Except FileError FileTree
  | [] => .ok here
  | part :: parts =>
    match here with
    | .file _ => .error .notFolder
    | .folder entries =>
      if part = "." then walk above here parts
      else if part = ".." then walk (above.drop 1) (above.headD (.folder [])) parts
      else if maxNameSize < part.utf8ByteSize then .error .nameTooLong
      else
        match Fields.find? part entries with
        | some next => walk (here :: above) next parts
        | none => .error .notFound

/-- What stands at a path that starts in a folder. Of an absolute path nothing is known but that its
start is a folder. -/
def locate (top : FileTree) : Disk := fun path =>
  let start := if path.toList.head? == some '/' then .folder [] else top
  if '\x00' ∈ path.toList then .error .zeroInPath
  else if maxPathSize < path.utf8ByteSize then .error .nameTooLong
  else if path.isEmpty then .error .notFound
  else walk [] start (pathParts path ++ if endsInSlash path then ["."] else [])

/-! ## changes -/

def without (name : String) (entries : List (String × FileTree)) : List (String × FileTree) :=
  entries.filter fun e => e.1 ≠ name

/-- The entries of a folder; what is no folder gives way to an empty one. -/
def entries : FileTree → List (String × FileTree)
  | .folder entries => entries
  | .file _ => []

/-- Put something at the end of a path; missing folders on the way are made. -/
def put (new : FileTree) : List String → FileTree → FileTree
  | [], _ => new
  | name :: names, tree =>
    let next := (Fields.find? name tree.entries).getD (.folder [])
    .folder (Fields.put name (put new names next) tree.entries)

/-- Put a folder at the end of a path, unless one is there. -/
def putFolder (names : List String) (tree : FileTree) : FileTree :=
  match walk [] tree names with
  | .ok (.folder _) => tree
  | _ => put (.folder []) names tree

/-- The folders from which the parts of a path go up, and the names on the straight way to its end.
The names up to the place reached are given, the latest first. -/
def straighten (reached : List String) : List String → List (List String) × List String
  | [] => ([], reached.reverse)
  | part :: parts =>
    if part = "." then straighten reached parts
    else if part = ".." then
      let (left, names) := straighten (reached.drop 1) parts
      (reached.reverse :: left, names)
    else straighten (part :: reached) parts

/-- A change at the end of a path; missing folders from which the path goes up are made. -/
def changeAt (change : List String → FileTree → FileTree) (top : FileTree) (path : String) :
    FileTree :=
  let (left, names) := straighten [] (pathParts path)
  change names (left.foldl (fun tree names => putFolder names tree) top)

def write (top : FileTree) (path : String) (file : FileTree) : FileTree :=
  changeAt (put file) top path

/-- Make a folder, unless it is there. -/
def makeFolder (top : FileTree) (path : String) : FileTree := changeAt putFolder top path

def removeAt : List String → FileTree → FileTree
  | [], tree => tree
  | [name], tree => .folder (without name tree.entries)
  | name :: names, tree =>
    match Fields.find? name tree.entries with
    | some next => .folder (Fields.put name (removeAt names next) tree.entries)
    | none => tree

/-- Remove a file, or a folder with all that is in it. -/
def remove (top : FileTree) (path : String) : FileTree :=
  removeAt (straighten [] (pathParts path)).2 top

end FileTree

def Disk.text (disk : Disk) (path : String) : Except FileError String := do
  (← disk path).text

end AccessFilter
