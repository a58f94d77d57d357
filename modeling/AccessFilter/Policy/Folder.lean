import AccessFilter.Policy.Document
import AccessFilter.Policy.Set

/-!
# Policies from a file or a folder

The root is one policy file or a folder that is searched with all folders in it, each folder in the
order of its names. A document is kept under the path of its file; one whose identifier is taken by a
document under another path is refused. What is kept stays from one call to the next until its file
gives another document. Of each file that it reads a call logs at once what becomes of it. At a folder
that cannot be listed a call breaks off: it returns an error and none of its results, but what it has
logged is said, and what it has kept stays.

* `FileTree.sorted`       a tree with the entries of each folder in the order of their names;
* `LoadStatus`, `LoadResult`  what became of one file;
* `PolicyFolder`          the documents kept, in the order of their paths;
* `PolicyFolder.scan`     the search of a folder, level by level;
* `PolicyFolder.perform`  one call: what it returns, what it logs, and the folder after it;
* `PolicyFolder.loadAll`  a call to which no folder is barred;
* `PolicyFolder.policySet`  the rules of all documents kept, in order.
-/

namespace AccessFilter

/-- Where a file is: the names from the root on. -/
abbrev FilePath := List String

/-! ## names -/

def isHiddenName (name : String) : Bool := name.toList.head? == some '.'

namespace FileTree

/-- One entry is not behind another, by their names. -/
def byName (a b : String × FileTree) : Bool := !decide (b.1 < a.1)

mutual

/-- The tree with the entries of each folder in the order of their names. -/
def sorted : FileTree → FileTree
  | .file text => .file text
  | .folder entries => .folder ((sortedIn entries).mergeSort byName)

def sortedIn : List (String × FileTree) → List (String × FileTree)
  | [] => []
  | (name, tree) :: rest => (name, sorted tree) :: sortedIn rest

end

end FileTree

/-- What follows the last dot of a name, if that is not its first character. -/
def extension? (name : String) : Option String :=
  let after := (name.toList.reverse.takeWhile (· ≠ '.')).reverse
  if after.length + 1 < name.length then some (String.ofList after) else none

def isYamlName (name : String) : Bool :=
  extension? name == some "yml" || extension? name == some "yaml"

def joinName (path name : String) : String :=
  if path.isEmpty || path.toList.getLast? == some '/' then path ++ name else path ++ "/" ++ name

def pathText (root : String) (path : FilePath) : String := path.foldl joinName root

/-! ## what becomes of a file -/

inductive SkipReason where
  | hidden
  | notYaml
  | disabled
deriving DecidableEq

def SkipReason.message : SkipReason → String
  | .hidden => "dotfile"
  | .notYaml => "not a YAML file"
  | .disabled => "disabled"

/-- Why a file gives no document: it is faulty, or its identifier is taken. -/
inductive LoadFault where
  | faulty (cause : PolicyError)
  | duplicate (id takenBy : String)

def LoadFault.message : LoadFault → String
  | .faulty cause => cause.message
  | .duplicate id takenBy =>
    "duplicate policy id '" ++ id ++ "' (already loaded from " ++ takenBy ++ ")"

inductive LoadStatus where
  | loaded (id : String) (rules : Nat)
  | skipped (reason : SkipReason)
  | failed (fault : LoadFault)

/-- Whether a call logs what becomes of a file: not where the name alone tells. -/
def LoadStatus.isLogged : LoadStatus → Bool
  | .skipped .hidden | .skipped .notYaml => false
  | _ => true

structure LoadResult where
  path : FilePath
  status : LoadStatus

/-! ## the documents kept -/

/-- A root with the documents kept, in increasing order of their paths. -/
structure PolicyFolder where
  root : String
  documents : List (FilePath × Policy) := []

/-- A document at its place, instead of one under the same path. -/
def keepDocument (path : FilePath) (p : Policy) :
    List (FilePath × Policy) → List (FilePath × Policy)
  | [] => [(path, p)]
  | (other, q) :: rest =>
    if path < other then (path, p) :: (other, q) :: rest
    else if path = other then (path, p) :: rest
    else (other, q) :: keepDocument path p rest

namespace PolicyFolder

/-- Whether a document kept under another path has an identifier. -/
def isTakenBy (path : FilePath) (id : String) (d : FilePath × Policy) : Bool :=
  d.1 ≠ path && d.2.metadata.id == id

/-- Keep a document, unless it is disabled or its identifier is taken. -/
def keep (folder : PolicyFolder) (path : FilePath) (p : Policy) : LoadStatus × PolicyFolder :=
  if !p.metadata.enabled then (.skipped .disabled, folder)
  else
    match folder.documents.find? (isTakenBy path p.metadata.id) with
    | some d => (.failed (.duplicate p.metadata.id (pathText folder.root d.1)), folder)
    | none =>
      (.loaded p.metadata.id p.rules.length,
        { folder with documents := keepDocument path p folder.documents })

def parseFile : Option String → Except PolicyError Policy
  | none => .error (.file .notText)
  | some text => Policy.parse text

def load (folder : PolicyFolder) (path : FilePath) (text : Option String) :
    LoadStatus × PolicyFolder :=
  match parseFile text with
  | .error e => (.failed (.faulty e), folder)
  | .ok p => folder.keep path p

/-- Visit a file in a folder: by its name it is passed over or loaded. -/
def visit (folder : PolicyFolder) (path : FilePath) (text : Option String) :
    LoadStatus × PolicyFolder :=
  let name := path.getLast?.getD ""
  if isHiddenName name then (.skipped .hidden, folder)
  else if !isYamlName name then (.skipped .notYaml, folder)
  else folder.load path text

/-- Search the entries of a folder as they are given, the files of a folder before the entry behind it.
Gives the results of the files it comes upon and, at a folder that is barred, why it breaks off there;
what it has kept by then stays. -/
def scan (barred : FilePath → Option FileError) (folder : PolicyFolder) (above : FilePath) :
    List (String × FileTree) → (List LoadResult × Option FileError) × PolicyFolder
  | [] => (([], none), folder)
  | (name, .file text) :: rest =>
    let (status, folder) := folder.visit (above ++ [name]) text
    let ((later, broken), folder) := scan barred folder above rest
    ((⟨above ++ [name], status⟩ :: later, broken), folder)
  | (name, .folder entries) :: rest =>
    if isHiddenName name then scan barred folder above rest
    else
      match barred (above ++ [name]) with
      | some e => (([], some e), folder)
      | none =>
        match scan barred folder (above ++ [name]) entries with
        | ((first, some e), folder) => ((first, some e), folder)
        | ((first, none), folder) =>
          let ((later, broken), folder) := scan barred folder above rest
          ((first ++ later, broken), folder)

/-- What a call comes upon: what stands on the disk, and why the folder at a path from the root on
cannot be listed, if it cannot. -/
structure Call where
  disk : Disk
  barred : FilePath → Option FileError := fun _ => none

/-- What a call returns, what it logs of the files it reads, and the folder after it. -/
structure Performed where
  returned : Except FileError (List LoadResult)
  log : List LoadResult
  folder : PolicyFolder

/-- The end of a call that has come to these results: it returns them unless it broke off. -/
def Performed.ofResults (results : List LoadResult) (broken : Option FileError)
    (folder : PolicyFolder) : Performed where
  returned := match broken with
    | some e => .error e
    | none => .ok results
  log := results.filter (·.status.isLogged)
  folder := folder

/-- Load the root file, whatever its name, or search the root folder. -/
def perform (folder : PolicyFolder) (call : Call) : Performed :=
  match call.disk folder.root with
  | .error e => .ofResults [] (some e) folder
  | .ok (.file text) =>
    let (status, folder) := folder.load [] text
    .ofResults [⟨[], status⟩] none folder
  | .ok (.folder entries) =>
    match call.barred [] with
    | some e => .ofResults [] (some e) folder
    | none =>
      let ((results, broken), folder) :=
        folder.scan call.barred [] (FileTree.folder entries).sorted.entries
      .ofResults results broken folder

/-- Load what stands at the root, where every folder can be listed. -/
def loadAll (folder : PolicyFolder) (disk : Disk) :
    Except FileError (List LoadResult × PolicyFolder) :=
  let done := folder.perform { disk }
  done.returned.map fun results => (results, done.folder)

/-- The document of one file, without keeping it. -/
def loadFile (disk : Disk) (path : String) : Except PolicyError Policy :=
  match disk.text path with
  | .error e => .error (.file e)
  | .ok text => Policy.parse text

/-- The rules of all documents kept, in the order of their paths. -/
def policySet (folder : PolicyFolder) : PolicySet :=
  ⟨folder.documents.flatMap fun d => d.2.rules⟩

def resultPath (folder : PolicyFolder) (r : LoadResult) : String := pathText folder.root r.path

end PolicyFolder

end AccessFilter
