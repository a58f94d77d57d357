import AccessFilter.Files.Tree
import AccessFilter.Yaml.Decode

/-!
# Faults of a file that holds YAML

A file may be unreadable, may hold no text of the expected form, or may hold something that is
refused; what may be refused depends on what the file is for.

* `LoadError`          the three kinds of faults;
* `LoadError.message`  the wording.
-/

namespace AccessFilter

/-- What is wrong with a file whose content may be refused for a `Fault`. -/
inductive LoadError (Fault : Type) where
  | file (cause : FileError)
  | yaml (cause : Yaml.Fault)
  | refused (fault : Fault)

namespace LoadError

def fileMessage (cause : FileError) : String := "IO error: " ++ cause.message

/-- The wording of a text that is not of the expected form. -/
def yamlMessage (cause : Yaml.Fault) : String :=
  match cause.message? with
  | some text => "YAML parse error: " ++ text
  | none => "YAML parse error"

def refusedMessage (text : String) : String := "Validation error: " ++ text

/-- The wording, given that of a refusal. -/
def message {Fault : Type} (text : Fault → String) : LoadError Fault → String
  | .file cause => fileMessage cause
  | .yaml cause => yamlMessage cause
  | .refused fault => refusedMessage (text fault)

end LoadError

end AccessFilter
