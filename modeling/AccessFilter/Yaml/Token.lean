/-!
# Tokens of YAML text

* `Yaml.ScalarStyle`  how a scalar is written;
* `Yaml.Token`        marks, properties and scalars; block collections get opening and closing
                      tokens from the indentation, and every key a token before it. Tags are
                      octets, which need not be a text.
-/

namespace AccessFilter.Yaml

inductive ScalarStyle where
  | plain
  | singleQuoted
  | doubleQuoted
  | literal
  | folded
deriving DecidableEq

inductive Token where
  | streamEnd
  | version (major minor : Nat)
  | tagHandle (handle : String) (expansion : List UInt8)
  | documentStart
  | documentEnd
  | blockSequence
  | blockMapping
  | blockEnd
  | openSequence
  | closeSequence
  | openMapping
  | closeMapping
  | blockEntry
  | flowEntry
  | key
  | value
  | alias (name : String)
  | anchor (name : String)
  | tag (handle : String) (suffix : List UInt8)
  | scalar (style : ScalarStyle) (text : String)
deriving DecidableEq

end AccessFilter.Yaml
