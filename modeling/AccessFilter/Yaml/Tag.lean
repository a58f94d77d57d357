/-!
# Tags

A tag is a sequence of octets, which need not be a text. The tags of the format ask for a kind of
scalar; those that start with an exclamation mark are the document's own.

* `Yaml.Tag`            what the tag of a node asks for;
* `Yaml.octetsOf`       the octets of a text;
* `Yaml.Tag.ofOctets`   what a tag with these octets asks for.
-/

namespace AccessFilter.Yaml

/-- What the tag of a node asks for: a kind of scalar, a meaning of the document's own, or nothing.
The octets of a tag of the document's own may be no text. -/
inductive Tag where
  | null
  | bool
  | int
  | float
  | own
  | unreadable
  | other
deriving DecidableEq

def octetsOf (s : String) : List UInt8 := s.toUTF8.data.toList

/-- Whether octets are those of some text. -/
def areText (octets : List UInt8) : Bool := (String.fromUTF8? ⟨octets.toArray⟩).isSome

/-- What the tags of the format start with. -/
def coreTags : String := "tag:yaml.org,2002:"

/-- What a tag with these octets asks for. -/
def Tag.ofOctets (octets : List UInt8) : Tag :=
  if octets = octetsOf (coreTags ++ "null") then .null
  else if octets = octetsOf (coreTags ++ "bool") then .bool
  else if octets = octetsOf (coreTags ++ "int") then .int
  else if octets = octetsOf (coreTags ++ "float") then .float
  else if octets.head? == some 0x21 then if areText octets then .own else .unreadable
  else .other

end AccessFilter.Yaml
