/-!
# ASCII letters in lower case

`Text.asciiLower` changes the letters A to Z and nothing else.
-/

namespace AccessFilter.Text

def asciiLower (s : String) : String := String.ofList (s.toList.map Char.toLower)

end AccessFilter.Text
