import SqlComposer.Text.Ascii

namespace SqlComposer.Naming

def startsWord (before after : Option Char) : Bool :=
  match before with
  | none => false
  | some b => b.isLower || b.isDigit || b.isUpper && after.any Char.isLower

def separatedFrom (separator : Char) (before : Option Char) : List Char → List Char
  | [] => []
  | c :: cs =>
    (if c.isUpper && startsWord before cs.head? then [separator, c.toLower] else [c.toLower]) ++
      separatedFrom separator (some c) cs

def separated (separator : Char) (name : String) : String := .ofList (separatedFrom separator none name.toList)

def snake : String → String := separated '_'

def kebab : String → String := separated '-'

def upper : String → String := Text.upperAscii

def prefixed (head name : String) : String := head ++ name

def suffixed (tail name : String) : String := name ++ tail

end SqlComposer.Naming
