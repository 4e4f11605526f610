import SqlComposer.Decimal.Shortest
import SqlComposer.Json
import SqlComposer.Text.Digits
import SqlComposer.Text.Joined

namespace SqlComposer.Json

open Text (joined)

def positional (digits : List Char) (point : Int) : List Char :=
  if point ≤ 0 then '0' :: '.' :: (List.replicate (-point).toNat '0' ++ digits)
  else if digits.length ≤ point.toNat then
    digits ++ List.replicate (point.toNat - digits.length) '0' ++ ['.', '0']
  else digits.take point.toNat ++ '.' :: digits.drop point.toNat

def scientific (digits : List Char) (exponent : Int) : List Char :=
  digits.take 1 ++ (if digits.length ≤ 1 then [] else '.' :: digits.drop 1) ++
    'e' :: (if exponent < 0 then '-' else '+') :: exponent.natAbs.repr.toList

def floatText (x : Binary64) : String :=
  let (number, exponent) := Decimal.shortest x
  let digits := number.repr.toList
  let point := (digits.length : Int) + exponent
  .ofList ((if x.isNegative then ['-'] else []) ++
    (if -5 < point ∧ point ≤ 16 then positional digits point else scientific digits (point - 1)))

def escaped (c : Char) : List Char :=
  if c = '"' then ['\\', '"']
  else if c = '\\' then ['\\', '\\']
  else if c = '\x08' then ['\\', 'b']
  else if c = '\x0c' then ['\\', 'f']
  else if c = '\n' then ['\\', 'n']
  else if c = '\r' then ['\\', 'r']
  else if c = '\t' then ['\\', 't']
  else if c.toNat < 0x20 then ['\\', 'u', '0', '0'] ++ Text.hexDigits 2 c.toNat
  else [c]

def stringText (text : String) : String := .ofList ('"' :: text.toList.flatMap escaped ++ ['"'])

mutual

def compact : Json → String
  | .null => "null"
  | .bool b => if b then "true" else "false"
  | .int n => toString n
  | .float x => floatText x
  | .string text => stringText text
  | .array items => "[" ++ joined "," (compactItems items) ++ "]"
  | .object entries => "\x7b" ++ joined "," (compactEntries entries) ++ "\x7d"

def compactItems : List Json → List String
  | [] => []
  | item :: items => compact item :: compactItems items

def compactEntries : List (String × Json) → List String
  | [] => []
  | entry :: entries => compactEntry entry :: compactEntries entries

def compactEntry : String × Json → String
  | (key, value) => stringText key ++ ":" ++ compact value

end

end SqlComposer.Json
