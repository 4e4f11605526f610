import SqlComposer.Decimal.Reading
import SqlComposer.Json
import SqlComposer.Text.Digits

namespace SqlComposer.Json

def significant (value : Nat) : List Char → Nat × List Char
  | [] => (value, [])
  | c :: digits =>
    let next := 10 * value + (c.toNat - 48)
    if next < UInt64.size then significant next digits else (value, c :: digits)

def ofNumeral (negative : Bool) (whole : List Char) (fraction? : Option (List Char)) (exponent? : Option Int) :
    Option Json :=
  let (significand, places) := significant 0 whole
  let isWhole := places.isEmpty && fraction?.isNone && exponent?.isNone
  if isWhole && !negative then some (.int significand)
  else if isWhole && 0 < significand && significand ≤ Nat.pow 2 63 then some (.int (-significand))
  else
    let fraction := fraction?.getD []
    let (significand, dropped) := significant significand fraction
    let exponent := (places.length : Int) - (fraction.length - dropped.length) + exponent?.getD 0
    (Decimal.read? significand exponent).map fun x => .float (if negative then x.negated else x)

def splitDigits (cs : List Char) : List Char × List Char := (cs.takeWhile Char.isDigit, cs.dropWhile Char.isDigit)

def readFraction : List Char → Option (List Char) × List Char
  | '.' :: cs => let (digits, rest) := splitDigits cs; (some digits, rest)
  | cs => (none, cs)

def readExponent : List Char → Option Int × List Char
  | c :: cs =>
    if c = 'e' ∨ c = 'E' then
      let (negative, cs) : Bool × List Char := match cs with
        | '-' :: cs => (true, cs)
        | '+' :: cs => (false, cs)
        | cs => (false, cs)
      let (digits, rest) := splitDigits cs
      let value : Int := Text.decimalValue digits
      (some (if negative then -value else value), rest)
    else (none, c :: cs)
  | [] => (none, [])

def readNumber (cs : List Char) : Option (Json × List Char) :=
  let (negative, cs) : Bool × List Char := match cs with
    | '-' :: cs => (true, cs)
    | cs => (false, cs)
  let (whole, cs) := splitDigits cs
  let (fraction?, cs) := readFraction cs
  let (exponent?, cs) := readExponent cs
  if whole.isEmpty then none else (ofNumeral negative whole fraction? exponent?).map (·, cs)

def hexValue? (cs : List Char) : Option Nat :=
  cs.foldlM (fun value c =>
    if c.isDigit then some (16 * value + (c.toNat - 48))
    else if 'a' ≤ c ∧ c ≤ 'f' then some (16 * value + (c.toNat - 87))
    else if 'A' ≤ c ∧ c ≤ 'F' then some (16 * value + (c.toNat - 55))
    else none) 0

def escapeMeaning : Char → Char
  | 'b' => '\x08'
  | 'f' => '\x0c'
  | 'n' => '\n'
  | 'r' => '\r'
  | 't' => '\t'
  | c => c

/-- Reads up to the closing quote. Characters beyond the first plane are escaped in two halves, of which `high`
is the first. -/
def readString (high : Option Nat) (done : List Char) : List Char → Option (String × List Char)
  | '"' :: cs => some (.ofList done.reverse, cs)
  | '\\' :: 'u' :: a :: b :: c :: d :: cs => match hexValue? [a, b, c, d], high with
    | none, _ => none
    | some unit, some first =>
      readString none (Char.ofNat (0x10000 + (first - 0xD800) * 0x400 + (unit - 0xDC00)) :: done) cs
    | some unit, none =>
      if 0xD800 ≤ unit ∧ unit < 0xDC00 then readString (some unit) done cs
      else readString none (Char.ofNat unit :: done) cs
  | '\\' :: c :: cs => readString none (escapeMeaning c :: done) cs
  | c :: cs => readString none (c :: done) cs
  | [] => none

def skipBlanks (cs : List Char) : List Char :=
  cs.dropWhile fun c => c == ' ' || c == '\n' || c == '\r' || c == '\t'

mutual

def readValue : (bound : Nat) → List Char → Option (Json × List Char)
  | 0, _ => none
  | bound + 1, cs => match skipBlanks cs with
    | 'n' :: 'u' :: 'l' :: 'l' :: cs => some (.null, cs)
    | 't' :: 'r' :: 'u' :: 'e' :: cs => some (.bool true, cs)
    | 'f' :: 'a' :: 'l' :: 's' :: 'e' :: cs => some (.bool false, cs)
    | '"' :: cs => (readString none [] cs).map fun (text, cs) => (.string text, cs)
    | '[' :: cs => match skipBlanks cs with
      | ']' :: cs => some (.array [], cs)
      | cs => (readItems bound cs).map fun (items, cs) => (.array items, cs)
    | '\x7b' :: cs => match skipBlanks cs with
      | '\x7d' :: cs => some (.object [], cs)
      | cs => (readEntries bound cs).map fun (entries, cs) => (.ofEntries entries, cs)
    | cs => readNumber cs

def readItems : (bound : Nat) → List Char → Option (List Json × List Char)
  | 0, _ => none
  | bound + 1, cs => match readValue bound cs with
    | none => none
    | some (item, cs) => match skipBlanks cs with
      | ',' :: cs => (readItems bound cs).map fun (items, cs) => (item :: items, cs)
      | ']' :: cs => some ([item], cs)
      | _ => none

def readEntries : (bound : Nat) → List Char → Option (List (String × Json) × List Char)
  | 0, _ => none
  | bound + 1, cs => match skipBlanks cs with
    | '"' :: cs => match readString none [] cs with
      | none => none
      | some (key, cs) => match skipBlanks cs with
        | ':' :: cs => match readValue bound cs with
          | none => none
          | some (value, cs) => match skipBlanks cs with
            | ',' :: cs => (readEntries bound cs).map fun (entries, cs) => ((key, value) :: entries, cs)
            | '\x7d' :: cs => some ([(key, value)], cs)
            | _ => none
        | _ => none
    | _ => none

end

def parse? (text : String) : Option Json :=
  let cs := text.toList
  match readValue (cs.length + 1) cs with
  | some (document, rest) => if (skipBlanks rest).isEmpty then some document else none
  | none => none

end SqlComposer.Json
