import SqlComposer.Text.CaseTable
/-!
Lower-casing by the full Unicode rules. A character maps to one character, with two exceptions: the dotted
capital I keeps its dot as a combining mark, and a capital sigma that ends a word takes its final form.
-/

namespace SqlComposer.Text

def inRanges (ranges : List (Nat × Nat)) (c : Char) : Bool :=
  ranges.any fun (first, last) => first ≤ c.toNat && c.toNat ≤ last

def lowerImage : List (Nat × Nat × Nat × Nat) → Nat → Option Nat
  | [], _ => none
  | (first, last, step, image) :: runs, n =>
    if first ≤ n && n ≤ last && (n - first) % step == 0 then some (image + (n - first))
    else lowerImage runs n

def lowerChar (c : Char) : List Char :=
  if c.toNat < 0x80 then [c.toLower]
  else if c = 'İ' then ['i', '\u0307']
  else match lowerImage lowerRuns c.toNat with
    | some n => [Char.ofNat n]
    | none => [c]

def startsCased (cs : List Char) : Bool :=
  match cs.dropWhile (inRanges caseIgnorable) with
  | [] => false
  | c :: _ => inRanges cased c

def sigmaForm (before after : List Char) : Char :=
  if startsCased before && !startsCased after then 'ς' else 'σ'

/-- Lower-cases `cs`, given the characters before it in reverse order. -/
def lowerFrom : List Char → List Char → List Char
  | _, [] => []
  | before, c :: cs =>
    (if c = 'Σ' then [sigmaForm before cs] else lowerChar c) ++ lowerFrom (c :: before) cs

def lower (text : String) : String := .ofList (lowerFrom [] text.toList)

end SqlComposer.Text
