import SqlComposer.Text.Blank
import SqlComposer.Text.LowerCase
import SqlComposer.Text.Split

namespace SqlComposer

/-- A tag. Its options are kept with the latest first, so that a later option hides an earlier one of the same
key. -/
structure Tag where
  name : String
  options : List (String × String)
deriving DecidableEq, Repr

namespace Tag

open Text

def option? (segment : List Char) : Option (String × String) :=
  let body := trimmed segment
  if body.isEmpty then none
  else match halves? '=' body with
    | some (key, value) => some (lower (.ofList (trimmed key)), .ofList (trimmed value))
    | none => some (lower (.ofList body), "")

def ofSegments : List (List Char) → Tag
  | [] => ⟨"", []⟩
  | name :: segments => ⟨.ofList (trimmed name), (segments.filterMap option?).reverse⟩

def parse (raw : String) : Tag := ofSegments (parts ',' raw.toList)

def lookUp? (tag : Tag) (key : String) : Option String := tag.options.lookup key

def has (tag : Tag) (key : String) : Bool := (tag.lookUp? key).isSome

@[simp] theorem parse_empty : parse "" = ⟨"", []⟩ := by decide

end Tag

end SqlComposer
