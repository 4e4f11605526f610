
namespace SqlComposer.Text

def parts (sep : Char) : List Char → List (List Char)
  | [] => [[]]
  | c :: cs =>
    if c = sep then [] :: parts sep cs
    else match parts sep cs with
      | [] => [[c]]
      | part :: rest => (c :: part) :: rest

def halves? (sep : Char) : List Char → Option (List Char × List Char)
  | [] => none
  | c :: cs => if c = sep then some ([], cs) else (halves? sep cs).map fun (a, b) => (c :: a, b)

theorem parts_ne_nil (sep : Char) (cs : List Char) : parts sep cs ≠ [] := by
  cases cs with
  | nil => simp [parts]
  | cons c cs =>
    rw [parts]
    split
    · simp
    · split <;> simp

theorem parts_eq_singleton {sep : Char} {cs : List Char} (h : sep ∉ cs) : parts sep cs = [cs] := by
  induction cs with
  | nil => rfl
  | cons c cs ih =>
    simp only [List.mem_cons, not_or] at h
    simp [parts, Ne.symm h.1, ih h.2]

theorem parts_append {sep : Char} {a : List Char} (h : sep ∉ a) (b : List Char) :
    parts sep (a ++ sep :: b) = a :: parts sep b := by
  induction a with
  | nil => simp [parts]
  | cons c a ih =>
    simp only [List.mem_cons, not_or] at h
    simp [parts, Ne.symm h.1, ih h.2]

theorem halves?_eq_none {sep : Char} {cs : List Char} (h : sep ∉ cs) : halves? sep cs = none := by
  induction cs with
  | nil => rfl
  | cons c cs ih =>
    simp only [List.mem_cons, not_or] at h
    simp [halves?, Ne.symm h.1, ih h.2]

theorem halves?_append {sep : Char} {a : List Char} (h : sep ∉ a) (b : List Char) :
    halves? sep (a ++ sep :: b) = some (a, b) := by
  induction a with
  | nil => simp [halves?]
  | cons c a ih =>
    simp only [List.mem_cons, not_or] at h
    simp [halves?, Ne.symm h.1, ih h.2]

end SqlComposer.Text
