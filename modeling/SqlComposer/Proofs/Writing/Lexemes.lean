import SqlComposer.Proofs.Binding.Secrecy
/-!
A text cut into quoted names and other characters.

Pieces are read back from their text if the words between names hold no quote mark and no two names touch, since a quote
mark right behind a name would belong to it: `lexemes_shown`.
-/

namespace SqlComposer.Compose

open Sql

inductive Lexeme
  | char (c : Char)
  | name (name : String)
  | unclosed (name : String)
deriving DecidableEq

inductive Reader
  | outside
  | inside (seen : List Char)
  | behind (seen : List Char)

def Reader.lexemes : Reader → List Char → List Lexeme
  | .outside, [] => []
  | .inside seen, [] => [.unclosed (.ofList seen)]
  | .behind seen, [] => [.name (.ofList seen)]
  | .outside, c :: cs => if c = quoteMark then lexemes (.inside []) cs else .char c :: lexemes .outside cs
  | .inside seen, c :: cs =>
    if c = quoteMark then lexemes (.behind seen) cs else lexemes (.inside (seen ++ [c])) cs
  | .behind seen, c :: cs =>
    if c = quoteMark then lexemes (.inside (seen ++ [c])) cs
    else .name (.ofList seen) :: .char c :: lexemes .outside cs

def lexemes (text : String) : List Lexeme := Reader.outside.lexemes text.toList

def Lexeme.rename (f : String → String) : Lexeme → Lexeme
  | .name given => .name (f given)
  | other => other

def Unmarked (text : String) : Prop := quoteMark ∉ text.toList

instance (text : String) : Decidable (Unmarked text) := inferInstanceAs (Decidable (¬ _))

@[simp] theorem unmarked_append {a b : String} : Unmarked (a ++ b) ↔ Unmarked a ∧ Unmarked b := by
  simp [Unmarked, String.toList_append]

theorem lexemes_word {word : List Char} (unmarked : quoteMark ∉ word) (rest : List Char) :
    Reader.outside.lexemes (word ++ rest) = word.map .char ++ Reader.outside.lexemes rest := by
  induction word with
  | nil => rfl
  | cons c word ih =>
    rw [List.mem_cons, not_or] at unmarked
    rw [List.cons_append, Reader.lexemes, if_neg (Ne.symm unmarked.1), ih unmarked.2]
    rfl

theorem lexemes_behind_word {word : List Char} (unmarked : quoteMark ∉ word) (proper : word ≠ [])
    (seen rest : List Char) :
    (Reader.behind seen).lexemes (word ++ rest) =
      .name (.ofList seen) :: (word.map .char ++ Reader.outside.lexemes rest) := by
  obtain ⟨c, more, rfl⟩ := List.exists_cons_of_ne_nil proper
  rw [List.mem_cons, not_or] at unmarked
  rw [List.cons_append, Reader.lexemes, if_neg (Ne.symm unmarked.1), lexemes_word unmarked.2]
  rfl

theorem lexemes_doubled (seen name rest : List Char) :
    (Reader.inside seen).lexemes (doubled name ++ quoteMark :: rest) =
      (Reader.behind (seen ++ name)).lexemes rest := by
  induction name generalizing seen with
  | nil => simp [Reader.lexemes]
  | cons c name ih =>
    have rest := ih (seen ++ [c])
    by_cases same : c = quoteMark
    · subst same
      simpa [doubled, Reader.lexemes] using rest
    · simpa [doubled, Reader.lexemes, same] using rest

theorem lexemes_quote (name : String) (rest : List Char) :
    Reader.outside.lexemes ((quote name).toList ++ rest) = (Reader.behind name.toList).lexemes rest := by
  have whole := lexemes_doubled [] name.toList rest
  simpa [toList_quote, Reader.lexemes] using whole

/-- The words hold no quote mark, and no two names touch. The flag says that a name stands right before the pieces. -/
def Pieces.Apart : (touching : Bool) → Pieces → Prop
  | _, [] => True
  | touching, .text words :: pieces => Unmarked words ∧ Apart (touching && decide (words = "")) pieces
  | touching, .identifier _ :: pieces => touching = false ∧ Apart true pieces
  | _, .argument _ :: pieces => Apart false pieces
  | touching, .fault _ :: pieces => Apart touching pieces

def Piece.lexemes : Piece → List Lexeme
  | .text words => words.toList.map .char
  | .identifier name => [.name name]
  | .argument _ => placeholder.toList.map .char
  | .fault _ => []

def Pieces.lexemes (pieces : Pieces) : List Lexeme := pieces.flatMap Piece.lexemes

theorem Pieces.toList_shown (piece : Piece) (pieces : Pieces) :
    (Pieces.shown (piece :: pieces)).toList = piece.shown.toList ++ pieces.shown.toList := String.toList_append

theorem lexemes_pieces (pieces : Pieces) :
    (pieces.Apart false → Reader.outside.lexemes pieces.shown.toList = pieces.lexemes) ∧
      (pieces.Apart true → ∀ seen, (Reader.behind seen).lexemes pieces.shown.toList =
        .name (.ofList seen) :: pieces.lexemes) := by
  induction pieces with
  | nil => exact ⟨fun _ => rfl, fun _ _ => rfl⟩
  | cons piece pieces ih =>
    obtain ⟨outside, behind⟩ := ih
    rw [Pieces.toList_shown]
    cases piece with
    | text words =>
      constructor
      · rintro ⟨unmarked, apart⟩
        exact (lexemes_word unmarked _).trans (congrArg _ (outside apart))
      · rintro ⟨unmarked, apart⟩ seen
        by_cases empty : words = ""
        · -- The reader goes on behind the name as if the word were not there.
          subst empty
          exact behind apart seen
        · have proper : words.toList ≠ [] := by simpa using empty
          have apart : Pieces.Apart false pieces := by simpa [empty] using apart
          rw [Piece.shown, lexemes_behind_word unmarked proper, outside apart]
          rfl
    | identifier name =>
      constructor
      · rintro ⟨_, apart⟩
        rw [Piece.shown, lexemes_quote, behind apart, String.ofList_toList]
        rfl
      · rintro ⟨contrary, _⟩
        cases contrary
    | argument bound =>
      have unmarked : quoteMark ∉ placeholder.toList := by decide
      have proper : placeholder.toList ≠ [] := by decide
      constructor
      · intro apart
        exact (lexemes_word unmarked _).trans (congrArg _ (outside apart))
      · intro apart seen
        rw [Piece.shown, lexemes_behind_word unmarked proper, outside apart]
        rfl
    | fault reason => exact ⟨outside, behind⟩

theorem lexemes_shown {pieces : Pieces} (apart : pieces.Apart false) : lexemes pieces.shown = pieces.lexemes :=
  (lexemes_pieces pieces).1 apart

end SqlComposer.Compose
