import SqlComposer.Proofs.Binding.Fragment
import SqlComposer.Proofs.Binding.Inline

namespace SqlComposer.Compose

open Sql

def openAfter (quoted : Bool) (c : Char) : Bool := if c = quoteMark then !quoted else quoted

def placeholders : (quoted : Bool) → List Char → Nat
  | _, [] => 0
  | quoted, c :: cs => (if c = '?' ∧ !quoted then 1 else 0) + placeholders (openAfter quoted c) cs

/-- The text with the values in the places of the question marks outside of quoted names. -/
def fill : (quoted : Bool) → List Char → List SqlValue → List Mark
  | _, [], _ => []
  | false, '?' :: cs, v :: values => .value v :: fill false cs values
  | quoted, c :: cs, values => .char c :: fill (openAfter quoted c) cs values

theorem fill_of_ne {c : Char} (other : c ≠ '?') (quoted : Bool) (cs : List Char) (values : List SqlValue) :
    fill quoted (c :: cs) values = .char c :: fill (openAfter quoted c) cs values := by
  cases quoted <;> simp [fill, other]

def Reads (text : List Char) (values : List SqlValue) (marks : List Mark) : Prop :=
  ∀ rest more, fill false (text ++ rest) (values ++ more) = marks ++ fill false rest more ∧
    placeholders false (text ++ rest) = values.length + placeholders false rest

namespace Reads

theorem nil : Reads [] [] [] := by simp [Reads]

theorem append {text text' : List Char} {values values' : List SqlValue} {marks marks' : List Mark}
    (first : Reads text values marks) (second : Reads text' values' marks') :
    Reads (text ++ text') (values ++ values') (marks ++ marks') := by
  intro rest more
  obtain ⟨filled, counted⟩ := first (text' ++ rest) (values' ++ more)
  obtain ⟨filled', counted'⟩ := second rest more
  simp only [List.append_assoc, filled, filled', counted, counted', List.length_append, true_and]
  omega

theorem placeholder (v : SqlValue) : Reads ['?'] [v] [.value v] := by
  intro rest more
  simp [fill, placeholders, openAfter, quoteMark]

theorem plainChar {c : Char} (plain : c ≠ '?' ∧ c ≠ quoteMark) : Reads [c] [] [.char c] := by
  intro rest more
  simp [fill_of_ne plain.1, placeholders, openAfter, plain]

theorem plain {text : List Char} (plain : ∀ c ∈ text, c ≠ '?' ∧ c ≠ quoteMark) :
    Reads text [] (text.map .char) := by
  induction text with
  | nil => exact nil
  | cons c cs ih =>
    exact (plainChar (plain c List.mem_cons_self)).append
      (ih fun d member => plain d (List.mem_cons_of_mem c member))

theorem fill_doubled (name rest : List Char) (values : List SqlValue) :
    fill true (doubled name ++ rest) values = (doubled name).map .char ++ fill true rest values ∧
      placeholders true (doubled name ++ rest) = placeholders true rest := by
  have mark : quoteMark ≠ '?' := by decide
  induction name with
  | nil => simp
  | cons c cs ih =>
    obtain ⟨filled, counted⟩ := ih
    unfold doubled at filled counted ⊢
    by_cases same : c = quoteMark
    · simp [same, fill_of_ne mark, placeholders, openAfter, mark, filled, counted]
    · simp [same, fill, placeholders, openAfter, filled, counted]

theorem quoted (name : String) : Reads (quote name).toList [] ((quote name).toList.map .char) := by
  intro rest more
  obtain ⟨filled, counted⟩ := fill_doubled name.toList (quoteMark :: rest) more
  have mark : quoteMark ≠ '?' := by decide
  simp [toList_quote, fill_of_ne mark, placeholders, openAfter, mark, filled, counted]

end Reads

theorem argument_eq_resolve (bound : Argument) :
    Inline.argument bound = (Registry.mysql.resolve bound).map fun v => [.value v] := by
  unfold Inline.argument Registry.resolve
  cases bound.outcome <;> rfl

theorem reads_write {statement next : Statement} {piece : Piece} {marks : List Mark}
    (plain : Pieces.ArePlain [piece]) (reads : Reads statement.text.toList statement.values marks)
    (written : statement.write .mysql piece = .ok next) :
    next.operation = statement.operation ∧ ∃ more, Inline.ofPiece statement.operation piece = .ok more ∧
      Reads next.text.toList next.values (marks ++ more) := by
  cases piece with
  | text words =>
    obtain rfl : statement.append words = next := Except.ok.inj written
    refine ⟨rfl, _, rfl, ?_⟩
    simpa [Statement.append] using reads.append (Reads.plain (plain words (by simp)))
  | identifier name =>
    obtain rfl : statement.append (quote name) = next := Except.ok.inj written
    refine ⟨rfl, _, rfl, ?_⟩
    simpa [Statement.append] using reads.append (Reads.quoted name)
  | argument bound =>
    cases resolved : Registry.mysql.resolve bound with
    | error error => simp [Statement.write, resolved, Except.map] at written
    | ok v =>
      obtain rfl : statement.bind v = next := by simpa [Statement.write, resolved, Except.map] using written
      refine ⟨rfl, [.value v], ?_, ?_⟩
      · rw [Inline.ofPiece, argument_eq_resolve, resolved]
        rfl
      · simpa [Statement.bind, placeholder] using reads.append (Reads.placeholder v)
  | fault fault => contradiction

theorem ofPiece_of_write_error {statement : Statement} {piece : Piece} {error : BuildError}
    (failed : statement.write .mysql piece = .error error) :
    Inline.ofPiece statement.operation piece = .error error := by
  cases piece with
  | text words | identifier name => contradiction
  | argument bound =>
    rw [Inline.ofPiece, argument_eq_resolve]
    cases resolved : Registry.mysql.resolve bound <;> simp_all [Statement.write, Except.map]
  | fault fault => exact congrArg Except.error (Except.error.inj failed)

theorem reads_writeAll (statement : Statement) {pieces : Pieces} {marks : List Mark}
    (plain : Pieces.ArePlain pieces) (reads : Reads statement.text.toList statement.values marks) :
    ∃ more, Reads (statement.writeAll .mysql pieces).1.text.toList
        (statement.writeAll .mysql pieces).1.values (marks ++ more) ∧
      Inline.ofPieces statement.operation pieces =
        match (statement.writeAll .mysql pieces).2 with
        | none => .ok more
        | some error => .error error := by
  induction pieces generalizing statement marks with
  | nil => exact ⟨[], by simpa using reads, rfl⟩
  | cons piece pieces ih =>
    have plainHead : Pieces.ArePlain [piece] := fun text member => plain text (by simp_all)
    have plainTail : Pieces.ArePlain pieces := fun text member => plain text (List.mem_cons_of_mem piece member)
    cases written : statement.write .mysql piece with
    | error error =>
      refine ⟨[], by simpa [Statement.writeAll, written] using reads, ?_⟩
      simp [Statement.writeAll, written, Inline.ofPieces, ofPiece_of_write_error written]
      rfl
    | ok next =>
      obtain ⟨sameOperation, head, inline, readsNext⟩ := reads_write plainHead reads written
      obtain ⟨rest, readsRest, inlineRest⟩ := ih next plainTail readsNext
      refine ⟨head ++ rest, by simpa [Statement.writeAll, written] using readsRest, ?_⟩
      rw [sameOperation] at inlineRest
      simp only [Inline.ofPieces, Statement.writeAll, written, inline, inlineRest]
      cases (next.writeAll .mysql pieces).2 <;> rfl

structure BoundInPlace (built : Except BuildError (String × List SqlValue)) (written : Statement)
    (direct : Inline) : Prop where
  filled : built.map (fun (text, values) => fill false text.toList values) = direct
  counted : ∀ text values, built = .ok (text, values) → placeholders false text.toList = values.length
  countedSoFar : placeholders false written.text.toList = written.values.length

theorem boundInPlace {operation : String} {pieces : Pieces} (plain : Pieces.ArePlain pieces) :
    BoundInPlace (Statement.compose .mysql operation pieces)
      (Statement.writeAll .mysql { operation } pieces).1 (Inline.ofPieces operation pieces) := by
  obtain ⟨marks, reads, inline⟩ := reads_writeAll { operation } plain Reads.nil
  obtain ⟨filled, counted⟩ := reads [] []
  simp only [List.append_nil, List.nil_append, fill, placeholders, Nat.add_zero] at filled counted
  unfold Statement.compose
  generalize Statement.writeAll .mysql { operation } pieces = run at filled counted inline
  obtain ⟨written, _ | error⟩ := run
  · refine ⟨?_, ?_, counted⟩
    · simpa [Except.map, filled] using inline.symm
    · rintro _ _ ⟨⟩
      exact counted
  · exact ⟨inline.symm, fun _ _ built => (nomatch built), counted⟩

/-- Every command and every expression by itself has its values where the placeholders are, as long as its
fragments hold neither placeholders nor quote marks. Names may hold both. -/
theorem values_take_their_places :
    (∀ command : Command, command.IsPlain →
      BoundInPlace (command.build .mysql)
        (Statement.writeAll .mysql { operation := command.operation } (command.pieces .mysql)).1
        (Inline.command command)) ∧
    ∀ expr : Expr, expr.IsPlain →
      BoundInPlace (buildExpr .mysql expr)
        (Statement.writeAll .mysql { operation := "expr" } (Registry.mysql.pieces expr)).1
        (Inline.expr "expr" expr) := by
  constructor
  · intro command plain
    rw [← Inline.ofPieces_command]
    exact boundInPlace (arePlain_command plain)
  · intro expr plain
    rw [← Inline.ofPieces_pieces]
    exact boundInPlace (arePlain_pieces plain)

def awkward : Select where
  table := "what?"
  projections := [.ofNode (.subquery
    { table := "`?", projections := [.aggregate .count (.column "*")]
      condition := some (.comparison .equal (.column "a`?b") (.value (.i64 1))) })]
  condition := allOf [some (.comparison .memberOf (.column "tags") (.value (.bool true))),
    some (.call "f" [.argument (.deferred (.ok (.string "?")))])]

theorem awkward_values_take_their_places :
    (Command.find awkward).IsPlain ∧
    (Command.find awkward).build .mysql = .ok
      ("SELECT (SELECT COUNT(*) FROM ```?` WHERE `a``?b` = ?) FROM `what?` WHERE (? MEMBER OF(`tags`) AND f(?))",
        [.i64 1, .i64 1, .string "?"]) ∧
    BoundInPlace ((Command.find awkward).build .mysql)
      (Statement.writeAll .mysql { operation := "find" } ((Command.find awkward).pieces .mysql)).1
      (Inline.command (.find awkward)) := by
  have plain : (Command.find awkward).IsPlain := by
    unfold Command.IsPlain
    decide
  exact ⟨plain, rfl, values_take_their_places.1 _ plain⟩

end SqlComposer.Compose
