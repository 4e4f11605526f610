import Mathlib.Logic.Function.Basic
import SqlComposer.Sql.Identifier
/-!
Tables are read back from their quoted names, whatever the names are.

A quoted name ends at its first quote mark that is not doubled, so the reader has to look one character ahead. It reads
exactly what is written and nothing else, in front of every text that does not go on with the name:
`readTable?_eq_some_iff`. Hence no two tables are written alike.
-/

namespace SqlComposer.Sql

def readUntilMark? : List Char → Option (List Char × List Char)
  | [] => none
  | [c] => if c = quoteMark then some ([], []) else none
  | c :: d :: cs =>
    if c = quoteMark then
      if d = quoteMark then (readUntilMark? cs).map (Prod.map (quoteMark :: ·) id) else some ([], d :: cs)
    else (readUntilMark? (d :: cs)).map (Prod.map (c :: ·) id)

def readName? : List Char → Option (String × List Char)
  | [] => none
  | c :: cs => if c = quoteMark then (readUntilMark? cs).map (Prod.map String.ofList id) else none

variable {text rest : List Char}

theorem readUntilMark?_closing (apart : rest.head? ≠ some quoteMark) :
    readUntilMark? (quoteMark :: rest) = some ([], rest) := by
  cases rest with
  | nil => rfl
  | cons c rest =>
    have other : c ≠ quoteMark := by simpa using apart
    simp [readUntilMark?, other]

theorem readUntilMark?_doubled (text : List Char) :
    readUntilMark? (quoteMark :: quoteMark :: text) = (readUntilMark? text).map (Prod.map (quoteMark :: ·) id) := by
  simp [readUntilMark?]

theorem readUntilMark?_plain {c : Char} (plain : c ≠ quoteMark) (text : List Char) :
    readUntilMark? (c :: text) = (readUntilMark? text).map (Prod.map (c :: ·) id) := by
  cases text <;> simp [readUntilMark?, plain]

theorem readUntilMark?_written (apart : rest.head? ≠ some quoteMark) (name : List Char) :
    readUntilMark? (doubled name ++ quoteMark :: rest) = some (name, rest) := by
  induction name with
  | nil => exact readUntilMark?_closing apart
  | cons c name ih =>
    by_cases mark : c = quoteMark
    · subst mark
      rw [doubled_mark, List.cons_append, List.cons_append, readUntilMark?_doubled, ih]
      rfl
    · rw [doubled_plain mark, List.cons_append, readUntilMark?_plain mark, ih]
      rfl

theorem written_of_readUntilMark? {name : List Char} (read : readUntilMark? text = some (name, rest)) :
    text = doubled name ++ quoteMark :: rest ∧ rest.head? ≠ some quoteMark := by
  fun_induction readUntilMark? text generalizing name rest with
  | case1 => cases read
  | case2 =>
    cases read
    exact ⟨rfl, nofun⟩
  | case3 => cases read
  | case4 cs ih =>
    obtain ⟨⟨name, rest⟩, inner, same⟩ := Option.map_eq_some_iff.mp read
    cases same
    obtain ⟨rfl, apart⟩ := ih inner
    exact ⟨by simp [doubled_mark], apart⟩
  | case5 d cs other =>
    cases read
    exact ⟨rfl, by simpa using other⟩
  | case6 c d cs plain ih =>
    obtain ⟨⟨name, rest⟩, inner, same⟩ := Option.map_eq_some_iff.mp read
    cases same
    obtain ⟨written, apart⟩ := ih inner
    exact ⟨by simp [doubled_plain plain, written], apart⟩

theorem readName?_eq_some_iff {name : String} :
    readName? text = some (name, rest) ↔ text = (quote name).toList ++ rest ∧ rest.head? ≠ some quoteMark := by
  constructor
  · intro read
    unfold readName? at read
    split at read
    · cases read
    · next c cs =>
      split at read
      · next mark =>
        obtain ⟨⟨name, rest⟩, inner, same⟩ := Option.map_eq_some_iff.mp read
        cases same
        obtain ⟨rfl, apart⟩ := written_of_readUntilMark? inner
        exact ⟨by simp [toList_quote, mark], apart⟩
      · cases read
  · rintro ⟨written, apart⟩
    -- The text is rewritten and not substituted, which would work out the bytes of the quoted name.
    rw [written, toList_quote, List.append_assoc, List.cons_append, List.singleton_append, readName?, if_pos rfl,
      readUntilMark?_written apart]
    simp

inductive TableName
  | bare (table : String)
  | qualified (database table : String)
deriving DecidableEq, Repr

namespace TableName

def ofDatabase (database table : String) : TableName :=
  if database = "" then .bare table else .qualified database table

def quoted : TableName → String
  | .bare table => quote table
  | .qualified database table => quote database ++ "." ++ quote table

def EndsBefore (name : TableName) (rest : List Char) : Prop :=
  rest.head? ≠ some quoteMark ∧ match name with
    | .bare _ => rest.head? ≠ some '.'
    | .qualified .. => True

theorem quoted_ofDatabase (database table : String) :
    (ofDatabase database table).quoted = quoteTable database table := by
  unfold ofDatabase quoteTable
  split <;> rfl

theorem ofDatabase_injective2 : Function.Injective2 ofDatabase := by
  intro database other table otherTable same
  unfold ofDatabase at same
  split at same
  · next alone =>
    split at same
    · next aloneToo =>
      cases same
      exact ⟨alone.trans aloneToo.symm, rfl⟩
    · cases same
  · split at same
    · cases same
    · cases same
      exact ⟨rfl, rfl⟩

end TableName

def readTable? (text : List Char) : Option (TableName × List Char) :=
  (readName? text).bind fun (name, rest) =>
    match rest with
    | '.' :: more => (readName? more).map (Prod.map (.qualified name) id)
    | _ => some (.bare name, rest)

theorem readTable?_eq_bare_iff {table : String} :
    readTable? text = some (.bare table, rest) ↔ readName? text = some (table, rest) ∧ rest.head? ≠ some '.' := by
  rw [readTable?, Option.bind_eq_some_iff]
  constructor
  · rintro ⟨⟨name, behind⟩, first, read⟩
    dsimp only at read
    split at read
    · obtain ⟨_, _, same⟩ := Option.map_eq_some_iff.mp read
      cases same
    · next undotted =>
      cases read
      refine ⟨first, fun dotted => ?_⟩
      obtain ⟨more, rfl⟩ := List.head?_eq_some_iff.mp dotted
      exact undotted more rfl
  · rintro ⟨first, undotted⟩
    refine ⟨_, first, ?_⟩
    dsimp only
    split
    · exact absurd rfl undotted
    · rfl

theorem readTable?_eq_qualified_iff {database table : String} :
    readTable? text = some (.qualified database table, rest) ↔
      ∃ more, readName? text = some (database, '.' :: more) ∧ readName? more = some (table, rest) := by
  rw [readTable?, Option.bind_eq_some_iff]
  constructor
  · rintro ⟨⟨name, behind⟩, first, read⟩
    dsimp only at read
    split at read
    · next more =>
      obtain ⟨⟨second, behind⟩, inner, same⟩ := Option.map_eq_some_iff.mp read
      cases same
      exact ⟨more, first, inner⟩
    · cases read
  · rintro ⟨more, first, second⟩
    exact ⟨_, first, Option.map_eq_some_iff.mpr ⟨_, second, rfl⟩⟩

theorem readTable?_eq_some_iff {name : TableName} :
    readTable? text = some (name, rest) ↔ text = name.quoted.toList ++ rest ∧ name.EndsBefore rest := by
  cases name with
  | bare table =>
    rw [readTable?_eq_bare_iff, readName?_eq_some_iff, and_assoc]
    rfl
  | qualified database table =>
    have dot : ∀ more : List Char, ('.' :: more).head? ≠ some quoteMark := by simp [quoteMark]
    simp only [readTable?_eq_qualified_iff, readName?_eq_some_iff]
    constructor
    · rintro ⟨more, ⟨written, _⟩, writtenToo, apart⟩
      exact ⟨by simp [written, writtenToo, TableName.quoted, String.toList_append], apart, trivial⟩
    · rintro ⟨written, apart, _⟩
      exact ⟨_, ⟨by simp [written, TableName.quoted, String.toList_append], dot _⟩, rfl, apart⟩

theorem quoted_injective : Function.Injective TableName.quoted := by
  have read (name : TableName) : readTable? name.quoted.toList = some (name, []) := by
    rw [readTable?_eq_some_iff, List.append_nil]
    cases name <;> exact ⟨rfl, nofun, by simp⟩
  intro name other same
  have both := read other
  rw [← same, read name] at both
  exact (Prod.mk.inj (Option.some.inj both)).1

/-- A quote mark behind a table would belong to its name, and a dot behind a table alone calls for a second name. -/
theorem tables_are_read_back :
    (∀ (database table : String) (text rest : List Char), rest.head? ≠ some quoteMark → rest.head? ≠ some '.' →
      (readTable? text = some (.ofDatabase database table, rest) ↔
        text = (quoteTable database table).toList ++ rest)) ∧
    Function.Injective2 quoteTable := by
  constructor
  · intro database table text rest apart undotted
    have ends : (TableName.ofDatabase database table).EndsBefore rest := by
      unfold TableName.ofDatabase
      split
      · exact ⟨apart, undotted⟩
      · exact ⟨apart, trivial⟩
    rw [readTable?_eq_some_iff, TableName.quoted_ofDatabase]
    exact and_iff_left ends
  · intro database other table otherTable same
    rw [← TableName.quoted_ofDatabase, ← TableName.quoted_ofDatabase] at same
    exact TableName.ofDatabase_injective2 (quoted_injective same)

theorem marked_table_is_read_back :
    quoteTable "a`" "`.`b" = "`a```.```.``b`" ∧
    " WHERE".toList.head? ≠ some quoteMark ∧ " WHERE".toList.head? ≠ some '.' ∧
    readTable? ("`a```.```.``b` WHERE").toList = some (.qualified "a`" "`.`b", " WHERE".toList) := by
  refine ⟨by decide, by decide, by decide, ?_⟩
  exact (tables_are_read_back.1 "a`" "`.`b" _ _ (by decide) (by decide)).mpr (by decide)

end SqlComposer.Sql
