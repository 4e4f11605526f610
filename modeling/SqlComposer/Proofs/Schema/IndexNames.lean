import Mathlib.Algebra.Group.Nat.Defs
import SqlComposer.Schema.Index
/-!
Which indexes are named alike.

Kind and columns are digested one after the other: a bar stands before each column, and a mark of its direction behind
it. A bar right behind a mark begins a new column, even where both belong to a name. So what is digested is the same
just where the kinds are the same and the columns are, once names are cut there: `index_names_show_columns`.
-/

namespace SqlComposer.Schema

open Sql

def mark : Order → List Char
  | .ascending => ['@', 'A', 'S', 'C']
  | .descending => ['@', 'D', 'E', 'S', 'C']

def separator (order : Order) : List Char := mark order ++ ['|']

/-- Cuts a name behind each separator in it. The last part has the direction of the whole column; `pending` is what is
read of the part. -/
def cut (order : Order) (pending : List Char) : List Char → List IndexColumn
  | '@' :: 'A' :: 'S' :: 'C' :: '|' :: rest => ⟨.ofList pending, .ascending⟩ :: cut order [] rest
  | '@' :: 'D' :: 'E' :: 'S' :: 'C' :: '|' :: rest => ⟨.ofList pending, .descending⟩ :: cut order [] rest
  | c :: rest => cut order (pending ++ [c]) rest
  | [] => [⟨.ofList pending, order⟩]

def IndexColumn.shown (column : IndexColumn) : List IndexColumn := cut column.order [] column.name.toList

def IndexColumn.IsWhole (column : IndexColumn) : Prop := ∀ order, ¬ separator order <:+: column.name.toList

theorem cut_of_whole {order : Order} {pending text : List Char} (whole : ∀ other, ¬ separator other <:+: text) :
    cut order pending text = [⟨.ofList (pending ++ text), order⟩] := by
  fun_induction cut order pending text with
  | case1 pending rest ih => exact absurd ⟨[], rest, rfl⟩ (whole .ascending)
  | case2 pending rest ih => exact absurd ⟨[], rest, rfl⟩ (whole .descending)
  | case3 pending c rest _ _ ih =>
    rw [ih fun other inside => whole other (List.infix_cons inside), List.append_assoc, List.singleton_append]
  | case4 pending => rw [List.append_nil]

theorem IndexColumn.IsWhole.shown_eq {column : IndexColumn} (whole : column.IsWhole) : column.shown = [column] := by
  rw [IndexColumn.shown, cut_of_whole whole, List.nil_append, String.ofList_toList]

def spelled (columns : List IndexColumn) : List Char :=
  columns.flatMap fun column => column.name.toList ++ separator column.order

theorem spelled_cons (column : IndexColumn) (columns : List IndexColumn) :
    spelled (column :: columns) = column.name.toList ++ separator column.order ++ spelled columns := rfl

theorem spelled_cut (order : Order) (pending text : List Char) :
    spelled (cut order pending text) = pending ++ text ++ separator order := by
  fun_induction cut order pending text with
  | case1 pending rest ih => simp [spelled_cons, ih, separator, mark]
  | case2 pending rest ih => simp [spelled_cons, ih, separator, mark]
  | case3 pending c rest _ _ ih => simp [ih]
  | case4 pending => simp [spelled]

theorem spelled_shown (columns : List IndexColumn) : spelled (columns.flatMap IndexColumn.shown) = spelled columns := by
  induction columns with
  | nil => rfl
  | cons column columns ih =>
    have first : spelled column.shown = column.name.toList ++ separator column.order := spelled_cut _ _ _
    rw [List.flatMap_cons, spelled_cons, ← first, ← ih]
    exact List.flatMap_append

def readColumns (pending : List Char) : List Char → List IndexColumn
  | '@' :: 'A' :: 'S' :: 'C' :: '|' :: rest => ⟨.ofList pending, .ascending⟩ :: readColumns [] rest
  | '@' :: 'D' :: 'E' :: 'S' :: 'C' :: '|' :: rest => ⟨.ofList pending, .descending⟩ :: readColumns [] rest
  | c :: rest => readColumns (pending ++ [c]) rest
  | [] => []

theorem readColumns_cut (order : Order) (pending text rest : List Char) :
    readColumns pending (text ++ separator order ++ rest) = cut order pending text ++ readColumns [] rest := by
  fun_induction cut order pending text with
  | case1 pending more ih => simp [readColumns, ← ih]
  | case2 pending more ih => simp [readColumns, ← ih]
  | case3 pending c more noAscending noDescending ih =>
    -- No separator begins in the name and ends in the one behind it: each has its only `@` in front.
    rw [← ih, List.cons_append, List.cons_append, readColumns]
    · rintro tail rfl same
      rcases more with _ | ⟨a, _ | ⟨b, _ | ⟨d, _ | ⟨e, more⟩⟩⟩⟩ <;> cases order <;> simp_all [separator, mark]
    · rintro tail rfl same
      rcases more with _ | ⟨a, _ | ⟨b, _ | ⟨d, _ | ⟨e, _ | ⟨f, more⟩⟩⟩⟩⟩ <;> cases order <;>
        simp_all [separator, mark]
  | case4 pending => cases order <;> simp [separator, mark, readColumns]

theorem readColumns_spelled (columns : List IndexColumn) :
    readColumns [] (spelled columns) = columns.flatMap IndexColumn.shown := by
  induction columns with
  | nil => rfl
  | cons column columns ih => rw [spelled_cons, readColumns_cut, ih, List.flatMap_cons, IndexColumn.shown]

theorem spelled_eq_iff {columns others : List IndexColumn} :
    spelled columns = spelled others ↔ columns.flatMap IndexColumn.shown = others.flatMap IndexColumn.shown := by
  constructor
  · intro same
    rw [← readColumns_spelled, same, readColumns_spelled]
  · intro same
    rw [← spelled_shown, same, spelled_shown]

def IndexColumn.spelling (column : IndexColumn) : List Char := '|' :: (column.name.toList ++ mark column.order)

def Index.spelling (index : Index) : List Char :=
  index.kind.text.toList ++ index.columns.flatMap IndexColumn.spelling

theorem IndexColumn.digestInput_eq (column : IndexColumn) : column.digestInput = bytesOf (.ofList column.spelling) := by
  have text : String.ofList column.spelling = "|" ++ column.name ++ String.ofList (mark column.order) := by
    rw [← String.toList_inj]
    simp [IndexColumn.spelling]
  rw [text, bytesOf_append, bytesOf_append, digestInput]
  cases column.order <;> rfl

theorem Index.digestInput_eq (index : Index) : index.digestInput = bytesOf (.ofList index.spelling) := by
  have columns : index.columns.flatMap IndexColumn.digestInput =
      bytesOf (.ofList (index.columns.flatMap IndexColumn.spelling)) := by
    induction index.columns with
    | nil => rfl
    | cons column columns ih =>
      rw [List.flatMap_cons, List.flatMap_cons, String.ofList_append, bytesOf_append, ih,
        IndexColumn.digestInput_eq]
  rw [digestInput, columns, Index.spelling, String.ofList_append, bytesOf_append, String.ofList_toList]

theorem flatMap_spelling_append_bar (columns : List IndexColumn) :
    columns.flatMap IndexColumn.spelling ++ ['|'] = '|' :: spelled columns := by
  induction columns with
  | nil => rfl
  | cons column columns ih =>
    rw [List.flatMap_cons, List.append_assoc, ih, spelled_cons]
    simp [IndexColumn.spelling, separator]

theorem flatMap_spelling_eq_iff {columns others : List IndexColumn} :
    columns.flatMap IndexColumn.spelling = others.flatMap IndexColumn.spelling ↔
      columns.flatMap IndexColumn.shown = others.flatMap IndexColumn.shown := by
  rw [← spelled_eq_iff, ← List.append_left_inj ['|'], flatMap_spelling_append_bar, flatMap_spelling_append_bar,
    List.cons_inj_right]

theorem kind_text_append_eq_iff {kind other : IndexKind} {text text' : List Char} :
    kind.text.toList ++ text = other.text.toList ++ text' ↔ kind = other ∧ text = text' := by
  constructor
  · intro same
    -- The kinds begin with different letters.
    have first := congrArg List.head? same
    have sameKind : kind = other := by
      cases kind <;> cases other <;> first | rfl | exact absurd first (by simp [IndexKind.text])
    subst sameKind
    exact ⟨rfl, List.append_cancel_left same⟩
  · rintro ⟨rfl, rfl⟩
    rfl

theorem digestInput_eq_iff {index other : Index} :
    index.digestInput = other.digestInput ↔
      index.kind = other.kind ∧
        index.columns.flatMap IndexColumn.shown = other.columns.flatMap IndexColumn.shown := by
  rw [Index.digestInput_eq, Index.digestInput_eq, bytesOf_inj, String.ofList_inj, Index.spelling, Index.spelling,
    kind_text_append_eq_iff, flatMap_spelling_eq_iff]

theorem hexDigit_inj {a b : Nat} (small : a < 16) (smallToo : b < 16) :
    Text.hexDigit a = Text.hexDigit b ↔ a = b := by
  have different : ∀ a < 16, ∀ b < 16, Text.hexDigit a = Text.hexDigit b → a = b := by decide
  exact ⟨different a small b smallToo, fun same => same ▸ rfl⟩

theorem hexDigits_inj {width a b : Nat} (small : a < 16 ^ width) (smallToo : b < 16 ^ width) :
    Text.hexDigits width a = Text.hexDigits width b ↔ a = b := by
  induction width generalizing a b with
  | zero =>
    rw [Nat.pow_zero] at small smallToo
    exact iff_of_true rfl (by omega)
  | succ width ih =>
    rw [Nat.pow_succ] at small smallToo
    rw [Text.hexDigits, Text.hexDigits, List.append_singleton_inj,
      ih (Nat.div_lt_of_lt_mul (by omega)) (Nat.div_lt_of_lt_mul (by omega)),
      hexDigit_inj (Nat.mod_lt a (by decide)) (Nat.mod_lt b (by decide))]
    omega

theorem digestText_inj {a b : UInt64} : digestText a = digestText b ↔ a = b := by
  rw [digestText, digestText, String.ofList_inj, hexDigits_inj a.toNat_lt b.toNat_lt, UInt64.toNat_inj]

/-- Equal names show equal digests. Two indexes with equal kinds and other columns have the same digest input only if
a separator stands in one of the names. -/
structure ShowsColumns (index other : Index) : Prop where
  named : index.digestName = other.digestName ↔ digest index.digestInput = digest other.digestInput
  digested : index.digestInput = other.digestInput ↔ index.kind = other.kind ∧
    index.columns.flatMap IndexColumn.shown = other.columns.flatMap IndexColumn.shown
  whole : (∀ column ∈ index.columns ++ other.columns, column.IsWhole) →
    (index.digestInput = other.digestInput ↔ index.kind = other.kind ∧ index.columns = other.columns)

theorem flatMap_shown_of_whole {columns : List IndexColumn} (whole : ∀ column ∈ columns, column.IsWhole) :
    columns.flatMap IndexColumn.shown = columns := by
  induction columns with
  | nil => rfl
  | cons column columns ih =>
    rw [List.forall_mem_cons] at whole
    rw [List.flatMap_cons, whole.1.shown_eq, ih whole.2, List.singleton_append]

theorem index_names_show_columns (index other : Index) : ShowsColumns index other where
  named := digestText_inj
  digested := digestInput_eq_iff
  whole whole := by
    rw [List.forall_mem_append] at whole
    rw [digestInput_eq_iff, flatMap_shown_of_whole whole.1, flatMap_shown_of_whole whole.2]

theorem two_columns_are_digested_as_one :
    ∃ two one : Index,
      Index.ofColumns .btree [⟨"a", .ascending⟩, ⟨"b", .ascending⟩] = .ok two ∧
      Index.ofColumns .btree [⟨"a@ASC|b", .ascending⟩] = .ok one ∧
      two.digestInput = one.digestInput ∧ two.columns ≠ one.columns ∧ two.digestName = one.digestName := by
  refine ⟨_, _, rfl, rfl, by decide, by decide, ?_⟩
  rfl

end SqlComposer.Schema
