import SqlComposer.Compose.Command
import SqlComposer.Proofs.Condition.Words
/-!
What the condition of a page is worth next to the condition of its query and the keyset of its cursor.

It is their conjunction, unless the condition is a single text with a disjunction outside parentheses: then AND binds
the keyset to the last alternative alone, and rows of the others pass wherever the cursor stands. What holds in every
case is `keyset_binds_last_alternative`.
-/

namespace SqlComposer.Sql

open Compose

variable {lexer : Lexer}

theorem Truth.all_concat (truths : List Truth) (last : Truth) : all (truths ++ [last]) = all [all truths, last] := by
  unfold all
  rcases last with _ | _ | _ <;> split_ifs <;> simp_all

theorem Level.truth_formula (meaning : Expr → Truth) (level : Level) :
    level.formula.truth meaning = Truth.any (level.disjuncts.map (Formula.truth meaning) ++
      [Truth.all (level.conjuncts.map (Formula.truth meaning))]) := by
  simp [formula, Formula.truth]

theorem Level.formula_eq_true_iff {meaning : Expr → Truth} {level : Level} :
    level.formula.truth meaning = some true ↔ (∃ disjunct ∈ level.disjuncts, disjunct.truth meaning = some true) ∨
      Truth.all (level.conjuncts.map (Formula.truth meaning)) = some true := by
  rw [truth_formula, Truth.any_eq_true_iff, List.mem_append, List.mem_map, List.mem_singleton,
    eq_comm (b := Truth.all _)]

theorem Level.truth_singleton (meaning : Expr → Truth) (operand : Formula) :
    (formula ⟨[], [operand]⟩).truth meaning = operand.truth meaning := by
  simp [truth_formula]

section

variable (meaning : Expr → Truth) (level : Level) (operand : Formula)

theorem Level.truth_extend_and :
    (level.extend .and operand).formula.truth meaning =
      Truth.any (level.disjuncts.map (Formula.truth meaning) ++
        [Truth.all (level.conjuncts.map (Formula.truth meaning) ++ [operand.truth meaning])]) := by
  simp [truth_formula, extend]

theorem Level.extend_and_eq_true_iff :
    (level.extend .and operand).formula.truth meaning = some true ↔
      level.formula.truth meaning = some true ∧ operand.truth meaning = some true ∨
        ∃ disjunct ∈ level.disjuncts, disjunct.truth meaning = some true := by
  have last : Truth.all ((level.extend .and operand).conjuncts.map (Formula.truth meaning)) = some true ↔
      Truth.all (level.conjuncts.map (Formula.truth meaning)) = some true ∧ operand.truth meaning = some true := by
    rw [extend, List.map_append, List.map_singleton, Truth.all_concat, Truth.all_eq_true_iff]
    simp
  have others : (level.extend .and operand).disjuncts = level.disjuncts := rfl
  rw [formula_eq_true_iff, formula_eq_true_iff, last, others]
  constructor
  · rintro (early | ⟨rest, own⟩)
    · exact .inr early
    · exact .inl ⟨.inr rest, own⟩
  · rintro (⟨early | rest, own⟩ | early)
    · exact .inl early
    · exact .inr ⟨rest, own⟩
    · exact .inl early

theorem Level.truth_extend_and_of_one (one : level.disjuncts = []) :
    (level.extend .and operand).formula.truth meaning =
      Truth.all [level.formula.truth meaning, operand.truth meaning] := by
  rw [truth_extend_and, truth_formula, one, List.map_nil, List.nil_append, List.nil_append, Truth.any_singleton,
    Truth.any_singleton, Truth.all_concat]

end

def conditionLevel? (lexer : Lexer) : Option Expr → Option Level
  | none => some {}
  | some expr => readLevel (expr.words lexer)

theorem exists_conditionLevel {conditions : List (Option Expr)}
    (readable : ∀ expr ∈ conditions.filterMap present?, (readLevel (expr.words lexer)).isSome = true) :
    ∃ level, conditionLevel? lexer (allOf conditions) = some level ∧
      ((conditions.filterMap present?).length ≠ 1 → level.disjuncts = []) := by
  rw [allOf, Connective.connect]
  generalize conditions.filterMap present? = operands at readable
  match operands with
  | [] => exact ⟨{}, rfl, fun _ => rfl⟩
  | [operand] =>
    obtain ⟨level, shown⟩ := Option.isSome_iff_exists.mp (readable operand List.mem_cons_self)
    exact ⟨level, shown, fun several => absurd rfl several⟩
  | first :: second :: rest =>
    obtain ⟨formula, operand⟩ := isOperand_group .and readable
    exact ⟨_, operand.readLevel_eq, fun _ => rfl⟩

theorem readLevel_and {base keys : Expr} {level : Level} {operand : Formula}
    (shown : readLevel (base.words lexer) = some level) (isOperand : IsOperand (keys.words lexer) operand) :
    readLevel ((Expr.group (.raw "(" :: base ::
        [keys].flatMap (fun next => [.raw Connective.and.text, next]) ++ [.raw ")"])).words lexer) =
      some ⟨[], [(level.extend .and operand).formula]⟩ := by
  refine (isOperand_of_inside .and ?_).readLevel_eq
  rw [readLevel_eq_some_iff, List.foldlM_append, readLevel_eq_some_iff.mp shown, List.flatMap_singleton]
  rw [Option.bind_eq_bind, Option.bind_some, List.foldlM_cons, Reader.advance?_connective]
  exact isOperand .and level []

theorem exists_page_level {base : Option Expr} {keys : Expr} {level : Level} {operand : Formula}
    (solid : present? base = base) (solidKeys : present? (some keys) = some keys)
    (shown : conditionLevel? lexer base = some level) (isOperand : IsOperand (keys.words lexer) operand) :
    ∃ condition whole, allOf [base, some keys] = some condition ∧ readLevel (condition.words lexer) = some whole ∧
      ∀ meaning, whole.formula.truth meaning = (level.extend .and operand).formula.truth meaning := by
  cases base with
  | none =>
    obtain rfl := Option.some.inj shown
    refine ⟨keys, _, ?_, isOperand.readLevel_eq, fun meaning => rfl⟩
    rw [allOf, connect_none_cons, Connective.connect, List.filterMap_cons_some solidKeys]
    rfl
  | some expr =>
    refine ⟨_, _, ?_, readLevel_and shown isOperand, fun meaning => Level.truth_singleton meaning _⟩
    rw [allOf, Connective.connect, List.filterMap_cons_some solid, List.filterMap_cons_some solidKeys]
    rfl

/-- The condition of the page is read as the level of the query's condition with the keyset as one more conjunct of its
last alternative. That is the conjunction of both if there is no other alternative, as with more than one operand. Else
rows that an earlier alternative accepts pass as well, wherever they stand. -/
structure BindsLastAlternative (lexer : Lexer) (conditions : List (Option Expr)) (keys condition : Expr) (level : Level)
    (bound whole : Formula) : Prop where
  readKeys : read (keys.words lexer) = some bound
  readWhole : read (condition.words lexer) = some whole
  written : ∀ statement : Statement, statement.writeAll .mysql ((condition.words lexer).flatMap Token.pieces) =
    statement.writeAll .mysql (Registry.mysql.pieces condition)
  worth : ∀ meaning, whole.truth meaning = Truth.any (level.disjuncts.map (Formula.truth meaning) ++
    [Truth.all (level.conjuncts.map (Formula.truth meaning) ++ [bound.truth meaning])])
  passes : ∀ meaning, whole.truth meaning = some true ↔
    level.formula.truth meaning = some true ∧ bound.truth meaning = some true ∨
      ∃ disjunct ∈ level.disjuncts, disjunct.truth meaning = some true
  conjunction : level.disjuncts = [] → ∀ meaning,
    whole.truth meaning = Truth.all [level.formula.truth meaning, bound.truth meaning]
  several : (conditions.filterMap present?).length ≠ 1 → level.disjuncts = []

theorem keyset_binds_last_alternative (lexer : Lexer) (query : Select) {conditions : List (Option Expr)}
    (readable : ∀ expr ∈ conditions.filterMap present?, (read (expr.words lexer)).isSome = true)
    {cursor : List Expr} {keys : Expr} (bounded : keyset query.sorts cursor = some keys) :
    ∃ condition level bound whole,
      (Page.toQuery ⟨query.filtered conditions, cursor⟩).condition = some condition ∧
      conditionLevel? lexer (Page.toQuery ⟨query.filtered conditions, []⟩).condition = some level ∧
      BindsLastAlternative lexer conditions keys condition level bound whole := by
  have readableLevel : ∀ expr ∈ conditions.filterMap present?, (readLevel (expr.words lexer)).isSome = true := by
    simpa only [read_eq_map, Option.isSome_map] using readable
  obtain ⟨level, shown, several⟩ := exists_conditionLevel readableLevel
  obtain ⟨operand, isOperand⟩ := isOperand_keyset lexer bounded
  have solidKeys : present? (some keys) = some keys := by
    rw [← bounded]
    exact present?_connect .or _
  obtain ⟨condition, whole, composed, readWhole, worth⟩ :=
    exists_page_level (present?_connect .and conditions) solidKeys shown isOperand
  have bare : (Page.toQuery ⟨query.filtered conditions, []⟩).condition = allOf conditions := by
    rw [Page.toQuery, keyset_nil]
    exact connect_connect_none .and conditions
  have given : (Page.toQuery ⟨query.filtered conditions, cursor⟩).condition = some condition := by
    rw [← composed, ← bounded]
    rfl
  have boundWorth : ∀ meaning, (Level.formula ⟨[], [operand]⟩).truth meaning = operand.truth meaning :=
    fun meaning => Level.truth_singleton meaning operand
  refine ⟨condition, level, Level.formula ⟨[], [operand]⟩, whole.formula, given, bare ▸ shown, ?_⟩
  constructor
  · rw [read_eq_map, isOperand.readLevel_eq, Option.map_some]
  · rw [read_eq_map, readWhole, Option.map_some]
  · exact condition.writeAll_words
  · intro meaning
    rw [worth, boundWorth, Level.truth_extend_and]
  · intro meaning
    rw [worth, boundWorth, Level.extend_and_eq_true_iff]
  · intro one meaning
    rw [worth, boundWorth, Level.truth_extend_and_of_one meaning level operand one]
  · exact several

def tenById : Select := Query.sorted { table := "t", count := 10 } [.column "id"]

def disjunction : Expr := .raw "a = 1 OR b = 2"

def idAbove : Expr := .comparison .greaterThan (.column "id") (.value (.i64 5))

theorem words_disjunction : disjunction.words .splitting =
    [.predicate (.raw "a = 1"), .connective .or, .predicate (.raw "b = 2")] := rfl

theorem words_page : (Expr.group [.raw "(", disjunction, .raw " AND ", idAbove, .raw ")"]).words .splitting =
    [.opening, .predicate (.raw "a = 1"), .connective .or, .predicate (.raw "b = 2"), .connective .and,
      .predicate idAbove, .closing] := rfl

theorem id_binds_last_alternative :
    (∀ expr ∈ [some disjunction].filterMap present?, (read (expr.words .splitting)).isSome = true) ∧
      keyset tenById.sorts [.value (.i64 5)] = some idAbove ∧
      ∃ condition level bound whole,
        (Page.toQuery ⟨tenById.filtered [some disjunction], [.value (.i64 5)]⟩).condition = some condition ∧
        conditionLevel? .splitting (Page.toQuery ⟨tenById.filtered [some disjunction], []⟩).condition = some level ∧
        BindsLastAlternative .splitting [some disjunction] idAbove condition level bound whole := by
  have readable : ∀ expr ∈ [some disjunction].filterMap present?, (read (expr.words .splitting)).isSome = true := by
    intro expr member
    obtain rfl := List.mem_singleton.mp member
    rw [words_disjunction]
    rfl
  have bounded : keyset tenById.sorts [.value (.i64 5)] = some idAbove := by cbv
  exact ⟨readable, bounded, keyset_binds_last_alternative .splitting tenById readable bounded⟩

def earlyRow : Expr → Truth
  | .ofNode (.raw text) => some (text == "a = 1")
  | _ => some false

theorem early_row_passes :
    let page := Page.toQuery ⟨tenById.filtered [some disjunction], [.value (.i64 5)]⟩
    Statement.compose .mysql "paginate" (selectPieces .mysql page) =
        .ok ("SELECT * FROM `t` WHERE (a = 1 OR b = 2 AND `id` > ?) ORDER BY `id` LIMIT 10", [.i64 5]) ∧
      ∃ condition whole base bound, page.condition = some condition ∧
        read (condition.words .splitting) = some whole ∧ read (disjunction.words .splitting) = some base ∧
        read (idAbove.words .splitting) = some bound ∧
        whole.truth earlyRow = some true ∧ Truth.all [base.truth earlyRow, bound.truth earlyRow] = some false := by
  have given : (Page.toQuery ⟨tenById.filtered [some disjunction], [.value (.i64 5)]⟩).condition =
      some (.group [.raw "(", disjunction, .raw " AND ", idAbove, .raw ")"]) := by cbv
  intro page
  refine ⟨by cbv, _, _, _, _, given, congrArg read words_page, congrArg read words_disjunction, rfl, ?_, ?_⟩
  · cbv
  · cbv

end SqlComposer.Sql
