import SqlComposer.Proofs.Paging.Table
/-!
The keyset of a cursor lets through exactly the rows that come after the cursor's values in the order of the keys.

The keyset is composed as a tree of conditions: one branch for each key, under the equalities of the keys before it.
-/

namespace SqlComposer.Sql

namespace Condition

def equality (bound : Key × SqlValue) : Condition := .predicate (.equal bound.1.column (.value bound.2)) rfl

def beyond (bound : Key × SqlValue) : Condition :=
  .predicate (Sql.beyond bound.1.order bound.1.column (.value bound.2)) (by cases bound.1.order <;> rfl)

def branches (equal : List Condition) : List (Key × SqlValue) → List Condition
  | [] => []
  | bound :: rest => .joined .and (equal ++ [beyond bound]) :: branches (equal ++ [equality bound]) rest

theorem present?_branches {equal : List Condition} {exprs : List Expr}
    (given : equal.map operand = exprs.map some) (bounds : List (Key × SqlValue)) :
    (keysetBranches exprs (bounds.map fun bound => ((bound.1.column, bound.1.order), .value bound.2))).map present? =
      ((branches equal bounds).map operand).map present? := by
  induction bounds generalizing equal exprs with
  | nil => rfl
  | cons bound bounds ih =>
    have head : present? (allOf ((exprs ++ [Sql.beyond bound.1.order bound.1.column (.value bound.2)]).map some)) =
        present? (Condition.joined .and (equal ++ [beyond bound])).operand := by
      rw [present?_operand_joined, List.map_append, List.map_append, given]
      exact present?_connect .and _
    have longer : (equal ++ [equality bound]).map operand =
        (exprs ++ [Expr.equal bound.1.column (.value bound.2)]).map some := by
      simp [given, equality, operand]
    simp only [List.map_cons, keysetBranches, branches, head, ih longer]

end Condition

theorem keyset_eq_connect {sorts cursor : List Expr} {bounds : List (Key × SqlValue)}
    (columns : (sorts.map sortColumn).zip cursor =
      bounds.map fun bound => ((bound.1.column, bound.1.order), .value bound.2)) :
    keyset sorts cursor = Connective.or.connect ((Condition.branches [] bounds).map Condition.operand) := by
  rw [keyset, columns, anyOf]
  exact connect_congr .or (Condition.present?_branches (by rfl) bounds)

theorem condition_toQuery {query : Select} {conditions : List Condition} {bounds : List (Key × SqlValue)}
    (base : query.condition = allOf (conditions.map Condition.operand))
    (sorts : query.sorts = bounds.map fun bound => bound.1.expr.asSortKey) :
    (Page.toQuery ⟨query, bounds.map fun bound => .value bound.2⟩).condition =
      Connective.and.connect ([Condition.joined .and conditions,
        .joined .or (Condition.branches [] bounds)].map Condition.operand) := by
  have composed : keyset query.sorts (bounds.map fun bound => .value bound.2) =
      Connective.or.connect ((Condition.branches [] bounds).map Condition.operand) := by
    apply keyset_eq_connect
    simp [sorts, List.zip_map', Function.comp_def]
  apply connect_congr .and
  simp only [List.map_cons, List.map_nil, present?_operand_joined, base, composed, allOf, present?_connect]

theorem isMeant_toQuery {query : Select} {conditions : List Condition} {bounds : List (Key × SqlValue)}
    (base : query.condition = allOf (conditions.map Condition.operand))
    (sorts : query.sorts = bounds.map fun bound => bound.1.expr.asSortKey) :
    (Condition.joined .and [.joined .and conditions, .joined .or (Condition.branches [] bounds)]).IsMeant
      (Page.toQuery ⟨query, bounds.map fun bound => .value bound.2⟩).condition := by
  rw [condition_toQuery base sorts]
  exact isMeant_joined .and (isMeant_operands _)

namespace Table

variable {Row : Type} {table : Table Row} {row other : Row}

def compareUnder (table : Table Row) (key : Key) (v w : SqlValue) : Ordering :=
  match key.order with
  | .ascending => table.order key.table key.name v w
  | .descending => table.order key.table key.name w v

def compareValues (table : Table Row) : List Key → List SqlValue → List SqlValue → Ordering
  | key :: keys, v :: vs, w :: ws => (table.compareUnder key v w).then (table.compareValues keys vs ws)
  | _, _, _ => .eq

theorem compareAll_eq_compareValues (keys : List Key) (row other : Row) :
    table.compareAll keys row other =
      table.compareValues keys (keys.map (table.value row)) (keys.map (table.value other)) := by
  induction keys with
  | nil => rfl
  | cons key keys ih =>
    rw [compareAll, ih]
    rfl

structure Comparable (table : Table Row) (row : Row) (bound : Key × SqlValue) : Prop where
  filled : bound.2.isNull = false
  filledRow : (table.value row bound.1).isNull = false
  swapped : table.order bound.1.table bound.1.name (table.value row bound.1) bound.2 =
    (table.order bound.1.table bound.1.name bound.2 (table.value row bound.1)).swap

section

variable {bound : Key × SqlValue} (comparable : table.Comparable row bound)

include comparable

theorem truth_beyond :
    table.truth row (beyond bound.1.order bound.1.column (.value bound.2)) =
      some (table.compareUnder bound.1 bound.2 (table.value row bound.1)).isLT := by
  obtain ⟨filled, filledRow, swapped⟩ := comparable
  unfold value at filledRow swapped
  cases direction : bound.1.order <;>
    simp [beyond, truth, Key.column, Expr.comparison, Expr.columnOf, Expr.value, Expr.argument,
      Operator.relation?, compared, compareUnder, value, direction, filled, filledRow, swapped]

theorem truth_equal :
    table.truth row (.equal bound.1.column (.value bound.2)) =
      some (table.compareUnder bound.1 bound.2 (table.value row bound.1)).isEq := by
  obtain ⟨filled, filledRow, swapped⟩ := comparable
  unfold value at filledRow swapped
  cases direction : bound.1.order <;>
    simp [truth, Key.column, Expr.equal, Expr.comparison, Expr.columnOf, Expr.value, Expr.argument,
      Operator.relation?, compared, compareUnder, value, direction, filled, filledRow, swapped]

theorem truth?_branch {equal : List Condition} {worths : List Truth}
    (worth : equal.filterMap (Condition.truth? (table.truth row)) = worths) :
    (Condition.joined .and (equal ++ [.beyond bound])).truth? (table.truth row) =
      some (Truth.all (worths ++ [some (table.compareUnder bound.1 bound.2 (table.value row bound.1)).isLT])) := by
  have counted : (equal ++ [Condition.beyond bound]).filterMap (Condition.truth? (table.truth row)) =
      worths ++ [some (table.compareUnder bound.1 bound.2 (table.value row bound.1)).isLT] := by
    simp [worth, Condition.beyond, Condition.truth?, truth_beyond comparable]
  rw [Condition.truth?_joined .and (by simp [counted]), counted]
  rfl

end

section

variable {bounds : List (Key × SqlValue)} (comparable : ∀ bound ∈ bounds, table.Comparable row bound)

include comparable

theorem branch_true_iff {equal : List Condition} {worths : List Truth}
    (worth : equal.filterMap (Condition.truth? (table.truth row)) = worths) :
    some true ∈ (Condition.branches equal bounds).filterMap (Condition.truth? (table.truth row)) ↔
      (∀ worth ∈ worths, worth = some true) ∧
        table.compareValues (bounds.map (·.1)) (bounds.map (·.2)) (bounds.map fun bound => table.value row bound.1) =
          .lt := by
  induction bounds generalizing equal worths with
  | nil => simp [Condition.branches, compareValues]
  | cons bound bounds ih =>
    have first := comparable bound List.mem_cons_self
    have branch := truth?_branch first worth
    have longer : (equal ++ [Condition.equality bound]).filterMap (Condition.truth? (table.truth row)) =
        worths ++ [some (table.compareUnder bound.1 bound.2 (table.value row bound.1)).isEq] := by
      simp [worth, Condition.equality, Condition.truth?, truth_equal first]
    -- The branches that follow stand under one more equality.
    have rest := ih (fun other member => comparable other (List.mem_cons_of_mem _ member)) longer
    have step : some true ∈ (Condition.branches equal (bound :: bounds)).filterMap
          (Condition.truth? (table.truth row)) ↔
        Truth.all (worths ++ [some (table.compareUnder bound.1 bound.2 (table.value row bound.1)).isLT]) =
            some true ∨
          some true ∈ (Condition.branches (equal ++ [.equality bound]) bounds).filterMap
            (Condition.truth? (table.truth row)) := by
      rw [Condition.branches, List.filterMap_cons_some branch, List.mem_cons]
      exact or_congr_left eq_comm
    rw [step, rest, Truth.all_eq_true_iff, List.map_cons, List.map_cons, List.map_cons, compareValues,
      Ordering.then_eq_lt]
    simp only [List.forall_mem_append, List.forall_mem_singleton, Option.some.injEq, Ordering.isLT_iff_eq_lt,
      Ordering.isEq_iff_eq_eq]
    rw [and_assoc, ← and_or_left]

theorem holds_branches (proper : bounds ≠ []) :
    (Condition.joined .or (Condition.branches [] bounds)).holds (table.truth row) =
      (table.compareValues (bounds.map (·.1)) (bounds.map (·.2))
        (bounds.map fun bound => table.value row bound.1)).isLT := by
  have counts : (Condition.branches [] bounds).filterMap (Condition.truth? (table.truth row)) ≠ [] := by
    cases bounds with
    | nil => contradiction
    | cons bound bounds =>
      have unequalled : ([] : List Condition).filterMap (Condition.truth? (table.truth row)) = [] := rfl
      have branch := truth?_branch (comparable bound List.mem_cons_self) unequalled
      rw [Condition.branches, List.filterMap_cons_some branch]
      exact List.cons_ne_nil _ _
  rw [Bool.eq_iff_iff, Condition.holds_joined_or counts, branch_true_iff comparable rfl]
  simp

end

def bounds (table : Table Row) (keys : List Key) (row : Row) : List (Key × SqlValue) :=
  keys.map fun key => (key, table.value row key)

variable {keys : List Key} (ordered : ∀ key ∈ keys, table.IsOrdered key)
  (filled : ∀ key ∈ keys, (table.value row key).isNull = false)
  (filledOther : ∀ key ∈ keys, (table.value other key).isNull = false)

include ordered filled filledOther

theorem comparable_bounds : ∀ bound ∈ table.bounds keys row, table.Comparable other bound := by
  intro bound member
  obtain ⟨key, keyMember, rfl⟩ := List.mem_map.mp member
  have forwards : Std.TransCmp fun row other =>
    table.order key.table key.name (table.value row key) (table.value other key) := ordered key keyMember
  exact ⟨filled key keyMember, filledOther key keyMember, forwards.eq_swap⟩

theorem passes_toQuery {query : Select} {conditions : List Condition} (sortable : keys ≠ [])
    (base : query.condition = allOf (conditions.map Condition.operand))
    (sorts : query.sorts = keys.map fun key => key.expr.asSortKey) :
    passes (table.truth other) (Page.toQuery ⟨query, keys.map fun key => .value (table.value row key)⟩).condition =
      (conditions.all (Condition.holds (table.truth other)) && (table.compareAll keys row other).isLT) := by
  have bound : query.sorts = (table.bounds keys row).map fun bound => bound.1.expr.asSortKey := by
    simp [sorts, bounds]
  have cursor : (table.bounds keys row).map (fun bound => Expr.value bound.2) =
      keys.map fun key => .value (table.value row key) := by
    simp [bounds]
  have meant := isMeant_toQuery base bound
  rw [cursor] at meant
  have behind : (Condition.joined .or (Condition.branches [] (table.bounds keys row))).holds (table.truth other) =
      (table.compareAll keys row other).isLT := by
    rw [holds_branches (comparable_bounds ordered filled filledOther) (by simpa [bounds] using sortable),
      compareAll_eq_compareValues]
    simp [bounds, Function.comp_def]
  rw [passes_eq_holds meant, Condition.holds_joined_and, List.all_cons, List.all_cons, List.all_nil, behind,
    Condition.holds_joined_and, Bool.and_true]

end Table

end SqlComposer.Sql
