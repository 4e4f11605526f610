import SqlComposer.Proofs.Expression.Parts
import SqlComposer.Sql.Select

namespace SqlComposer.Sql

theorem join?_eq_some {connective : Connective} {operands : List Expr} {expr : Expr}
    (joined : connective.join? operands = some expr) :
    operands = [expr] ∨ ∃ first others, operands = first :: others ∧
      expr = .group (.raw "(" :: first :: others.flatMap (fun next => [.raw connective.text, next]) ++ [.raw ")"]) := by
  cases operands with
  | nil => cases joined
  | cons first others => cases others with
    | nil => exact .inl (congrArg (fun operand => [operand]) (Option.some.inj joined))
    | cons second rest => exact .inr ⟨first, second :: rest, rfl, (Option.some.inj joined).symm⟩

structure KeptByJoins (P : Expr → Prop) : Prop where
  join : ∀ (connective : Connective) (operands : List Expr), (∀ operand ∈ operands, P operand) →
    ∀ expr ∈ (connective.join? operands).toList, P expr

structure KeptByConditions (P : Expr → Prop) : Prop extends KeptByJoins P where
  comparison : ∀ operator field v, P field → P v → P (.comparison operator field v)
  sorted : ∀ field order, P (.ofNode (.sort field order)) → P field

namespace KeptByJoins

variable {P : Expr → Prop} (kept : KeptByJoins P)

include kept

theorem connect {connective : Connective} {operands : List (Option Expr)}
    (holds : ∀ operand ∈ operands, ∀ expr ∈ operand.toList, P expr) :
    ∀ expr ∈ (connective.connect operands).toList, P expr := by
  apply kept.join
  intro expr member
  obtain ⟨operand, member, shown⟩ := List.mem_filterMap.mp member
  have given := (present?_eq_some_iff.mp shown).1
  exact holds operand member expr (by simp [given])

theorem keysetBranches {equal : List Expr} {keys : List ((Expr × Order) × Expr)}
    (holdsEqual : ∀ expr ∈ equal, P expr)
    (holdsKeys : ∀ key ∈ keys, ∀ operator, P (.comparison operator key.1.1 key.2)) :
    ∀ branch ∈ Sql.keysetBranches equal keys, ∀ expr ∈ branch.toList, P expr := by
  induction keys generalizing equal with
  | nil => simp [Sql.keysetBranches]
  | cons key keys ih =>
    obtain ⟨⟨field, order⟩, v⟩ := key
    rw [List.forall_mem_cons] at holdsKeys
    obtain ⟨holdsKey, holdsKeys⟩ := holdsKeys
    have holdsBeyond : P (beyond order field v) := by
      cases order <;> exact holdsKey _
    have holdsEqualToo : P (Expr.equal field v) := holdsKey _
    rw [Sql.keysetBranches, List.forall_mem_cons]
    constructor
    · apply kept.connect
      simp only [List.forall_mem_map, List.forall_mem_append, Option.toList_some, List.forall_mem_singleton]
      exact ⟨holdsEqual, holdsBeyond⟩
    · apply ih _ holdsKeys
      rw [List.forall_mem_append, List.forall_mem_singleton]
      exact ⟨holdsEqual, holdsEqualToo⟩

theorem keyset {sorts cursor : List Expr}
    (holdsKeys : ∀ key ∈ (sorts.map sortColumn).zip cursor, ∀ operator, P (.comparison operator key.1.1 key.2)) :
    ∀ expr ∈ (Sql.keyset sorts cursor).toList, P expr :=
  kept.connect (kept.keysetBranches (by simp) holdsKeys)

end KeptByJoins

namespace KeptByConditions

variable {P : Expr → Prop} (kept : KeptByConditions P)

include kept

theorem sortColumn {expr : Expr} (holds : P expr) : P (Sql.sortColumn expr).1 := by
  unfold Sql.sortColumn
  split
  · exact kept.sorted _ _ holds
  · exact holds

theorem keyset {sorts cursor : List Expr} (holdsSorts : ∀ expr ∈ sorts, P expr)
    (holdsCursor : ∀ expr ∈ cursor, P expr) : ∀ expr ∈ (Sql.keyset sorts cursor).toList, P expr := by
  apply kept.toKeptByJoins.keyset
  intro key member operator
  obtain ⟨first, second⟩ := List.of_mem_zip member
  obtain ⟨sort, member, equal⟩ := List.mem_map.mp first
  exact kept.comparison _ _ _ (equal ▸ kept.sortColumn (holdsSorts sort member)) (holdsCursor _ second)

theorem toQuery {page : Page} (holds : ∀ expr ∈ page.query.parts ++ page.cursor, P expr) :
    ∀ expr ∈ page.toQuery.parts, P expr := by
  simp only [Query.parts, List.forall_mem_append] at holds
  obtain ⟨⟨⟨⟨⟨⟨⟨projections, joins⟩, condition⟩, groups⟩, having⟩, sorts⟩, lock⟩, cursor⟩ := holds
  have conditions : ∀ expr ∈ (allOf [page.query.condition, Sql.keyset page.query.sorts page.cursor]).toList,
      P expr := by
    apply kept.connect
    simpa using ⟨by simpa using condition, by simpa using kept.keyset sorts cursor⟩
  simp only [Page.toQuery, Query.filtered, Query.parts, List.forall_mem_append]
  exact ⟨⟨⟨⟨⟨⟨projections, joins⟩, conditions⟩, groups⟩, having⟩, sorts⟩, lock⟩

end KeptByConditions

end SqlComposer.Sql
