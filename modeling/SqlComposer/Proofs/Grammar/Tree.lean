import SqlComposer.Sql.Condition
/-!
Operands of comparisons as trees, and as the rows in which they are written.

An operand is written without parentheses unless it is a condition of several parts, so it is a row of operands itself,
its `chain`. A row is read from left to right, wherever an operand in it began: `regrouped` is what becomes of the tree,
and it is the tree again just where no comparison has a bare one on its right, `regrouped_eq_iff`.
-/

namespace SqlComposer.Grammar

open Sql

inductive Relation
  | equal | notEqual | greaterThan | greaterOrEqual | lowerThan | lowerOrEqual | like | notLike
deriving DecidableEq, Repr

inductive Tree
  | column (table name : String)
  | value (v : SqlValue)
  | compared (relation : Relation) (left right : Tree)
  | nullTest (negated : Bool) (left : Tree)
  | joined (connective : Connective) (parts : List Tree)
  | sum (step : Step) (left right : Tree)

inductive Suffix
  | compared (relation : Relation) (right : Tree)
  | nullTest (negated : Bool)

def Suffix.apply (left : Tree) : Suffix → Tree
  | .compared relation right => .compared relation left right
  | .nullTest negated => .nullTest negated left

structure Chain where
  head : Tree
  suffixes : List Suffix

namespace Chain

def tree (chain : Chain) : Tree := chain.suffixes.foldl Suffix.apply chain.head

def compared (left : Chain) (relation : Relation) (right : Chain) : Chain :=
  ⟨left.head, left.suffixes ++ .compared relation right.head :: right.suffixes⟩

def nullTest (left : Chain) (negated : Bool) : Chain := ⟨left.head, left.suffixes ++ [.nullTest negated]⟩

end Chain

namespace Tree

mutual

def chain : Tree → Chain
  | .compared relation left right => left.chain.compared relation right.chain
  | .nullTest negated left => left.chain.nullTest negated
  | .joined connective parts => ⟨.joined connective (regroupedList parts), []⟩
  | operand => ⟨operand, []⟩

def regroupedList : List Tree → List Tree
  | [] => []
  | part :: parts => part.chain.tree :: regroupedList parts

end

def regrouped (tree : Tree) : Tree := tree.chain.tree

@[simp] theorem regroupedList_eq_map (parts : List Tree) : regroupedList parts = parts.map regrouped := by
  induction parts with
  | nil => rfl
  | cons part parts ih => rw [regroupedList, ih, List.map_cons, regrouped]

inductive IsOperand : Tree → Prop
  | column (table name : String) : IsOperand (.column table name)
  | value (v : SqlValue) : IsOperand (.value v)
  | compared {relation : Relation} {left right : Tree} : left.IsOperand → right.IsOperand →
      IsOperand (.compared relation left right)
  | nullTest {negated : Bool} {left : Tree} : left.IsOperand → IsOperand (.nullTest negated left)
  | joined {connective : Connective} {first second : Tree} {rest : List Tree} :
      (∀ part ∈ first :: second :: rest, part.IsOperand) → IsOperand (.joined connective (first :: second :: rest))

def IsBare : Tree → Prop
  | .compared .. | .nullTest .. => True
  | _ => False

/-- No comparison has a bare one on its right. -/
inductive IsGrouped : Tree → Prop
  | column (table name : String) : IsGrouped (.column table name)
  | value (v : SqlValue) : IsGrouped (.value v)
  | compared {relation : Relation} {left right : Tree} : left.IsGrouped → right.IsGrouped → ¬ right.IsBare →
      IsGrouped (.compared relation left right)
  | nullTest {negated : Bool} {left : Tree} : left.IsGrouped → IsGrouped (.nullTest negated left)
  | joined {connective : Connective} {parts : List Tree} : (∀ part ∈ parts, part.IsGrouped) →
      IsGrouped (.joined connective parts)

/-- What is read of a sum: it ends where the row of the amount goes on. -/
def added (step : Step) (left amount : Tree) : Tree :=
  amount.chain.suffixes.foldl Suffix.apply (.sum step left amount.chain.head)

variable {tree left right : Tree}

theorem regrouped_compared (relation : Relation) (left right : Tree) :
    (compared relation left right).regrouped =
      right.chain.suffixes.foldl Suffix.apply (.compared relation left.regrouped right.chain.head) := by
  rw [regrouped, chain, Chain.tree, Chain.compared, List.foldl_append]
  rfl

theorem regrouped_nullTest (negated : Bool) (left : Tree) :
    (nullTest negated left).regrouped = .nullTest negated left.regrouped := by
  rw [regrouped, chain, Chain.tree, Chain.nullTest, List.foldl_append]
  rfl

theorem suffixes_eq_nil (atom : ¬ tree.IsBare) : tree.chain.suffixes = [] := by
  cases tree with
  | compared | nullTest => exact absurd trivial atom
  | column | value | joined | sum => rfl

theorem not_isBare_of_chain (operand : tree.IsOperand) :
    ¬ tree.chain.head.IsBare ∧
      ∀ relation right, .compared relation right ∈ tree.chain.suffixes → ¬ right.IsBare := by
  induction operand with
  | column | value | joined => exact ⟨id, fun _ _ member => absurd member List.not_mem_nil⟩
  | @compared relation left right _ _ ihLeft ihRight =>
    refine ⟨ihLeft.1, ?_⟩
    intro other operand member
    obtain member | member := List.mem_append.mp member
    · exact ihLeft.2 other operand member
    · obtain same | member := List.mem_cons.mp member
      · cases same
        exact ihRight.1
      · exact ihRight.2 other operand member
  | @nullTest negated left _ ih =>
    refine ⟨ih.1, ?_⟩
    intro other operand member
    obtain member | member := List.mem_append.mp member
    · exact ih.2 other operand member
    · cases List.mem_singleton.mp member

theorem exists_last (bare : tree.IsBare) (first : Tree) :
    ∃ last ∈ tree.chain.suffixes, ∃ before,
      tree.chain.suffixes.foldl Suffix.apply first = last.apply before := by
  have proper : tree.chain.suffixes ≠ [] := by
    cases tree with
    | compared | nullTest => simp [chain, Chain.compared, Chain.nullTest]
    | column | value | joined | sum => cases bare
  obtain ⟨before, last, split⟩ := (List.eq_nil_or_concat tree.chain.suffixes).resolve_left proper
  refine ⟨last, by simp [split], before.foldl Suffix.apply first, ?_⟩
  rw [split, List.concat_eq_append, List.foldl_append]
  rfl

theorem regrouped_compared_eq_iff (operand : right.IsOperand) (relation : Relation) :
    (compared relation left right).regrouped = .compared relation left right ↔
      left.regrouped = left ∧ right.regrouped = right ∧ ¬ right.IsBare := by
  rw [regrouped_compared]
  by_cases bare : right.IsBare
  · have apart : ¬ right.chain.suffixes.foldl Suffix.apply
        (.compared relation left.regrouped right.chain.head) = .compared relation left right := by
      obtain ⟨last, member, before, whole⟩ := exists_last bare (.compared relation left.regrouped right.chain.head)
      rw [whole]
      intro same
      -- The last comparison of the row has no bare operand, but the right one here is bare.
      cases last with
      | compared other atom =>
        obtain ⟨_, _, rfl⟩ := Tree.compared.inj same
        exact (not_isBare_of_chain operand).2 other _ member bare
      | nullTest negated => cases same
    exact iff_of_false apart fun kept => kept.2.2 bare
  · have whole : right.regrouped = right.chain.head := by rw [regrouped, Chain.tree, suffixes_eq_nil bare]; rfl
    rw [suffixes_eq_nil bare, List.foldl_nil, compared.injEq, whole]
    simp [bare]

theorem added_eq_iff {amount : Tree} (step : Step) :
    added step left amount = .sum step left amount ↔ amount.regrouped = amount ∧ ¬ amount.IsBare := by
  rw [added]
  by_cases bare : amount.IsBare
  · have apart : ¬ amount.chain.suffixes.foldl Suffix.apply (.sum step left amount.chain.head) =
        .sum step left amount := by
      obtain ⟨last, _, before, whole⟩ := exists_last bare (.sum step left amount.chain.head)
      rw [whole]
      cases last <;> exact nofun
    exact iff_of_false apart fun kept => kept.2 bare
  · have whole : amount.regrouped = amount.chain.head := by rw [regrouped, Chain.tree, suffixes_eq_nil bare]; rfl
    rw [suffixes_eq_nil bare, List.foldl_nil, sum.injEq, whole]
    simp [bare]

theorem map_regrouped_eq_iff (parts : List Tree) :
    parts.map regrouped = parts ↔ ∀ part ∈ parts, part.regrouped = part := by
  have same := List.map_inj_left (f := regrouped) (g := id) (l := parts)
  rwa [List.map_id] at same

theorem regrouped_eq_iff (operand : tree.IsOperand) : tree.regrouped = tree ↔ tree.IsGrouped := by
  induction operand with
  | column table name => exact iff_of_true rfl (.column table name)
  | value v => exact iff_of_true rfl (.value v)
  | @compared relation left right _ operandRight ihLeft ihRight =>
    rw [regrouped_compared_eq_iff operandRight, ihLeft, ihRight]
    constructor
    · rintro ⟨groupedLeft, groupedRight, atom⟩
      exact .compared groupedLeft groupedRight atom
    · intro grouped
      cases grouped with
      | compared groupedLeft groupedRight atom => exact ⟨groupedLeft, groupedRight, atom⟩
  | @nullTest negated left _ ih =>
    rw [regrouped_nullTest, nullTest.injEq, eq_self, true_and, ih]
    constructor
    · exact .nullTest
    · intro grouped
      cases grouped with
      | nullTest grouped => exact grouped
  | @joined connective first second rest _ ih =>
    have whole : (joined connective (first :: second :: rest)).regrouped =
        .joined connective ((first :: second :: rest).map regrouped) := by
      rw [regrouped, chain, regroupedList_eq_map]
      rfl
    rw [whole, joined.injEq, eq_self, true_and, map_regrouped_eq_iff]
    constructor
    · intro same
      exact .joined fun part member => (ih part member).mp (same part member)
    · intro grouped part member
      cases grouped with
      | joined grouped => exact (ih part member).mpr (grouped part member)

end Tree

end SqlComposer.Grammar
