import SqlComposer.Sql.Expr

namespace SqlComposer.Sql

variable {α β γ : Type}

def Join.parts (join : Join α) : List α := join.condition.toList

def Query.parts (query : Query α) : List α :=
  query.projections ++ query.joins.flatMap Join.parts ++ query.condition.toList ++ query.groups ++
  query.having.toList ++ query.sorts ++ query.lock.toList

def Node.parts : Node α → List α
  | .column .. | .lock _ | .raw _ | .argument _ => []
  | .comparison _ a b | .like _ a b | .range a b | .assignment a b | .adjustment a _ b => [a, b]
  | .nullTest _ a | .sort a _ | .aggregate _ a | .labelled a _ | .cast a _ => [a]
  | .group parts | .call _ parts | .jsonCall _ parts | .tuple parts => parts
  | .existence _ query | .subquery query => query.parts

theorem Join.map_congr {f g : α → β} {join : Join α} (same : ∀ part ∈ join.parts, f part = g part) :
    join.map f = join.map g := by
  rw [Join.map, Join.map, Option.map_congr fun part given => same part (Option.mem_toList.mpr given)]

theorem Query.map_congr {f g : α → β} {query : Query α} (same : ∀ part ∈ query.parts, f part = g part) :
    query.map f = query.map g := by
  simp only [Query.parts, List.mem_append, List.mem_flatMap, or_imp, forall_and, forall_exists_index,
    and_imp] at same
  obtain ⟨⟨⟨⟨⟨⟨projections, joins⟩, condition⟩, groups⟩, having⟩, sorts⟩, lock⟩ := same
  have sameJoins : query.joins.map (·.map f) = query.joins.map (·.map g) :=
    List.map_congr_left fun join member => Join.map_congr fun part => joins part join member
  have sameCondition : query.condition.map f = query.condition.map g :=
    Option.map_congr fun part given => condition part (Option.mem_toList.mpr given)
  have sameHaving : query.having.map f = query.having.map g :=
    Option.map_congr fun part given => having part (Option.mem_toList.mpr given)
  have sameLock : query.lock.map f = query.lock.map g :=
    Option.map_congr fun part given => lock part (Option.mem_toList.mpr given)
  simp only [Query.map, sameJoins, sameCondition, sameHaving, sameLock, List.map_congr_left projections,
    List.map_congr_left groups, List.map_congr_left sorts]

theorem Node.map_congr {f g : α → β} {node : Node α} (same : ∀ part ∈ node.parts, f part = g part) :
    node.map f = node.map g := by
  cases node with
  | existence negated query => exact congrArg (Node.existence negated) (Query.map_congr same)
  | subquery query => exact congrArg Node.subquery (Query.map_congr same)
  | _ => simp_all [Node.parts, Node.map]

theorem Query.map_map (f : α → β) (g : β → γ) (query : Query α) :
    (query.map f).map g = query.map (g ∘ f) := by
  simp [Query.map, Join.map, Function.comp_def]

theorem Node.map_map (f : α → β) (g : β → γ) (node : Node α) : (node.map f).map g = node.map (g ∘ f) := by
  cases node <;> simp [Node.map, Query.map_map]

@[simp] theorem Join.map_id (join : Join α) : join.map id = join := by
  simp [Join.map]

@[simp] theorem Query.map_id (query : Query α) : query.map id = query := by
  simp [Query.map]

@[simp] theorem Node.map_id (node : Node α) : node.map id = node := by
  cases node <;> simp [Node.map]

@[simp] theorem Query.parts_map (f : α → β) (query : Query α) : (query.map f).parts = query.parts.map f := by
  simp [Query.map, Query.parts, Join.parts, Join.map, List.map_flatMap, List.flatMap_map,
    Option.toList_map]

@[simp] theorem Node.parts_map (f : α → β) (node : Node α) : (node.map f).parts = node.parts.map f := by
  cases node <;> simp [Node.map, Node.parts]

namespace Expr

section Induction

variable {P : Expr → Prop} (step : ∀ node, (∀ part ∈ node.parts, P part) → P (.ofNode node))

include step

set_option linter.unusedSectionVars false in
mutual

theorem induction : ∀ expr, P expr
  | .ofNode node => step node (inductionNode node)

theorem inductionNode : ∀ node : Node Expr, ∀ part ∈ node.parts, P part
  | .column .. | .lock _ | .raw _ | .argument _ => by simp [Node.parts]
  | .comparison _ a b | .like _ a b | .range a b | .assignment a b | .adjustment a _ b => by
    simp [Node.parts, induction a, induction b]
  | .nullTest _ a | .sort a _ | .aggregate _ a | .labelled a _ | .cast a _ => by
    simp [Node.parts, induction a]
  | .group parts | .call _ parts | .jsonCall _ parts | .tuple parts => inductionList parts
  | .existence _ query | .subquery query => inductionQuery query

theorem inductionQuery : ∀ query : Query Expr, ∀ part ∈ query.parts, P part
  | ⟨_, _, _, projections, joins, condition, groups, having, sorts, _, _, lock⟩ => by
    simp only [Query.parts, List.mem_append, List.mem_flatMap, or_imp, forall_and]
    exact ⟨⟨⟨⟨⟨⟨inductionList projections, fun part ⟨join, member, inside⟩ =>
      inductionJoins joins join member part inside⟩, inductionOption condition⟩, inductionList groups⟩,
      inductionOption having⟩, inductionList sorts⟩, inductionOption lock⟩

theorem inductionJoins : ∀ joins : List (Join Expr), ∀ join ∈ joins, ∀ part ∈ join.parts, P part
  | [] => by simp
  | ⟨_, _, _, condition⟩ :: joins => by
    intro join member
    rcases List.mem_cons.mp member with rfl | member
    · exact inductionOption condition
    · exact inductionJoins joins join member

theorem inductionOption : ∀ expr : Option Expr, ∀ part ∈ expr.toList, P part
  | none => by simp
  | some expr => by simp [induction expr]

theorem inductionList : ∀ exprs : List Expr, ∀ part ∈ exprs, P part
  | [] => by simp
  | expr :: exprs => by simpa using ⟨induction expr, inductionList exprs⟩

end

end Induction

theorem map_fold {step : Node α → α} {image : Node β → β} {f : α → β}
    (commutes : ∀ node, f (step node) = image (node.map f)) (expr : Expr) :
    f (expr.fold step) = expr.fold image := by
  induction expr using induction with
  | step node parts =>
    rw [fold_ofNode, fold_ofNode, commutes, Node.map_map]
    exact congrArg image (Node.map_congr parts)

end Expr

end SqlComposer.Sql
