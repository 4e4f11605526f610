import SqlComposer.Proofs.Grammar.Symbols

namespace SqlComposer.Grammar

open Sql Compose

def Relation.relate (field v : Expr) : Relation → Expr
  | .equal => .comparison .equal field v
  | .notEqual => .comparison .notEqual field v
  | .greaterThan => .comparison .greaterThan field v
  | .greaterOrEqual => .comparison .greaterOrEqual field v
  | .lowerThan => .comparison .lowerThan field v
  | .lowerOrEqual => .comparison .lowerOrEqual field v
  | .like => .like false field v
  | .notLike => .like true field v

inductive Means : Expr → Tree → Prop
  | column (table name : String) : Means (.columnOf table name) (.column table name)
  | argument {bound : Argument} {v : SqlValue} : Registry.mysql.resolve bound = .ok v →
      Means (.argument bound) (.value v)
  | compared {relation : Relation} {field v : Expr} {left right : Tree} : Means field left → Means v right →
      Means (relation.relate field v) (.compared relation left right)
  | nullTest {negated : Bool} {field : Expr} {left : Tree} : Means field left →
      Means (.nullTest negated field) (.nullTest negated left)
  | single {connective : Connective} {operands : List (Option Expr)} {part : Expr} {tree : Tree} :
      operands.filterMap present? = [part] → Means part tree →
      Means (.ofCondition (connective.connect operands)) tree
  | joined {connective : Connective} {operands : List (Option Expr)} {first second : Expr × Tree}
      {rest : List (Expr × Tree)} :
      operands.filterMap present? = (first :: second :: rest).map Prod.fst →
      (∀ part ∈ first :: second :: rest, Means part.1 part.2) →
      Means (.ofCondition (connective.connect operands))
        (.joined connective ((first :: second :: rest).map Prod.snd))

variable {expr : Expr} {tree : Tree}

namespace Means

theorem ofCondition_single {connective : Connective} {operands : List (Option Expr)} {part : Expr}
    (present : operands.filterMap present? = [part]) : Expr.ofCondition (connective.connect operands) = part := by
  rw [Connective.connect, present]
  rfl

theorem ofCondition_joined {connective : Connective} {operands : List (Option Expr)} {first second : Expr}
    {rest : List Expr} (present : operands.filterMap present? = first :: second :: rest) :
    Expr.ofCondition (connective.connect operands) = .group (.raw "(" :: first ::
      (second :: rest).flatMap (fun next => [.raw connective.text, next]) ++ [.raw ")"]) := by
  rw [Connective.connect, present]
  rfl

theorem isOperand (means : Means expr tree) : tree.IsOperand := by
  induction means with
  | column table name => exact .column table name
  | argument => exact .value _
  | compared _ _ ihLeft ihRight => exact .compared ihLeft ihRight
  | nullTest _ ih => exact .nullTest ih
  | single _ _ ih => exact ih
  | joined _ _ ih =>
    apply Tree.IsOperand.joined
    rw [← List.map_cons, ← List.map_cons, List.forall_mem_map]
    exact ih

theorem isTidy (means : Means expr tree) : expr.IsTidy := by
  induction means with
  | column | argument => exact .node (by simp [Node.fragments]) (by simp [Node.kind]) (by simp [Node.parts])
  | @compared relation _ _ _ _ _ _ ihLeft ihRight =>
    cases relation
    all_goals exact .node (by simp [Node.fragments]) (by simp [Node.kind]) (by simp [Node.parts, ihLeft, ihRight])
  | nullTest _ ih => exact .node (by simp [Node.fragments]) (by simp [Node.kind]) (by simp [Node.parts, ih])
  | single present _ ih => rwa [ofCondition_single present]
  | @joined connective _ first second rest present _ ih =>
    rw [ofCondition_joined present]
    have parts : ∀ part ∈ (first :: second :: rest).map Prod.fst, part.IsTidy := List.forall_mem_map.mpr ih
    exact .joined parts rfl

theorem pieces_relate (relation : Relation) (field v : Expr) :
    ∃ word, Registry.mysql.pieces (relation.relate field v) =
        Registry.mysql.pieces field ++ .text word :: Registry.mysql.pieces v ∧
      word.toList.head? = some ' ' ∧ Spells Anyhow [.text word] relation.tokens := by
  cases relation with
  | notLike => exact ⟨" NOT LIKE ", rfl, rfl, .text rfl fun _ _ => Option.map_map _ _ _⟩
  | like => exact ⟨" LIKE ", rfl, rfl, .text rfl fun _ _ => rfl⟩
  | equal => exact ⟨" = ", rfl, rfl, .text rfl fun _ _ => rfl⟩
  | notEqual => exact ⟨" <> ", rfl, rfl, .text rfl fun _ _ => rfl⟩
  | greaterThan => exact ⟨" > ", rfl, rfl, .text rfl fun _ _ => rfl⟩
  | greaterOrEqual => exact ⟨" >= ", rfl, rfl, .text rfl fun _ _ => rfl⟩
  | lowerThan => exact ⟨" < ", rfl, rfl, .text rfl fun _ _ => rfl⟩
  | lowerOrEqual => exact ⟨" <= ", rfl, rfl, .text rfl fun _ _ => rfl⟩

theorem spells (means : Means expr tree) : Spells Ends (Registry.mysql.pieces expr) tree.tokens := by
  induction means with
  | column table name => exact .column table name
  | argument resolved => exact .argument resolved
  | @compared relation field v _ _ _ _ ihLeft ihRight =>
    obtain ⟨word, written, blank, link⟩ := pieces_relate relation field v
    rw [written]
    exact ihLeft.linked link blank ihRight
  | nullTest _ ih => exact ih.tested _
  | single present _ ih => rwa [ofCondition_single present]
  | @joined connective _ first second rest present _ ih =>
    have row := Spells.parts (fun part : Expr × Tree => Registry.mysql.pieces part.1) Prod.snd connective first
      (second :: rest) ih
    rw [ofCondition_joined present, pieces_joined, ← List.append_assoc]
    show Spells Ends (.text "(" :: (_ ++ ((second :: rest).map Prod.fst).flatMap _ ++ _)) _
    rw [List.flatMap_map]
    exact row.parenthesized

theorem spells_adjustment (means : Means expr tree) (table name : String) (step : Step) :
    Spells Ends (Registry.mysql.pieces (.adjustment (.columnOf table name) step expr))
      (.operand (.column table name) :: .relation .equal :: .operand (.column table name) :: .step step ::
        tree.tokens) := by
  have column := Spells.column table name
  have equal : Spells Anyhow [.text " = "] [.relation .equal] := .text rfl fun _ _ => rfl
  cases step with
  | plus =>
    have link : Spells Anyhow [.text " + "] [.step .plus] := .text rfl fun _ _ => rfl
    have whole := column.linked equal rfl (column.linked link rfl means.spells)
    rwa [← List.cons_append, ← List.append_assoc] at whole
  | minus =>
    have link : Spells Anyhow [.text " - "] [.step .minus] := .text rfl fun _ _ => rfl
    have whole := column.linked equal rfl (column.linked link rfl means.spells)
    rwa [← List.cons_append, ← List.append_assoc] at whole

theorem isTidy_adjustment (means : Means expr tree) (table name : String) (step : Step) :
    (Expr.adjustment (.columnOf table name) step expr).IsTidy := by
  have column := (Means.column table name).isTidy
  exact .node (by simp [Node.fragments]) (by simp [Node.kind]) (by simp [Node.parts, column, means.isTidy])

end Means

/-- The text is read as one row, and so is what is assigned where the expression is added to a column or taken from it;
these are what was meant where no comparison has a bare one on its right. -/
structure IsReadInRows (expr : Expr) (tree : Tree) : Prop where
  read : ∃ text values, buildExpr .mysql expr = .ok (text, values) ∧ readText text values = some tree.regrouped
  meant : tree.regrouped = tree ↔ tree.IsGrouped
  assigned : ∀ table name step, ∃ text values,
    buildExpr .mysql (.adjustment (.columnOf table name) step expr) = .ok (text, values) ∧
      readAssignmentText text values = some ((table, name), .added step (.column table name) tree)
  added : ∀ table name step, Tree.added step (.column table name) tree = .sum step (.column table name) tree ↔
    tree.IsGrouped ∧ ¬ tree.IsBare

theorem operands_are_read_in_rows (means : Means expr tree) : IsReadInRows expr tree where
  read := by
    obtain ⟨text, values, built, cut⟩ := means.spells.exists_text (apart_pieces means.isTidy) "expr"
    refine ⟨text, values, built, ?_⟩
    rw [readText, cut]
    exact read_tokens means.isOperand
  meant := Tree.regrouped_eq_iff means.isOperand
  assigned table name step := by
    have apart := apart_pieces (means.isTidy_adjustment table name step)
    obtain ⟨text, values, built, cut⟩ := (means.spells_adjustment table name step).exists_text apart "expr"
    refine ⟨text, values, built, ?_⟩
    rw [readAssignmentText, cut]
    exact readAssignment_tokens means.isOperand table name step
  added table name step := by rw [Tree.added_eq_iff, Tree.regrouped_eq_iff means.isOperand]

def missing : Expr :=
  Relation.equal.relate (.nullTest false (.column "note"))
    (.ofCondition (anyOf
      [some (Relation.lowerThan.relate (.column "due") (.value (.u64 7))), none, some (.column "open")]))

def missingTree : Tree :=
  .compared .equal (.nullTest false (.column "" "note"))
    (.joined .or [.compared .lowerThan (.column "" "due") (.value (.u64 7)), .column "" "open"])

example : buildExpr .mysql missing = .ok ("`note` IS NULL = (`due` < ? OR `open`)", [.u64 7]) := rfl

theorem means_missing : Means missing missingTree := by
  have due : Means (Relation.lowerThan.relate (.column "due") (.value (.u64 7)))
      (.compared .lowerThan (.column "" "due") (.value (.u64 7))) := .compared (.column _ _) (.argument rfl)
  have isOpen : Means (.column "open") (.column "" "open") := .column _ _
  have parts : ∀ part ∈ [(_, _), (_, _)], Means part.1 part.2 :=
    List.forall_mem_cons.mpr ⟨due, List.forall_mem_singleton.mpr isOpen⟩
  apply Means.compared
  · exact .nullTest (.column _ _)
  · refine .joined ?_ parts
    rfl

theorem isGrouped_missing : missingTree.IsGrouped := by
  have note := Tree.IsGrouped.column "" "note"
  have due : (Tree.compared .lowerThan (.column "" "due") (.value (.u64 7))).IsGrouped :=
    .compared (.column _ _) (.value _) id
  have parts : ∀ part ∈ [_, _], Tree.IsGrouped part :=
    List.forall_mem_cons.mpr ⟨due, List.forall_mem_singleton.mpr (.column "" "open")⟩
  exact .compared (.nullTest note) (.joined parts) id

theorem missing_is_read_as_meant :
    Means missing missingTree ∧
      (∃ text values, buildExpr .mysql missing = .ok (text, values) ∧ readText text values = some missingTree) ∧
      ∃ text values, buildExpr .mysql (.adjustment (.column "count") .minus missing) = .ok (text, values) ∧
        readAssignmentText text values = some (("", "count"), .compared .equal
          (.nullTest false (.sum .minus (.column "" "count") (.column "" "note")))
          (.joined .or [.compared .lowerThan (.column "" "due") (.value (.u64 7)), .column "" "open"])) := by
  have rows := operands_are_read_in_rows means_missing
  have meant := rows.meant.mpr isGrouped_missing
  have read := rows.read
  rw [meant] at read
  exact ⟨means_missing, read, rows.assigned "" "count" .minus⟩

def nested : Expr :=
  Relation.equal.relate (.column "a") (Relation.equal.relate (.column "b") (.value (.string "c")))

def nestedTree : Tree := .compared .equal (.column "" "a") (.compared .equal (.column "" "b") (.value (.string "c")))

theorem nested_comparison_is_regrouped :
    Means nested nestedTree ∧
      buildExpr .mysql nested = .ok ("`a` = `b` = ?", [.string "c"]) ∧
      readText "`a` = `b` = ?" [.string "c"] =
        some (.compared .equal (.compared .equal (.column "" "a") (.column "" "b")) (.value (.string "c"))) ∧
      readText "`a` = `b` = ?" [.string "c"] ≠ some nestedTree ∧
      buildExpr .mysql (.adjustment (.column "n") .plus nested) = .ok ("`n` = `n` + `a` = `b` = ?", [.string "c"]) ∧
      readAssignmentText "`n` = `n` + `a` = `b` = ?" [.string "c"] ≠
        some (("", "n"), .sum .plus (.column "" "n") nestedTree) := by
  have inner : Means (Relation.equal.relate (.column "b") (.value (.string "c")))
      (.compared .equal (.column "" "b") (.value (.string "c"))) := .compared (.column _ _) (.argument rfl)
  exact ⟨.compared (.column _ _) inner, rfl, rfl, nofun, rfl, nofun⟩

end SqlComposer.Grammar
