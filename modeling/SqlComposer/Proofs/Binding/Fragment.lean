import SqlComposer.Proofs.Writing.Layout

namespace SqlComposer.Sql

def Expr.IsPlain (expr : Expr) : Prop := ∀ fragment ∈ expr.fragments, Sql.IsPlain fragment

instance (expr : Expr) : Decidable expr.IsPlain :=
  inferInstanceAs (Decidable (∀ fragment ∈ expr.fragments, _))

theorem Expr.isPlain_ofNode {node : Node Expr} :
    (Expr.ofNode node).IsPlain ↔
      (∀ fragment ∈ node.fragments, Sql.IsPlain fragment) ∧ ∀ part ∈ node.parts, part.IsPlain := by
  simp only [Expr.IsPlain, fragments_ofNode, List.mem_append, List.mem_flatMap, or_imp, forall_and,
    forall_exists_index, and_imp]
  exact and_congr_right fun _ => ⟨fun h part member fragment => h fragment part member,
    fun h fragment part member => h part member fragment⟩

end SqlComposer.Sql

namespace SqlComposer.Compose

open Sql

def Pieces.ArePlain (pieces : Pieces) : Prop := ∀ text, Piece.text text ∈ pieces → IsPlain text

theorem arePlain_flatten {parts : List Pieces} (plain : ∀ part ∈ parts, Pieces.ArePlain part) :
    Pieces.ArePlain parts.flatten := by
  intro text member
  obtain ⟨part, inside, member⟩ := List.mem_flatten.mp member
  exact plain part inside text member

theorem keptByLayout_arePlain : KeptByLayout IsPlain fun _ => Pieces.ArePlain where
  plain _ plain := plain
  opening name plain := isPlain_append.mpr ⟨plain, by decide⟩
  nil _ := by simp [Pieces.ArePlain]
  single text plain := by simpa [Pieces.ArePlain] using plain
  text _ text pieces plain _ rest := by simpa [Pieces.ArePlain] using ⟨plain, rest⟩
  identifier name pieces rest := by simpa [Pieces.ArePlain] using rest
  argument bound := by simp [Pieces.ArePlain]
  fault _ reason := by simp [Pieces.ArePlain]
  append _ a b first second := by simpa [Pieces.ArePlain, or_imp, forall_and] using ⟨first, second⟩

theorem arePlain_nodePieces {node : Node Pieces} (fragments : ∀ fragment ∈ node.fragments, IsPlain fragment)
    (parts : ∀ part ∈ node.parts, Pieces.ArePlain part) : Pieces.ArePlain (nodePieces node) := by
  by_cases group : node.kind = .group
  · cases node with
    | group items => exact arePlain_flatten parts
    | _ => cases group
  · exact keptByLayout_arePlain.nodePieces fragments group parts

theorem arePlain_pieces {expr : Expr} (plain : expr.IsPlain) : (Registry.mysql.pieces expr).ArePlain := by
  rw [Registry.pieces_mysql]
  induction expr using Expr.induction with
  | step node ih =>
    obtain ⟨fragments, parts⟩ := Expr.isPlain_ofNode.mp plain
    rw [Expr.fold_ofNode]
    apply arePlain_nodePieces
    · simpa using fragments
    · simp only [Node.parts_map, List.mem_map, forall_exists_index, and_imp, forall_apply_eq_imp_iff₂]
      exact fun part member => ih part member (parts part member)

def Command.IsPlain (command : Command) : Prop := ∀ expr ∈ command.exprs, expr.IsPlain

theorem isPlain_join {connective : Connective} {operands : List Expr}
    (plain : ∀ operand ∈ operands, operand.IsPlain) :
    ∀ expr ∈ (connective.join? operands).toList, expr.IsPlain := by
  have word : Sql.IsPlain connective.text := by cases connective <;> decide
  match operands with
  | [] => simp [Connective.join?]
  | [operand] => simpa [Connective.join?] using plain
  | first :: second :: rest =>
    simp_all [Connective.join?, Expr.group, Expr.raw, Expr.isPlain_ofNode, Node.fragments, Node.parts,
      or_imp, forall_and]
    decide

theorem keptByConditions_isPlain : KeptByConditions Expr.IsPlain where
  join _ _ := isPlain_join
  comparison operator field v plainField plainValue := by
    simp [Expr.comparison, Expr.isPlain_ofNode, Node.fragments, Node.parts, plainField, plainValue]
  sorted field order plain := (Expr.isPlain_ofNode.mp plain).2 field (by simp [Node.parts])

theorem arePlain_command {command : Command} (plain : command.IsPlain) :
    Pieces.ArePlain (command.pieces .mysql) :=
  keptByLayout_arePlain.command (fun _ => arePlain_pieces) keptByConditions_isPlain plain

end SqlComposer.Compose
