import SqlComposer.Compose.Command
import SqlComposer.Proofs.Expression.Parts

namespace SqlComposer.Sql

variable {α β : Type}

/-- Empty names stay empty and the star stays the star, since both have a meaning of their own. -/
structure Substitution where
  name : String → String := id
  argument : Argument → Argument := id
  name_eq_empty (n : String) : name n = "" ↔ n = "" := by simp
  name_eq_star (n : String) : name n = "*" ↔ n = "*" := by simp

namespace Substitution

attribute [simp] name_eq_empty name_eq_star

def blank : Substitution where
  argument _ := .value .null

variable (s : Substitution)

def join (join : Join α) : Join α := { join with table := s.name join.table, label := s.name join.label }

def query (query : Query α) : Query α :=
  { query with
    database := s.name query.database
    table := s.name query.table
    joins := query.joins.map s.join }

def node : Node α → Node α
  | .column table name => .column (s.name table) (s.name name)
  | .labelled field label => .labelled field (s.name label)
  | .existence negated query => .existence negated (s.query query)
  | .subquery query => .subquery (s.query query)
  | .argument bound => .argument (s.argument bound)
  | node => node

theorem map_query (f : α → β) (query : Query α) : (s.query query).map f = s.query (query.map f) := by
  simp [Substitution.query, Query.map, join, Join.map, Function.comp_def]

theorem map_node (f : α → β) (node : Node α) : (s.node node).map f = s.node (node.map f) := by
  cases node <;> simp [Substitution.node, Node.map, map_query]

@[simp] theorem isZero_node (node : Node α) : (s.node node).isZero = node.isZero := by
  cases node <;> simp [Substitution.node, Node.isZero, Bool.beq_eq_decide_eq]

def expr (expr : Expr) : Expr := expr.fold fun node => .ofNode (s.node node)

theorem expr_ofNode (node : Node Expr) : s.expr (.ofNode node) = .ofNode (s.node (node.map s.expr)) := by
  rw [expr, Expr.fold_ofNode]
  rfl

@[simp] theorem isZero_expr (expr : Expr) : (s.expr expr).isZero = expr.isZero := by
  obtain ⟨node⟩ := expr
  rw [expr_ofNode]
  simp [Expr.isZero, Expr.node]

def select (query : Select) : Select := s.query (query.map s.expr)

theorem present?_map (operand : Option Expr) : present? (operand.map s.expr) = (present? operand).map s.expr := by
  cases operand with
  | none => rfl
  | some expr => cases zero : expr.isZero <;> simp [present?, Option.filter, zero]

theorem expr_raw (text : String) : s.expr (.raw text) = .raw text := by
  rw [Expr.raw, expr_ofNode]
  rfl

theorem expr_group (parts : List Expr) : s.expr (.group parts) = .group (parts.map s.expr) := by
  rw [Expr.group, expr_ofNode]
  rfl

theorem join?_map (connective : Connective) (operands : List Expr) :
    connective.join? (operands.map s.expr) = (connective.join? operands).map s.expr := by
  match operands with
  | [] | [operand] => rfl
  | first :: second :: rest =>
    simp [Connective.join?, expr_group, expr_raw, List.map_flatMap, List.flatMap_map]

theorem connect_map (connective : Connective) (operands : List (Option Expr)) :
    connective.connect (operands.map (Option.map s.expr)) = (connective.connect operands).map s.expr := by
  rw [Connective.connect, Connective.connect, ← join?_map, List.filterMap_map, List.map_filterMap]
  congr 2
  funext operand
  exact s.present?_map operand

theorem sortColumn_expr (expr : Expr) : sortColumn (s.expr expr) = (sortColumn expr).map s.expr id := by
  obtain ⟨node⟩ := expr
  rw [expr_ofNode]
  cases node with
  | sort field order => rfl
  | _ => simp [Node.map, Substitution.node, sortColumn, expr_ofNode]

theorem comparison_expr (operator : Operator) (field v : Expr) :
    Expr.comparison operator (s.expr field) (s.expr v) = s.expr (.comparison operator field v) := by
  rw [Expr.comparison, Expr.comparison, expr_ofNode]
  rfl

theorem beyond_expr (order : Order) (field v : Expr) :
    beyond order (s.expr field) (s.expr v) = s.expr (beyond order field v) := by
  cases order <;> exact s.comparison_expr _ field v

theorem keysetBranches_map (equal : List Expr) (keys : List ((Expr × Order) × Expr)) :
    keysetBranches (equal.map s.expr) (keys.map (Prod.map (Prod.map s.expr id) s.expr)) =
      (keysetBranches equal keys).map (Option.map s.expr) := by
  induction keys generalizing equal with
  | nil => rfl
  | cons key keys ih =>
    obtain ⟨⟨field, order⟩, v⟩ := key
    have branch : allOf (((equal.map s.expr) ++ [beyond order (s.expr field) (s.expr v)]).map some) =
        (allOf ((equal ++ [beyond order field v]).map some)).map s.expr := by
      rw [allOf, allOf, ← connect_map, beyond_expr]
      simp [Function.comp_def]
    have rest := ih (equal ++ [Expr.equal field v])
    rw [List.map_append, List.map_singleton, Expr.equal, ← comparison_expr] at rest
    simp only [keysetBranches, List.map_cons, Prod.map, id_eq, branch]
    exact congrArg _ rest

theorem keyset_map (sorts cursor : List Expr) :
    keyset (sorts.map s.expr) (cursor.map s.expr) = (keyset sorts cursor).map s.expr := by
  have keys : ((sorts.map s.expr).map sortColumn).zip (cursor.map s.expr) =
      ((sorts.map sortColumn).zip cursor).map (Prod.map (Prod.map s.expr id) s.expr) := by
    rw [← List.zip_map, List.map_map, List.map_map]
    congr 2
    funext expr
    exact s.sortColumn_expr expr
  rw [keyset, keyset, anyOf, anyOf, ← connect_map, ← keysetBranches_map, keys]
  rfl

def page (page : Page) : Page := ⟨s.select page.query, page.cursor.map s.expr⟩

theorem toQuery_page (page : Page) : (s.page page).toQuery = s.select page.toQuery := by
  have conditions : allOf [page.query.condition.map s.expr,
        keyset (page.query.sorts.map s.expr) (page.cursor.map s.expr)] =
      (allOf [page.query.condition, keyset page.query.sorts page.cursor]).map s.expr := by
    rw [keyset_map, allOf, allOf, ← connect_map]
    rfl
  simp only [Page.toQuery, Substitution.page, select, query, Query.filtered, Query.map, conditions]

def update (update : Update) : Update :=
  { update with
    database := s.name update.database
    table := s.name update.table
    condition := update.condition.map s.expr
    assignments := update.assignments.map s.expr
    sorts := update.sorts.map s.expr }

def delete (delete : Delete) : Delete :=
  { delete with
    database := s.name delete.database
    table := s.name delete.table
    condition := delete.condition.map s.expr
    sorts := delete.sorts.map s.expr }

def insert (insert : Insert) : Insert :=
  { insert with
    database := s.name insert.database
    table := s.name insert.table
    columns := insert.columns.map s.name
    rows := insert.rows.map (List.map s.expr)
    onDuplicate := insert.onDuplicate.map (List.map s.name) }

def command : Compose.Command → Compose.Command
  | .find q => .find (s.select q)
  | .findOne q => .findOne (s.select q)
  | .page p => .page (s.page p)
  | .update u => .update (s.update u)
  | .updateOne u => .updateOne (s.update u)
  | .delete d => .delete (s.delete d)
  | .deleteOne d => .deleteOne (s.delete d)
  | .insert i => .insert (s.insert i)

@[simp] theorem join_empty (join : Join α) : Substitution.join {} join = join := rfl

@[simp] theorem query_empty (query : Query α) : Substitution.query {} query = query := by
  simp [Substitution.query, funext join_empty]

@[simp] theorem node_empty (node : Node α) : Substitution.node {} node = node := by
  cases node <;> simp [Substitution.node]

@[simp] theorem expr_empty (expr : Expr) : Substitution.expr {} expr = expr := by
  induction expr using Expr.induction with
  | step node ih =>
    have parts : node.map (Substitution.expr {}) = node.map id := Node.map_congr ih
    rw [expr_ofNode, parts, Node.map_id, node_empty]

@[simp] theorem command_empty (command : Compose.Command) : Substitution.command {} command = command := by
  have exprs : Substitution.expr {} = id := funext expr_empty
  cases command <;> simp [Substitution.command, select, page, update, delete, insert, exprs]

end Substitution

end SqlComposer.Sql
