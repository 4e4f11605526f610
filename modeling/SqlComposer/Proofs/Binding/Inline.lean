import SqlComposer.Compose.Command
import SqlComposer.Proofs.Expression.Parts

namespace SqlComposer.Compose

open Sql

inductive Mark
  | char (c : Char)
  | value (v : SqlValue)

abbrev Inline := Except BuildError (List Mark)

instance : Append Inline where
  append a b := do return (← a) ++ (← b)

namespace Inline

def text (text : String) : Inline := .ok (text.toList.map .char)

def name (name : String) : Inline := text (quote name)

def argument (bound : Argument) : Inline :=
  match bound.outcome with
  | .ok v => (mysqlEncoder v.kind v).map fun encoded => [.value encoded]
  | .error reason => .error (.noValue reason)

def concat : List Inline → Inline
  | [] => text ""
  | first :: rest => first ++ concat rest

def separated (separator : String) : List Inline → Inline
  | [] => text ""
  | [last] => last
  | first :: rest => first ++ text separator ++ separated separator rest

def clause (keyword : String) : Option Inline → Inline
  | none => text ""
  | some condition => text keyword ++ condition

def listClause (keyword : String) (items : List Inline) : Inline :=
  if items.isEmpty then text "" else text keyword ++ separated "," items

section

variable (operation : String)

def table (database table : String) : Inline :=
  if table = "" then .error (.emptyTable operation) else text (quoteTable database table)

def join (database : String) (join : Join Inline) : Inline :=
  text " " ++ text join.kind.text ++ text " " ++ table operation database join.table ++
  (if join.label = "" then text "" else text " AS " ++ name join.label) ++ clause " ON " join.condition

def query (query : Query Inline) : Inline :=
  text "SELECT " ++ text (if query.distinct then "DISTINCT " else "") ++
  (if query.projections.isEmpty then text "*" else separated "," query.projections) ++
  text " FROM " ++ table operation query.database query.table ++
  concat (query.joins.map (join operation query.database)) ++ clause " WHERE " query.condition ++
  listClause " GROUP BY " query.groups ++ clause " HAVING " query.having ++
  listClause " ORDER BY " query.sorts ++ text (limitText query.count query.skip) ++ clause " " query.lock

def node : Node Inline → Inline
  | .column table column =>
    (if table = "" then text "" else name table ++ text ".") ++ (if column = "*" then text "*" else name column)
  | .comparison .memberOf field value => value ++ text " MEMBER OF(" ++ field ++ text ")"
  | .comparison operator field value => field ++ text (" " ++ operator.text ++ " ") ++ value
  | .like negated field value => field ++ text (if negated then " NOT LIKE " else " LIKE ") ++ value
  | .nullTest negated field => field ++ text (if negated then " IS NOT NULL" else " IS NULL")
  | .range low high => low ++ text " AND " ++ high
  | .group parts => concat parts
  | .sort field order => field ++ text (if order = .ascending then "" else " DESC")
  | .assignment field value => field ++ text " = " ++ value
  | .adjustment field step amount =>
    field ++ text " = " ++ field ++ text (if step = .plus then " + " else " - ") ++ amount
  | .aggregate function field => text (aggregateOpening function) ++ field ++ text ")"
  | .call function arguments | .jsonCall function arguments =>
    text function ++ text "(" ++ separated "," arguments ++ text ")"
  | .lock mode => text (lockText mode)
  | .raw words => text words
  | .labelled field label => field ++ text " AS " ++ name label
  | .cast value type => text "CAST(" ++ value ++ text " AS " ++ text type.text ++ text ")"
  | .tuple items => text "(" ++ separated "," items ++ text ")"
  | .existence negated inner =>
    text (if negated then "NOT EXISTS (" else "EXISTS (") ++ query operation inner ++ text ")"
  | .subquery inner => text "(" ++ query operation inner ++ text ")"
  | .argument bound => argument bound

def expr (expr : Expr) : Inline := expr.fold (node operation)

def nothingToWrite : Inline := .error (.nothingToWrite operation)

def tail (condition : Option Expr) (sorts : List Expr) (count : UInt64) : Inline :=
  clause " WHERE " (condition.map (expr operation)) ++ listClause " ORDER BY " (sorts.map (expr operation)) ++
  text (limitText count 0)

def update (update : Update) : Inline :=
  text "UPDATE " ++ table operation update.database update.table ++
  (if update.assignments.isEmpty then nothingToWrite operation
    else text " SET " ++ separated "," (update.assignments.map (expr operation))) ++
  tail operation update.condition update.sorts update.count

def delete (delete : Delete) : Inline :=
  text "DELETE FROM " ++ table operation delete.database delete.table ++
  tail operation delete.condition delete.sorts delete.count

def row (row : List Expr) : Inline := text "(" ++ separated "," (row.map (expr operation)) ++ text ")"

def conflict (columns : List String) : Inline :=
  text " ON DUPLICATE KEY UPDATE " ++ separated "," (columns.map fun column =>
    name column ++ text " = VALUES(" ++ name column ++ text ")")

def insert (insert : Insert) : Inline :=
  text "INSERT " ++ text (if insert.ignore then "IGNORE " else "") ++ text "INTO " ++
  table operation insert.database insert.table ++
  (if insert.columns.isEmpty || insert.rows.isEmpty then nothingToWrite operation
    else text " (" ++ separated "," (insert.columns.map name) ++ text ") VALUES " ++
      separated "," (insert.rows.map (row operation))) ++
  (match insert.updatedColumns? with
    | none => text ""
    | some columns => conflict columns)

def select (query : Select) : Inline := Inline.query operation (query.map (expr operation))

end

def command (command : Command) : Inline :=
  match command with
  | .find q => select command.operation q
  | .findOne q => select command.operation q.first
  | .page p => select command.operation p.toQuery
  | .update u => update command.operation u
  | .updateOne u => update command.operation u.first
  | .delete d => delete command.operation d
  | .deleteOne d => delete command.operation d.first
  | .insert i => insert command.operation i

theorem append_assoc (a b c : Inline) : a ++ b ++ c = a ++ (b ++ c) := by
  cases a with
  | error => rfl
  | ok a => cases b with
    | error => rfl
    | ok b => cases c with
      | error => rfl
      | ok c => exact congrArg Except.ok (List.append_assoc a b c)

@[simp] theorem empty_append (a : Inline) : text "" ++ a = a := by
  cases a <;> rfl

@[simp] theorem append_empty (a : Inline) : a ++ text "" = a := by
  cases a with
  | error => rfl
  | ok a => exact congrArg Except.ok (List.append_nil a)

theorem text_append (a b : String) : text (a ++ b) = text a ++ text b := by
  simp only [text, String.toList_append, List.map_append]
  rfl

section

variable (operation : String)

def ofPiece : Piece → Inline
  | .text words => text words
  | .identifier label => name label
  | .argument bound => argument bound
  | .fault fault => .error (fault.error operation)

def ofPieces : Pieces → Inline
  | [] => text ""
  | piece :: pieces => ofPiece operation piece ++ ofPieces pieces

@[simp] theorem ofPieces_append (a b : Pieces) :
    ofPieces operation (a ++ b) = ofPieces operation a ++ ofPieces operation b := by
  induction a with
  | nil => simp [ofPieces]
  | cons piece pieces ih => simp [ofPieces, ih, append_assoc]

@[simp] theorem ofPieces_flatten (parts : List Pieces) :
    ofPieces operation parts.flatten = concat (parts.map (ofPieces operation)) := by
  induction parts with
  | nil => rfl
  | cons part parts ih => simp [concat, ih]

@[simp] theorem ofPieces_separated (separator : String) (items : List Pieces) :
    ofPieces operation (Pieces.separated separator items) =
      separated separator (items.map (ofPieces operation)) := by
  induction items with
  | nil => rfl
  | cons item items ih => cases items with
    | nil => simp [separated]
    | cons next items => simp_all [ofPieces, ofPiece, separated, append_assoc]

@[simp] theorem ofPieces_clause (keyword : String) (condition : Option Pieces) :
    ofPieces operation (Pieces.clause keyword condition) =
      clause keyword (condition.map (ofPieces operation)) := by
  cases condition <;> rfl

@[simp] theorem ofPieces_listClause (keyword : String) (items : List Pieces) :
    ofPieces operation (Pieces.listClause keyword items) =
      listClause keyword (items.map (ofPieces operation)) := by
  cases items <;> simp [Pieces.listClause, listClause, ofPieces, ofPiece]

@[simp] theorem ofPieces_table (database name : String) :
    ofPieces operation (Pieces.table database name) = table operation database name := by
  unfold Pieces.table table
  split
  · rfl
  · split <;> simp_all [ofPieces, ofPiece, Inline.name, quoteTable, text_append, append_assoc]

theorem ofPieces_joinPieces (database : String) (join : Join Pieces) :
    ofPieces operation (joinPieces database join) =
      Inline.join operation database (join.map (ofPieces operation)) := by
  unfold joinPieces Inline.join
  by_cases label : join.label = "" <;>
    simp [ofPieces, ofPiece, Join.map, label, text_append, append_assoc]

theorem ofPieces_queryPieces (query : Query Pieces) :
    ofPieces operation (queryPieces query) = Inline.query operation (query.map (ofPieces operation)) := by
  have joins : ofPieces operation (query.joins.flatMap (joinPieces query.database)) =
      concat (query.joins.map fun join =>
        Inline.join operation query.database (join.map (ofPieces operation))) := by
    simp [List.flatMap_def, Function.comp_def, ofPieces_joinPieces]
  have opening : text "SELECT DISTINCT " = text "SELECT " ++ text "DISTINCT " := rfl
  by_cases everything : query.projections = [] <;> cases distinct : query.distinct <;>
    simp [queryPieces, Inline.query, Query.map, ofPieces, ofPiece, everything, distinct, joins, opening,
      append_assoc, Function.comp_def]

theorem ofPieces_nodePieces (node : Node Pieces) :
    ofPieces operation (nodePieces node) = Inline.node operation (node.map (ofPieces operation)) := by
  cases node with
  | column table name =>
    simp only [nodePieces, columnPieces, Node.map, Inline.node]
    split <;> split <;> simp [ofPieces, ofPiece, append_assoc]
  | comparison operator field value =>
    cases operator <;> simp [nodePieces, Node.map, Inline.node, ofPieces, ofPiece, append_assoc]
  | sort field order =>
    cases order <;> simp [nodePieces, Node.map, Inline.node, ofPieces, ofPiece]
  | adjustment field step amount =>
    cases step <;> simp [nodePieces, Node.map, Inline.node, ofPieces, ofPiece, append_assoc]
  | existence negated query | subquery query =>
    simp [nodePieces, Node.map, Inline.node, ofPieces, ofPiece, ofPieces_queryPieces, append_assoc]
  | _ =>
    simp [nodePieces, callPieces, Node.map, Inline.node, ofPieces, ofPiece, text_append, append_assoc]

theorem ofPieces_pieces (e : Expr) :
    ofPieces operation (Registry.mysql.pieces e) = expr operation e := by
  rw [Registry.pieces_mysql, expr, Expr.map_fold (ofPieces_nodePieces operation)]

theorem ofPieces_selectPieces (query : Select) :
    ofPieces operation (selectPieces .mysql query) = select operation query := by
  rw [selectPieces, select, ofPieces_queryPieces, Query.map_map]
  exact congrArg _ (Query.map_congr fun part _ => ofPieces_pieces operation part)

theorem ofPieces_tailPieces (condition : Option Expr) (sorts : List Expr) (count : UInt64) :
    ofPieces operation (tailPieces .mysql condition sorts count) = tail operation condition sorts count := by
  simp [tailPieces, tail, ofPieces, ofPiece, ofPieces_pieces, append_assoc, Function.comp_def]

theorem ofPieces_updatePieces (statement : Update) :
    ofPieces operation (updatePieces .mysql statement) = update operation statement := by
  simp [updatePieces, update, ofPieces, ofPiece, Fault.error, nothingToWrite, ofPieces_pieces,
    ofPieces_tailPieces, append_assoc, Function.comp_def, apply_ite (ofPieces operation)]

theorem ofPieces_deletePieces (statement : Delete) :
    ofPieces operation (deletePieces .mysql statement) = delete operation statement := by
  simp [deletePieces, delete, ofPieces, ofPiece, ofPieces_tailPieces, append_assoc]

theorem ofPieces_insertPieces (statement : Insert) :
    ofPieces operation (insertPieces .mysql statement) = insert operation statement := by
  have rows : (fun row' => ofPieces operation (rowPieces .mysql row')) = row operation := by
    funext items
    simp [rowPieces, row, ofPieces, ofPiece, ofPieces_pieces, append_assoc, Function.comp_def]
  have opening : text "INSERT IGNORE INTO " = text "INSERT " ++ (text "IGNORE " ++ text "INTO ") := rfl
  have plainOpening : text "INSERT INTO " = text "INSERT " ++ text "INTO " := rfl
  unfold insertPieces insert
  cases statement.updatedColumns? <;> cases statement.ignore <;>
    simp [conflictPieces, conflict, ofPieces, ofPiece, Fault.error, nothingToWrite, rows, opening,
      plainOpening, append_assoc, Function.comp_def, apply_ite (ofPieces operation)]

end

theorem ofPieces_command (c : Command) :
    ofPieces c.operation (c.pieces .mysql) = command c := by
  cases c <;>
    simp [Command.pieces, command, ofPieces_selectPieces, ofPieces_updatePieces, ofPieces_deletePieces,
      ofPieces_insertPieces]

end Inline

end SqlComposer.Compose
