import SqlComposer.Compose.Statement
import SqlComposer.Sql.Change
import SqlComposer.Sql.Select

namespace SqlComposer.Compose

open Sql

inductive Command
  | find (query : Select)
  | findOne (query : Select)
  | page (page : Page)
  | update (update : Update)
  | updateOne (update : Update)
  | delete (delete : Delete)
  | deleteOne (delete : Delete)
  | insert (insert : Insert)

namespace Command

def operation : Command → String
  | .find _ => "find"
  | .findOne _ => "find_one"
  | .page _ => "paginate"
  | .update _ => "update"
  | .updateOne _ => "update_one"
  | .delete _ => "delete"
  | .deleteOne _ => "delete_one"
  | .insert _ => "insert"

end Command

section Layout

variable (registry : Registry)

def selectPieces (query : Select) : Pieces := queryPieces (query.map registry.pieces)

def tailPieces (condition : Option Expr) (sorts : List Expr) (count : UInt64) : Pieces :=
  Pieces.clause " WHERE " (condition.map registry.pieces) ++
  Pieces.listClause " ORDER BY " (sorts.map registry.pieces) ++
  [.text (limitText count 0)]

def updatePieces (update : Update) : Pieces :=
  .text "UPDATE " :: Pieces.table update.database update.table ++
  (if update.assignments.isEmpty then [.fault .nothingToWrite]
    else .text " SET " :: Pieces.separated "," (update.assignments.map registry.pieces)) ++
  tailPieces registry update.condition update.sorts update.count

def deletePieces (delete : Delete) : Pieces :=
  .text "DELETE FROM " :: Pieces.table delete.database delete.table ++
  tailPieces registry delete.condition delete.sorts delete.count

def rowPieces (row : List Expr) : Pieces :=
  .text "(" :: Pieces.separated "," (row.map registry.pieces) ++ [.text ")"]

def conflictPieces (columns : List String) : Pieces :=
  .text " ON DUPLICATE KEY UPDATE " :: Pieces.separated "," (columns.map fun column =>
    [.identifier column, .text " = VALUES(", .identifier column, .text ")"])

def insertPieces (insert : Insert) : Pieces :=
  .text (if insert.ignore then "INSERT IGNORE INTO " else "INSERT INTO ") ::
  Pieces.table insert.database insert.table ++
  (if insert.columns.isEmpty || insert.rows.isEmpty then [.fault .nothingToWrite]
    else .text " (" :: Pieces.separated "," (insert.columns.map fun column => [.identifier column]) ++
      .text ") VALUES " :: Pieces.separated "," (insert.rows.map (rowPieces registry))) ++
  (match insert.updatedColumns? with
    | none => []
    | some columns => conflictPieces columns)

def Command.pieces : Command → Pieces
  | .find q => selectPieces registry q
  | .findOne q => selectPieces registry q.first
  | .page p => selectPieces registry p.toQuery
  | .update u => updatePieces registry u
  | .updateOne u => updatePieces registry u.first
  | .delete d => deletePieces registry d
  | .deleteOne d => deletePieces registry d.first
  | .insert i => insertPieces registry i

end Layout

def Command.build (registry : Registry) (command : Command) : Except BuildError (String × List SqlValue) :=
  Statement.compose registry command.operation (command.pieces registry)

def buildExpr (registry : Registry) (expr : Expr) : Except BuildError (String × List SqlValue) :=
  Statement.compose registry "expr" (registry.pieces expr)

end SqlComposer.Compose
