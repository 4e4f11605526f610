import SqlComposer.Proofs.Expression.Substitution
/-!
Layouts as rows of slots: pieces that are there whatever the parts are, and the places where the parts stand.

`layOut_nodeSlots` and `layOut_commandSlots` say that the pieces of nodes and commands are their slots laid out.
-/

namespace SqlComposer.Compose

open Sql

section

variable (s : Substitution)

def Piece.subst : Piece → Piece
  | .identifier name => .identifier (s.name name)
  | .argument bound => .argument (s.argument bound)
  | piece => piece

def Pieces.subst (pieces : Pieces) : Pieces := pieces.map (Piece.subst s)

namespace Pieces

@[simp] theorem subst_nil : subst s [] = [] := rfl

@[simp] theorem subst_text (text : String) (pieces : Pieces) :
    subst s (.text text :: pieces) = .text text :: pieces.subst s := rfl

@[simp] theorem subst_identifier (name : String) (pieces : Pieces) :
    subst s (.identifier name :: pieces) = .identifier (s.name name) :: pieces.subst s := rfl

@[simp] theorem subst_argument (bound : Argument) (pieces : Pieces) :
    subst s (.argument bound :: pieces) = .argument (s.argument bound) :: pieces.subst s := rfl

@[simp] theorem subst_fault (fault : Fault) (pieces : Pieces) :
    subst s (.fault fault :: pieces) = .fault fault :: pieces.subst s := rfl

@[simp] theorem subst_append (a b : Pieces) : subst s (a ++ b) = a.subst s ++ b.subst s := List.map_append

@[simp] theorem subst_separated (separator : String) (items : List Pieces) :
    subst s (separated separator items) = separated separator (items.map (subst s)) := by
  induction items with
  | nil => rfl
  | cons item items ih => cases items with
    | nil => rfl
    | cons next items => simp_all

@[simp] theorem subst_table (database name : String) :
    subst s (table database name) = table (s.name database) (s.name name) := by
  simp only [table, s.name_eq_empty]
  split
  · rfl
  · split <;> rfl

@[simp] theorem subst_empty (pieces : Pieces) : subst {} pieces = pieces := by
  have piece : Piece.subst {} = id := funext fun piece => by cases piece <;> rfl
  rw [subst, piece, List.map_id]

end Pieces

end

inductive Slot (α : Type)
  | fixed (pieces : Pieces)
  | part (part : α)

variable {α β : Type}

namespace Slots

def layOut (write : α → Pieces) (slots : List (Slot α)) : Pieces :=
  slots.flatMap fun
    | .fixed pieces => pieces
    | .part part => write part

def layOutWith (s : Substitution) (write : α → Pieces) (slots : List (Slot α)) : Pieces :=
  slots.flatMap fun
    | .fixed pieces => pieces.subst s
    | .part part => write part

def parts (slots : List (Slot α)) : List α :=
  slots.flatMap fun
    | .fixed _ => []
    | .part part => [part]

def text (text : String) : Slot α := .fixed [.text text]

def separated (separator : String) : List (List (Slot α)) → List (Slot α)
  | [] => []
  | [slots] => slots
  | slots :: rest => slots ++ text separator :: separated separator rest

def items (separator : String) (items : List α) : List (Slot α) :=
  separated separator (items.map fun item => [.part item])

def clause (keyword : String) : Option α → List (Slot α)
  | none => []
  | some part => [text keyword, .part part]

def listClause (keyword : String) (parts : List α) : List (Slot α) :=
  if parts.isEmpty then [] else text keyword :: items "," parts

section Lemmas

variable (s : Substitution) (write : α → Pieces)

@[simp] theorem layOutWith_nil : layOutWith s write [] = [] := rfl

@[simp] theorem layOutWith_fixed (pieces : Pieces) (slots : List (Slot α)) :
    layOutWith s write (.fixed pieces :: slots) = pieces.subst s ++ layOutWith s write slots := rfl

@[simp] theorem layOutWith_text (words : String) (slots : List (Slot α)) :
    layOutWith s write (text words :: slots) = .text words :: layOutWith s write slots := rfl

@[simp] theorem layOutWith_part (part : α) (slots : List (Slot α)) :
    layOutWith s write (.part part :: slots) = write part ++ layOutWith s write slots := rfl

@[simp] theorem layOutWith_append (a b : List (Slot α)) :
    layOutWith s write (a ++ b) = layOutWith s write a ++ layOutWith s write b := List.flatMap_append

@[simp] theorem layOutWith_separated (separator : String) (rows : List (List (Slot α))) :
    layOutWith s write (separated separator rows) = Pieces.separated separator (rows.map (layOutWith s write)) := by
  induction rows with
  | nil => rfl
  | cons row rows ih => cases rows with
    | nil => rfl
    | cons next rows => simp_all [separated]

@[simp] theorem layOutWith_items (separator : String) (list : List α) :
    layOutWith s write (items separator list) = Pieces.separated separator (list.map write) := by
  simp [items, Function.comp_def]

@[simp] theorem layOutWith_clause (keyword : String) (part : Option α) :
    layOutWith s write (clause keyword part) = Pieces.clause keyword (part.map write) := by
  cases part <;> simp [clause, Pieces.clause]

@[simp] theorem layOutWith_listClause (keyword : String) (list : List α) :
    layOutWith s write (listClause keyword list) = Pieces.listClause keyword (list.map write) := by
  cases list <;> simp [listClause, Pieces.listClause]

@[simp] theorem layOutWith_flatMap (rows : β → List (Slot α)) (list : List β) :
    layOutWith s write (list.flatMap rows) = list.flatMap fun item => layOutWith s write (rows item) :=
  List.flatMap_assoc

@[simp] theorem layOutWith_partsOnly (list : List α) :
    layOutWith s write (list.map .part) = (list.map write).flatten := by
  rw [layOutWith, List.flatMap_map, List.flatMap_def]

theorem layOut_eq (slots : List (Slot α)) : layOut write slots = layOutWith {} write slots := by
  simp [layOut, layOutWith]

theorem layOut_part (part : α) (slots : List (Slot α)) :
    layOut write (.part part :: slots) = write part ++ layOut write slots := rfl

theorem layOut_append (a b : List (Slot α)) : layOut write (a ++ b) = layOut write a ++ layOut write b :=
  List.flatMap_append

theorem subst_layOut (slots : List (Slot α)) :
    (layOut write slots).subst s = layOutWith s (Pieces.subst s ∘ write) slots := by
  rw [layOut, Pieces.subst, List.map_flatMap]
  congr 1
  funext slot
  cases slot <;> rfl

theorem exists_split {slots : List (Slot α)} {part : α} (member : part ∈ parts slots) :
    ∃ left right, slots = left ++ .part part :: right := by
  obtain ⟨slot, slotMember, inside⟩ := List.mem_flatMap.mp member
  cases slot with
  | fixed pieces => cases inside
  | part other =>
    obtain rfl := List.mem_singleton.mp inside
    exact List.append_of_mem slotMember

end Lemmas

end Slots

open Slots

def joinSlots (database : String) (join : Join α) : List (Slot α) :=
  .fixed (.text (" " ++ join.kind.text ++ " ") :: Pieces.table database join.table ++
    (if join.label = "" then [] else [.text " AS ", .identifier join.label])) :: clause " ON " join.condition

def querySlots (query : Query α) : List (Slot α) :=
  text (if query.distinct then "SELECT DISTINCT " else "SELECT ") ::
  (if query.projections.isEmpty then [text "*"] else items "," query.projections) ++
  .fixed (.text " FROM " :: Pieces.table query.database query.table) ::
  query.joins.flatMap (joinSlots query.database) ++
  clause " WHERE " query.condition ++
  listClause " GROUP BY " query.groups ++
  clause " HAVING " query.having ++
  listClause " ORDER BY " query.sorts ++
  text (limitText query.count query.skip) ::
  clause " " query.lock

def callSlots (name : String) (arguments : List α) : List (Slot α) :=
  text (name ++ "(") :: items "," arguments ++ [text ")"]

def nodeSlots : Node α → List (Slot α)
  | .column table name => [.fixed (columnPieces table name)]
  | .comparison .memberOf field value => [.part value, text " MEMBER OF(", .part field, text ")"]
  | .comparison operator field value => [.part field, text (" " ++ operator.text ++ " "), .part value]
  | .like negated field value => [.part field, text (if negated then " NOT LIKE " else " LIKE "), .part value]
  | .nullTest negated field => [.part field, text (if negated then " IS NOT NULL" else " IS NULL")]
  | .range low high => [.part low, text " AND ", .part high]
  | .group parts => parts.map .part
  | .sort field .ascending => [.part field]
  | .sort field .descending => [.part field, text " DESC"]
  | .assignment field value => [.part field, text " = ", .part value]
  | .adjustment field .plus amount => [.part field, text " = ", .part field, text " + ", .part amount]
  | .adjustment field .minus amount => [.part field, text " = ", .part field, text " - ", .part amount]
  | .aggregate function field => [text (aggregateOpening function), .part field, text ")"]
  | .call name arguments | .jsonCall name arguments => callSlots name arguments
  | .lock mode => [text (lockText mode)]
  | .raw words => [text words]
  | .labelled field label => [.part field, .fixed [.text " AS ", .identifier label]]
  | .cast value type => [text "CAST(", .part value, text (" AS " ++ type.text ++ ")")]
  | .tuple list => text "(" :: items "," list ++ [text ")"]
  | .existence negated query =>
    text (if negated then "NOT EXISTS (" else "EXISTS (") :: querySlots query ++ [text ")"]
  | .subquery query => text "(" :: querySlots query ++ [text ")"]
  | .argument bound => [.fixed [.argument bound]]

section LayingOut

variable (s : Substitution) (write : α → Pieces)

theorem layOutWith_joinSlots (database : String) (join : Join α) :
    layOutWith s write (joinSlots database join) = joinPieces (s.name database) (s.join (join.map write)) := by
  by_cases label : join.label = "" <;> simp [joinSlots, joinPieces, Substitution.join, Join.map, label]

theorem layOutWith_querySlots (query : Query α) :
    layOutWith s write (querySlots query) = queryPieces (s.query (query.map write)) := by
  cases distinct : query.distinct <;> by_cases everything : query.projections = [] <;>
    simp [querySlots, queryPieces, Substitution.query, Query.map, distinct, everything, layOutWith_joinSlots,
      List.flatMap_map]

theorem layOutWith_nodeSlots (node : Node α) :
    layOutWith s write (nodeSlots node) = nodePieces (s.node (node.map write)) := by
  cases node with
  | column table name =>
    by_cases unqualified : table = "" <;> by_cases every : name = "*" <;>
      simp [nodeSlots, nodePieces, columnPieces, Substitution.node, Node.map, unqualified, every]
  | comparison operator field value =>
    cases operator <;> simp [nodeSlots, nodePieces, Substitution.node, Node.map]
  | sort field order => cases order <;> simp [nodeSlots, nodePieces, Substitution.node, Node.map]
  | adjustment field step amount => cases step <;> simp [nodeSlots, nodePieces, Substitution.node, Node.map]
  | existence negated query | subquery query =>
    simp [nodeSlots, nodePieces, Substitution.node, Node.map, layOutWith_querySlots]
  | _ => simp [nodeSlots, nodePieces, callSlots, callPieces, Substitution.node, Node.map]

theorem layOut_nodeSlots (node : Node α) : layOut write (nodeSlots node) = nodePieces (node.map write) := by
  rw [layOut_eq, layOutWith_nodeSlots, Substitution.node_empty]

theorem layOut_id_nodeSlots (node : Node Pieces) : layOut id (nodeSlots node) = nodePieces node := by
  rw [layOut_nodeSlots, Node.map_id]

theorem subst_nodePieces (node : Node Pieces) :
    (nodePieces node).subst s = nodePieces (s.node (node.map (Pieces.subst s))) := by
  rw [← layOut_id_nodeSlots, subst_layOut, Function.comp_id, layOutWith_nodeSlots]

theorem subst_pieces (expr : Expr) :
    (Registry.mysql.pieces expr).subst s = Registry.mysql.pieces (s.expr expr) := by
  have after : (Registry.mysql.pieces expr).subst s = expr.fold fun node => nodePieces (s.node node) := by
    rw [Registry.pieces_mysql]
    exact Expr.map_fold (subst_nodePieces s) expr
  have before : Registry.mysql.pieces (s.expr expr) = expr.fold fun node => nodePieces (s.node node) := by
    apply Expr.map_fold (f := Registry.mysql.pieces)
    intro node
    simp only [funext Registry.pieces_mysql, Expr.fold_ofNode, s.map_node]
  rw [after, before]

end LayingOut

def tailSlots (condition : Option Expr) (sorts : List Expr) (count : UInt64) : List (Slot Expr) :=
  clause " WHERE " condition ++ listClause " ORDER BY " sorts ++ [text (limitText count 0)]

def updateSlots (update : Update) : List (Slot Expr) :=
  .fixed (.text "UPDATE " :: Pieces.table update.database update.table) ::
  (if update.assignments.isEmpty then [.fixed [.fault .nothingToWrite]]
    else text " SET " :: items "," update.assignments) ++
  tailSlots update.condition update.sorts update.count

def deleteSlots (delete : Delete) : List (Slot Expr) :=
  .fixed (.text "DELETE FROM " :: Pieces.table delete.database delete.table) ::
  tailSlots delete.condition delete.sorts delete.count

def rowSlots (row : List Expr) : List (Slot Expr) := text "(" :: items "," row ++ [text ")"]

def insertSlots (insert : Insert) : List (Slot Expr) :=
  .fixed (.text (if insert.ignore then "INSERT IGNORE INTO " else "INSERT INTO ") ::
    Pieces.table insert.database insert.table) ::
  (if insert.columns.isEmpty || insert.rows.isEmpty then [.fixed [.fault .nothingToWrite]]
    else .fixed (.text " (" :: Pieces.separated "," (insert.columns.map fun column => [.identifier column])) ::
      text ") VALUES " :: separated "," (insert.rows.map rowSlots)) ++
  [.fixed (match insert.updatedColumns? with
    | none => []
    | some columns => conflictPieces columns)]

def commandSlots : Command → List (Slot Expr)
  | .find q => querySlots q
  | .findOne q => querySlots q.first
  | .page p => querySlots p.toQuery
  | .update u => updateSlots u
  | .updateOne u => updateSlots u.first
  | .delete d => deleteSlots d
  | .deleteOne d => deleteSlots d.first
  | .insert i => insertSlots i

section LayingOut

variable (s : Substitution) (registry : Registry)

theorem layOutWith_tailSlots (condition : Option Expr) (sorts : List Expr) (count : UInt64) :
    layOutWith s (registry.pieces ∘ s.expr) (tailSlots condition sorts count) =
      tailPieces registry (condition.map s.expr) (sorts.map s.expr) count := by
  simp [tailSlots, tailPieces]

theorem layOutWith_selectSlots (query : Select) :
    layOutWith s (registry.pieces ∘ s.expr) (querySlots query) = selectPieces registry (s.select query) := by
  rw [layOutWith_querySlots, selectPieces, Substitution.select, s.map_query, Query.map_map]

theorem layOutWith_updateSlots (update : Update) :
    layOutWith s (registry.pieces ∘ s.expr) (updateSlots update) = updatePieces registry (s.update update) := by
  by_cases nothing : update.assignments = [] <;>
    simp [updateSlots, updatePieces, Substitution.update, nothing, layOutWith_tailSlots]

theorem layOutWith_deleteSlots (delete : Delete) :
    layOutWith s (registry.pieces ∘ s.expr) (deleteSlots delete) = deletePieces registry (s.delete delete) := by
  simp [deleteSlots, deletePieces, Substitution.delete, layOutWith_tailSlots]

theorem subst_conflictPieces (columns : List String) :
    (conflictPieces columns).subst s = conflictPieces (columns.map s.name) := by
  simp [conflictPieces, Function.comp_def]

theorem updatedColumns?_insert (insert : Insert) :
    (s.insert insert).updatedColumns? = insert.updatedColumns?.map (List.map s.name) := by
  cases conflict : insert.onDuplicate with
  | none => simp [Insert.updatedColumns?, Substitution.insert, conflict]
  | some columns => cases columns <;> simp [Insert.updatedColumns?, Substitution.insert, conflict]

theorem layOutWith_insertSlots (insert : Insert) :
    layOutWith s (registry.pieces ∘ s.expr) (insertSlots insert) = insertPieces registry (s.insert insert) := by
  have row (row : List Expr) : layOutWith s (fun expr => registry.pieces (s.expr expr)) (rowSlots row) =
      rowPieces registry (row.map s.expr) := by
    simp [rowSlots, rowPieces, Function.comp_def]
  have ignored : (s.insert insert).ignore = insert.ignore := rfl
  rw [insertPieces, updatedColumns?_insert, ignored]
  by_cases noColumns : insert.columns = [] <;> by_cases noRows : insert.rows = [] <;>
    cases given : insert.updatedColumns? <;>
      simp [insertSlots, Substitution.insert, subst_conflictPieces, Function.comp_def, noColumns, noRows, given,
        row]

theorem layOutWith_commandSlots (command : Command) :
    layOutWith s (registry.pieces ∘ s.expr) (commandSlots command) = (s.command command).pieces registry := by
  cases command with
  | find q | findOne q => exact layOutWith_selectSlots s registry _
  | page p =>
    rw [commandSlots, layOutWith_selectSlots, ← s.toQuery_page]
    rfl
  | update u | updateOne u => exact layOutWith_updateSlots s registry _
  | delete d | deleteOne d => exact layOutWith_deleteSlots s registry _
  | insert i => exact layOutWith_insertSlots s registry i

theorem layOut_commandSlots (command : Command) :
    layOut registry.pieces (commandSlots command) = command.pieces registry := by
  have exprs : registry.pieces ∘ Substitution.expr {} = registry.pieces := by
    funext expr
    simp
  rw [layOut_eq, ← exprs, layOutWith_commandSlots, Substitution.command_empty]

theorem subst_command (command : Command) :
    (command.pieces .mysql).subst s = (s.command command).pieces .mysql := by
  have exprs : Pieces.subst s ∘ Registry.mysql.pieces = Registry.mysql.pieces ∘ s.expr := funext (subst_pieces s)
  rw [← layOut_commandSlots, subst_layOut, exprs, layOutWith_commandSlots]

end LayingOut

/-- The expressions that the command writes, in their order. Without columns no rows are written. -/
def Command.written : Command → List Expr
  | .find q | .findOne q => q.parts
  | .page p => p.toQuery.parts
  | .update u | .updateOne u => u.assignments ++ u.condition.toList ++ u.sorts
  | .delete d | .deleteOne d => d.condition.toList ++ d.sorts
  | .insert i => if i.columns.isEmpty then [] else i.rows.flatten

end SqlComposer.Compose
