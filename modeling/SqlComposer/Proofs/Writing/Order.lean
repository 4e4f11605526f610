import SqlComposer.Proofs.Writing.Slots

namespace SqlComposer.Compose

open Sql

section Lists

variable {α β : Type} (table : String → List α) (value : Argument → List α)

def joinList (join : Join (List α)) : List α := table join.table ++ join.condition.getD []

def queryList (query : Query (List α)) : List α :=
  query.projections.flatten ++ table query.table ++ query.joins.flatMap (joinList table) ++
  query.condition.getD [] ++ query.groups.flatten ++ query.having.getD [] ++ query.sorts.flatten ++
  query.lock.getD []

def nodeList : Node (List α) → List α
  | .column .. | .lock _ | .raw _ => []
  | .comparison .memberOf field value => value ++ field
  | .comparison _ a b | .like _ a b | .range a b | .assignment a b => a ++ b
  | .adjustment field _ amount => field ++ field ++ amount
  | .nullTest _ field | .sort field _ | .aggregate _ field | .labelled field _ | .cast field _ => field
  | .group parts | .call _ parts | .jsonCall _ parts | .tuple parts => parts.flatten
  | .existence _ query | .subquery query => queryList table query
  | .argument bound => value bound

variable {table value} (choose : α → Option β)

theorem filterMap_getD (items : Option (List α)) :
    (items.getD []).filterMap choose = (items.map (List.filterMap choose)).getD [] := by
  cases items <;> rfl

theorem filterMap_queryList (query : Query (List α)) :
    (queryList table query).filterMap choose =
      queryList (fun name => (table name).filterMap choose) (query.map (List.filterMap choose)) := by
  simp [queryList, joinList, Query.map, Join.map, List.filterMap_flatten, List.filterMap_flatMap, List.flatMap_map,
    filterMap_getD]

theorem filterMap_nodeList (node : Node (List α)) :
    (nodeList table value node).filterMap choose =
      nodeList (fun name => (table name).filterMap choose) (fun bound => (value bound).filterMap choose)
        (node.map (List.filterMap choose)) := by
  cases node with
  | comparison operator field value => cases operator <;> simp [nodeList, Node.map]
  | existence negated query | subquery query => exact filterMap_queryList choose query
  | _ => simp [nodeList, Node.map, List.filterMap_flatten]

end Lists

section Listing

variable {α β γ : Type} (fault : Fault → List γ) (argument : Argument → List γ)

def Piece.listed : Piece → List γ
  | .text _ | .identifier _ => []
  | .argument bound => argument bound
  | .fault reason => fault reason

def Pieces.listed (pieces : Pieces) : List γ := pieces.flatMap (Piece.listed fault argument)

def Slots.listed (part : α → List γ) (slots : List (Slot α)) : List γ :=
  slots.flatMap fun
    | .fixed pieces => pieces.listed fault argument
    | .part given => part given

def tableFault (name : String) : List γ := if name = "" then fault .emptyTable else []

namespace Pieces

@[simp] theorem listed_nil : listed fault argument [] = [] := rfl

@[simp] theorem listed_text (words : String) (pieces : Pieces) :
    listed fault argument (.text words :: pieces) = pieces.listed fault argument := rfl

@[simp] theorem listed_identifier (name : String) (pieces : Pieces) :
    listed fault argument (.identifier name :: pieces) = pieces.listed fault argument := rfl

@[simp] theorem listed_argument (bound : Argument) (pieces : Pieces) :
    listed fault argument (.argument bound :: pieces) = argument bound ++ pieces.listed fault argument := rfl

@[simp] theorem listed_fault (reason : Fault) (pieces : Pieces) :
    listed fault argument (.fault reason :: pieces) = fault reason ++ pieces.listed fault argument := rfl

@[simp] theorem listed_append (a b : Pieces) :
    listed fault argument (a ++ b) = a.listed fault argument ++ b.listed fault argument := List.flatMap_append

@[simp] theorem listed_table (database name : String) :
    listed fault argument (table database name) = tableFault fault name := by
  by_cases unnamed : name = "" <;> by_cases bare : database = "" <;> simp [table, tableFault, unnamed, bare]

theorem listed_separated {separator : String} {items : List Pieces}
    (silent : ∀ item ∈ items, item.listed fault argument = []) :
    listed fault argument (separated separator items) = [] := by
  induction items with
  | nil => rfl
  | cons item items ih => cases items with
    | nil => simpa using silent
    | cons next items => simp_all

end Pieces

namespace Slots

variable (part : α → List γ)

@[simp] theorem listed_nil : listed fault argument part [] = [] := rfl

@[simp] theorem listed_fixed (pieces : Pieces) (slots : List (Slot α)) :
    listed fault argument part (.fixed pieces :: slots) =
      pieces.listed fault argument ++ listed fault argument part slots := rfl

@[simp] theorem listed_text (words : String) (slots : List (Slot α)) :
    listed fault argument part (text words :: slots) = listed fault argument part slots := rfl

@[simp] theorem listed_part (given : α) (slots : List (Slot α)) :
    listed fault argument part (.part given :: slots) = part given ++ listed fault argument part slots := rfl

@[simp] theorem listed_append (a b : List (Slot α)) :
    listed fault argument part (a ++ b) = listed fault argument part a ++ listed fault argument part b :=
  List.flatMap_append

@[simp] theorem listed_separated (separator : String) (rows : List (List (Slot α))) :
    listed fault argument part (separated separator rows) = (rows.map (listed fault argument part)).flatten := by
  induction rows with
  | nil => rfl
  | cons row rows ih => cases rows with
    | nil => simp [separated]
    | cons next rows => simp_all [separated]

@[simp] theorem listed_items (separator : String) (list : List α) :
    listed fault argument part (items separator list) = (list.map part).flatten := by
  simp [items, Function.comp_def]

@[simp] theorem listed_clause (keyword : String) (given : Option α) :
    listed fault argument part (clause keyword given) = (given.map part).getD [] := by
  cases given <;> simp [clause]

@[simp] theorem listed_listClause (keyword : String) (list : List α) :
    listed fault argument part (listClause keyword list) = (list.map part).flatten := by
  cases list <;> simp [listClause]

@[simp] theorem listed_flatMap (rows : β → List (Slot α)) (list : List β) :
    listed fault argument part (list.flatMap rows) = list.flatMap fun item => listed fault argument part (rows item) :=
  List.flatMap_assoc

@[simp] theorem listed_partsOnly (list : List α) :
    listed fault argument part (list.map .part) = (list.map part).flatten := by
  rw [listed, List.flatMap_map, List.flatMap_def]

theorem listed_layOut (write : α → Pieces) (slots : List (Slot α)) :
    (layOut write slots).listed fault argument =
      listed fault argument (Pieces.listed fault argument ∘ write) slots := by
  rw [layOut, Pieces.listed, List.flatMap_assoc]
  congr 1
  funext slot
  cases slot <;> rfl

theorem parts_eq_listed (slots : List (Slot α)) :
    parts slots = listed (fun _ => []) (fun _ => []) (fun given => [given]) slots := by
  have silent (pieces : Pieces) : pieces.listed (γ := α) (fun _ => []) (fun _ => []) = [] := by
    rw [Pieces.listed, List.flatMap_eq_nil_iff]
    intro piece _
    cases piece <;> rfl
  rw [parts, listed]
  congr 1
  funext slot
  cases slot with
  | fixed pieces => exact (silent pieces).symm
  | part given => rfl

end Slots

open Slots

variable (part : α → List γ)

theorem listed_joinSlots (database : String) (join : Join α) :
    listed fault argument part (joinSlots database join) = joinList (tableFault fault) (join.map part) := by
  by_cases label : join.label = "" <;> simp [joinSlots, joinList, Join.map, label]

theorem listed_querySlots (query : Query α) :
    listed fault argument part (querySlots query) = queryList (tableFault fault) (query.map part) := by
  by_cases everything : query.projections = [] <;>
    simp [querySlots, queryList, Query.map, everything, listed_joinSlots, List.flatMap_map]

theorem listed_nodeSlots (node : Node α) :
    listed fault argument part (nodeSlots node) = nodeList (tableFault fault) argument (node.map part) := by
  cases node with
  | column table name =>
    by_cases unqualified : table = "" <;> by_cases every : name = "*" <;>
      simp [nodeSlots, columnPieces, nodeList, Node.map, unqualified, every]
  | comparison operator field value => cases operator <;> simp [nodeSlots, nodeList, Node.map]
  | sort field order => cases order <;> simp [nodeSlots, nodeList, Node.map]
  | adjustment field step amount => cases step <;> simp [nodeSlots, nodeList, Node.map]
  | existence negated query | subquery query => simp [nodeSlots, nodeList, Node.map, listed_querySlots]
  | _ => simp [nodeSlots, callSlots, nodeList, Node.map]

variable (part : Expr → List γ)

theorem listed_tailSlots (condition : Option Expr) (sorts : List Expr) (count : UInt64) :
    listed fault argument part (tailSlots condition sorts count) =
      (condition.map part).getD [] ++ (sorts.map part).flatten := by
  simp [tailSlots]

theorem listed_updateSlots (update : Update) :
    listed fault argument part (updateSlots update) =
      tableFault fault update.table ++ (if update.assignments.isEmpty then fault .nothingToWrite else []) ++
      (update.assignments.map part).flatten ++ (update.condition.map part).getD [] ++
      (update.sorts.map part).flatten := by
  by_cases nothing : update.assignments = [] <;> simp [updateSlots, nothing, listed_tailSlots]

theorem listed_deleteSlots (delete : Delete) :
    listed fault argument part (deleteSlots delete) =
      tableFault fault delete.table ++ (delete.condition.map part).getD [] ++ (delete.sorts.map part).flatten := by
  simp [deleteSlots, listed_tailSlots]

theorem listed_insertSlots (insert : Insert) :
    listed fault argument part (insertSlots insert) =
      tableFault fault insert.table ++
      (if insert.columns.isEmpty || insert.rows.isEmpty then fault .nothingToWrite
        else (insert.rows.flatten.map part).flatten) := by
  have columns : Pieces.listed fault argument (Pieces.separated "," (insert.columns.map fun column =>
      [.identifier column])) = [] := Pieces.listed_separated fault argument (by simp)
  have conflict (columns : List String) : (conflictPieces columns).listed fault argument = [] :=
    Pieces.listed_separated fault argument (by simp)
  by_cases noColumns : insert.columns = [] <;> by_cases noRows : insert.rows = [] <;>
    cases given : insert.updatedColumns? <;>
      simp [insertSlots, rowSlots, noColumns, noRows, given, columns, conflict, Function.comp_def,
        List.flatten_flatten]

end Listing

section Parts

open Slots

variable {α : Type}

@[simp] theorem tableFault_nil : tableFault (γ := α) (fun _ => []) = fun _ => [] := by
  funext name
  simp [tableFault]

@[simp] theorem flatten_singletons (list : List α) : (list.map fun part => [part]).flatten = list := by
  rw [← List.flatMap_def, List.flatMap_singleton']

@[simp] theorem getD_singleton (part : Option α) : (part.map fun part => [part]).getD [] = part.toList := by
  cases part <;> rfl

theorem parts_querySlots (query : Query α) : parts (querySlots query) = query.parts := by
  have join : Join.parts = fun join : Join α => join.condition.toList := rfl
  simp [parts_eq_listed, listed_querySlots, queryList, joinList, Query.map, Join.map, Query.parts, join,
    List.flatMap_map]

theorem mem_parts_nodeSlots_iff {node : Node α} {part : α} : part ∈ parts (nodeSlots node) ↔ part ∈ node.parts := by
  rw [parts_eq_listed, listed_nodeSlots]
  cases node with
  | comparison operator field value => cases operator <;> simp [nodeList, Node.map, Node.parts, or_comm]
  | existence negated query | subquery query =>
    rw [Node.parts, ← parts_querySlots, parts_eq_listed, listed_querySlots]
    rfl
  | _ => simp [nodeList, Node.map, Node.parts]

theorem parts_updateSlots (update : Update) :
    parts (updateSlots update) = update.assignments ++ update.condition.toList ++ update.sorts := by
  simp [parts_eq_listed, listed_updateSlots]

theorem parts_deleteSlots (delete : Delete) :
    parts (deleteSlots delete) = delete.condition.toList ++ delete.sorts := by
  simp [parts_eq_listed, listed_deleteSlots]

theorem parts_commandSlots (command : Command) : parts (commandSlots command) = command.written := by
  cases command with
  | find q | findOne q | page p => exact parts_querySlots _
  | update u | updateOne u => exact parts_updateSlots _
  | delete d | deleteOne d => exact parts_deleteSlots _
  | insert i =>
    by_cases noColumns : i.columns = [] <;> by_cases noRows : i.rows = [] <;>
      simp [commandSlots, Command.written, parts_eq_listed, listed_insertSlots, noColumns, noRows, -List.map_flatten]

end Parts

end SqlComposer.Compose
