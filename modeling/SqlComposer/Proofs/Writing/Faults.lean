import SqlComposer.Proofs.Writing.Order

namespace SqlComposer.Compose

open Sql Slots

inductive Part
  | table (name : String)
  | content (present : Bool)
  | value (bound : Argument)

inductive Part.Fails (operation : String) : Part → BuildError → Prop
  | table : Fails operation (.table "") (.emptyTable operation)
  | content : Fails operation (.content false) (.nothingToWrite operation)
  | value {bound reason} : bound.outcome = .error reason → Fails operation (.value bound) (.noValue reason)
  | dateTime {bound time} : bound.outcome = .ok (.dateTime time) → time.utcText? = none →
      Fails operation (.value bound) .outOfCalendar

def queryParts : Query (List Part) → List Part := queryList fun name => [.table name]

def nodeParts : Node (List Part) → List Part := nodeList (fun name => [.table name]) fun bound => [.value bound]

def exprParts (expr : Expr) : List Part := expr.fold nodeParts

def selectParts (query : Select) : List Part := queryParts (query.map exprParts)

def tailParts (condition : Option Expr) (sorts : List Expr) : List Part :=
  condition.toList.flatMap exprParts ++ sorts.flatMap exprParts

def updateParts (update : Update) : List Part :=
  .table update.table :: .content (!update.assignments.isEmpty) :: update.assignments.flatMap exprParts ++
  tailParts update.condition update.sorts

def deleteParts (delete : Delete) : List Part := .table delete.table :: tailParts delete.condition delete.sorts

def insertParts (insert : Insert) : List Part :=
  .table insert.table :: .content (!insert.columns.isEmpty && !insert.rows.isEmpty) ::
  if insert.columns.isEmpty then [] else insert.rows.flatten.flatMap exprParts

def Command.parts : Command → List Part
  | .find q => selectParts q
  | .findOne q => selectParts q.first
  | .page p => selectParts p.toQuery
  | .update u | .updateOne u => updateParts u
  | .delete d | .deleteOne d => deleteParts d
  | .insert i => insertParts i

section Errors

variable (operation : String)

def Part.error? : Part → Option BuildError
  | .table name => if name = "" then some (.emptyTable operation) else none
  | .content present => if present then none else some (.nothingToWrite operation)
  | .value bound => match bound.outcome with
    | .error reason => some (.noValue reason)
    | .ok (.dateTime time) => if time.utcText? = none then some .outOfCalendar else none
    | .ok _ => none

theorem Part.error?_eq_some_iff {part : Part} {error : BuildError} :
    part.error? operation = some error ↔ part.Fails operation error := by
  constructor
  · intro shown
    cases part with
    | table name =>
      obtain ⟨rfl, rfl⟩ : name = "" ∧ BuildError.emptyTable operation = error := by simpa [error?] using shown
      exact .table
    | content present =>
      obtain ⟨rfl, rfl⟩ : present = false ∧ BuildError.nothingToWrite operation = error := by
        simpa [error?] using shown
      exact .content
    | value bound => cases given : bound.outcome with
      | error reason =>
        obtain rfl : BuildError.noValue reason = error := by simpa [error?, given] using shown
        exact .value given
      | ok v => cases v with
        | dateTime time =>
          obtain ⟨outside, rfl⟩ : time.utcText? = none ∧ BuildError.outOfCalendar = error := by
            simpa [error?, given] using shown
          exact .dateTime given outside
        | _ => simp [error?, given] at shown
  · rintro (_ | _ | given | ⟨given, outside⟩)
    · rfl
    · rfl
    · simp [error?, given]
    · simp [error?, given, outside]

def Piece.error? : Piece → Option BuildError
  | .text _ | .identifier _ => none
  | .argument bound => match Registry.mysql.resolve bound with
    | .error error => some error
    | .ok _ => none
  | .fault reason => some (reason.error operation)

def Pieces.errors (pieces : Pieces) : List BuildError := pieces.filterMap (Piece.error? operation)

def errorsOf (parts : List Part) : List BuildError := parts.filterMap (Part.error? operation)

@[simp] theorem errorsOf_nil : errorsOf operation [] = [] := rfl

@[simp] theorem errorsOf_cons (part : Part) (parts : List Part) :
    errorsOf operation (part :: parts) = (part.error? operation).toList ++ errorsOf operation parts := by
  cases fault : part.error? operation <;> simp [errorsOf, fault]

@[simp] theorem errorsOf_append (a b : List Part) :
    errorsOf operation (a ++ b) = errorsOf operation a ++ errorsOf operation b := List.filterMap_append

def tableErrors (name : String) : List BuildError := (Part.error? operation (.table name)).toList

def valueErrors (bound : Argument) : List BuildError := (Part.error? operation (.value bound)).toList

def exprErrors (expr : Expr) : List BuildError := errorsOf operation (exprParts expr)

def Fault.errors (reason : Fault) : List BuildError := [reason.error operation]

@[simp] theorem errorsOf_exprs (exprs : List Expr) :
    errorsOf operation (exprs.flatMap exprParts) = (exprs.map (exprErrors operation)).flatten := by
  rw [errorsOf, List.filterMap_flatMap, List.flatMap_def]
  rfl

theorem error?_argument (bound : Argument) :
    Piece.error? operation (.argument bound) = Part.error? operation (.value bound) := by
  cases given : bound.outcome with
  | error reason => simp [Piece.error?, Part.error?, Registry.resolve, given]
  | ok v => cases v with
    | dateTime time =>
      cases text : time.utcText? <;>
        simp [Piece.error?, Part.error?, Registry.resolve, Registry.encode, Registry.mysql, SqlValue.kind,
          mysqlEncoder, encodeDateTime, given, text]
    | _ =>
      simp [Piece.error?, Part.error?, Registry.resolve, Registry.encode, Registry.mysql, SqlValue.kind,
        mysqlEncoder, encodeBool, encodeDate, encodeJson, given]

theorem errors_eq_listed (pieces : Pieces) :
    pieces.errors operation = pieces.listed (Fault.errors operation) (valueErrors operation) := by
  induction pieces with
  | nil => rfl
  | cons piece pieces ih => cases piece with
    | text words | identifier name => exact ih
    | argument bound =>
      rw [Pieces.listed_argument, ← ih, valueErrors, ← error?_argument]
      cases fault : Piece.error? operation (.argument bound) <;> simp [Pieces.errors, fault]
    | fault reason =>
      rw [Pieces.listed_fault, ← ih]
      rfl

@[simp] theorem tableFault_errors : tableFault (Fault.errors operation) = tableErrors operation := by
  funext name
  by_cases unnamed : name = "" <;> simp [tableFault, tableErrors, Fault.errors, Part.error?, Fault.error, unnamed]

theorem errors_nodePieces (node : Node Pieces) :
    (nodePieces node).errors operation =
      nodeList (tableErrors operation) (valueErrors operation) (node.map (Pieces.errors operation)) := by
  rw [← layOut_id_nodeSlots, errors_eq_listed, listed_layOut, Function.comp_id, listed_nodeSlots, tableFault_errors,
    ← funext (errors_eq_listed operation)]

theorem errorsOf_queryParts (query : Query (List Part)) :
    errorsOf operation (queryParts query) = queryList (tableErrors operation) (query.map (errorsOf operation)) := by
  have table : (fun name => errorsOf operation [.table name]) = tableErrors operation := by
    funext name
    simp [tableErrors]
  rw [← table]
  exact filterMap_queryList (Part.error? operation) query

theorem errorsOf_nodeParts (node : Node (List Part)) :
    errorsOf operation (nodeParts node) =
      nodeList (tableErrors operation) (valueErrors operation) (node.map (errorsOf operation)) := by
  have table : (fun name => errorsOf operation [.table name]) = tableErrors operation := by
    funext name
    simp [tableErrors]
  have value : (fun bound => errorsOf operation [.value bound]) = valueErrors operation := by
    funext bound
    simp [valueErrors]
  rw [← table, ← value]
  exact filterMap_nodeList (Part.error? operation) node

theorem errors_pieces (expr : Expr) :
    (Registry.mysql.pieces expr).errors operation = errorsOf operation (exprParts expr) := by
  rw [Registry.pieces_mysql, exprParts, Expr.map_fold (errors_nodePieces operation),
    Expr.map_fold (errorsOf_nodeParts operation)]

theorem errors_layOut (slots : List (Slot Expr)) :
    (layOut Registry.mysql.pieces slots).errors operation =
      listed (Fault.errors operation) (valueErrors operation) (exprErrors operation) slots := by
  have exprs : Pieces.listed (Fault.errors operation) (valueErrors operation) ∘ Registry.mysql.pieces =
      exprErrors operation := by
    funext expr
    exact (errors_eq_listed operation _).symm.trans (errors_pieces operation expr)
  rw [errors_eq_listed, listed_layOut, exprs]

theorem errorsOf_tailParts (condition : Option Expr) (sorts : List Expr) :
    errorsOf operation (tailParts condition sorts) =
      (condition.map (exprErrors operation)).getD [] ++ (sorts.map (exprErrors operation)).flatten := by
  cases condition <;> simp [tailParts, exprErrors]

theorem listed_updateErrors (update : Update) :
    listed (Fault.errors operation) (valueErrors operation) (exprErrors operation) (updateSlots update) =
      errorsOf operation (updateParts update) := by
  by_cases nothing : update.assignments = [] <;>
    simp [updateParts, listed_updateSlots, errorsOf_tailParts, tableErrors, Fault.errors, Fault.error, Part.error?,
      nothing]

theorem listed_deleteErrors (delete : Delete) :
    listed (Fault.errors operation) (valueErrors operation) (exprErrors operation) (deleteSlots delete) =
      errorsOf operation (deleteParts delete) := by
  simp [deleteParts, listed_deleteSlots, errorsOf_tailParts, tableErrors]

theorem listed_insertErrors (insert : Insert) :
    listed (Fault.errors operation) (valueErrors operation) (exprErrors operation) (insertSlots insert) =
      errorsOf operation (insertParts insert) := by
  by_cases noColumns : insert.columns = [] <;> by_cases noRows : insert.rows = [] <;>
    simp [insertParts, listed_insertSlots, tableErrors, Fault.errors, Fault.error, Part.error?, noColumns, noRows]

theorem listed_queryErrors (query : Select) :
    listed (Fault.errors operation) (valueErrors operation) (exprErrors operation) (querySlots query) =
      errorsOf operation (selectParts query) := by
  rw [listed_querySlots, tableFault_errors, selectParts, errorsOf_queryParts, Query.map_map]
  rfl

theorem errors_command (command : Command) :
    (command.pieces .mysql).errors operation = errorsOf operation command.parts := by
  rw [← layOut_commandSlots, errors_layOut]
  cases command with
  | find q | findOne q | page p => exact listed_queryErrors operation _
  | update u | updateOne u => exact listed_updateErrors operation _
  | delete d | deleteOne d => exact listed_deleteErrors operation _
  | insert i => exact listed_insertErrors operation i

end Errors

theorem write_eq (statement : Statement) (piece : Piece) :
    match piece.error? statement.operation with
    | some error => statement.write .mysql piece = .error error
    | none => ∃ next, statement.write .mysql piece = .ok next ∧ next.operation = statement.operation := by
  cases piece with
  | text text | identifier name => exact ⟨_, rfl, rfl⟩
  | fault reason => rfl
  | argument bound => cases resolved : Registry.mysql.resolve bound with
    | error error => simp [Piece.error?, Statement.write, resolved, Except.map]
    | ok v => simp [Piece.error?, Statement.write, resolved, Except.map, Statement.bind]

theorem writeAll_error (statement : Statement) (pieces : Pieces) :
    (statement.writeAll .mysql pieces).2 = (pieces.errors statement.operation).head? := by
  induction pieces generalizing statement with
  | nil => rfl
  | cons piece pieces ih =>
    have step := write_eq statement piece
    cases fault : piece.error? statement.operation with
    | some error =>
      have failed : statement.write .mysql piece = .error error := by simpa only [fault] using step
      simp [Statement.writeAll, failed, Pieces.errors, fault]
    | none =>
      obtain ⟨next, written, same⟩ : ∃ next, statement.write .mysql piece = .ok next ∧
        next.operation = statement.operation := by simpa only [fault] using step
      simp [Statement.writeAll, written, ih, same, Pieces.errors, fault]

theorem compose_eq_error_iff {operation : String} {pieces : Pieces} {error : BuildError} :
    Statement.compose .mysql operation pieces = .error error ↔ (pieces.errors operation).head? = some error := by
  rw [← writeAll_error { operation } pieces, Statement.compose]
  split
  · next run => simp [run]
  · next other run => simp [run]

/-- The result is an error if and only if a part is at fault, and it is the error of the first one that is. -/
structure FailsFirst (operation : String) (parts : List Part) (result : Except BuildError (String × List SqlValue)) :
    Prop where
  fails : (∃ error, result = .error error) ↔ ∃ part ∈ parts, ∃ error, part.Fails operation error
  first : ∀ error, result = .error error ↔ ∃ before part after, parts = before ++ part :: after ∧
    part.Fails operation error ∧ ∀ earlier ∈ before, ∀ other, ¬ earlier.Fails operation other
  registered : ∀ other kind, result ≠ .error (.unregistered other kind)
  encoded : ∀ kind, result ≠ .error (.noEncoder kind)

theorem failsFirst {operation : String} {parts : List Part} {pieces : Pieces}
    (same : pieces.errors operation = errorsOf operation parts) :
    FailsFirst operation parts (Statement.compose .mysql operation pieces) := by
  have first : ∀ error, Statement.compose .mysql operation pieces = .error error ↔
      ∃ before part after, parts = before ++ part :: after ∧ part.Fails operation error ∧
        ∀ earlier ∈ before, ∀ other, ¬ earlier.Fails operation other := by
    intro error
    rw [compose_eq_error_iff, same, errorsOf, List.head?_filterMap, List.findSome?_eq_some_iff]
    simp only [Part.error?_eq_some_iff, Option.eq_none_iff_forall_ne_some, ne_eq]
  refine ⟨⟨?_, ?_⟩, first, ?_, ?_⟩
  · rintro ⟨error, failed⟩
    obtain ⟨before, part, after, rfl, fails, _⟩ := (first error).mp failed
    exact ⟨part, by simp, error, fails⟩
  · rintro ⟨part, member, error, fails⟩
    have listed : error ∈ errorsOf operation parts :=
      List.mem_filterMap.mpr ⟨part, member, (part.error?_eq_some_iff operation).mpr fails⟩
    obtain ⟨head, rest, split⟩ := List.exists_cons_of_ne_nil (List.ne_nil_of_mem listed)
    exact ⟨head, compose_eq_error_iff.mpr (by rw [same, split, List.head?_cons])⟩
  · rintro other kind failed
    obtain ⟨_, part, _, _, fails, _⟩ := (first _).mp failed
    cases fails
  · rintro kind failed
    obtain ⟨_, part, _, _, fails, _⟩ := (first _).mp failed
    cases fails

theorem parts_connect (connective : Connective) (operands : List (Option Expr)) :
    (connective.connect operands).toList.flatMap exprParts = (operands.filterMap present?).flatMap exprParts := by
  have group (parts : List Expr) : exprParts (.group parts) = parts.flatMap exprParts := by
    simp [exprParts, Expr.group, Expr.fold_ofNode, nodeParts, nodeList, Node.map, List.flatMap_def]
    rfl
  have raw (text : String) : exprParts (.raw text) = [] := rfl
  rw [Connective.connect]
  cases operands.filterMap present? with
  | nil => rfl
  | cons first others => cases others with
    | nil => rfl
    | cons second rest => simp [Connective.join?, group, raw, List.flatMap_assoc]

theorem commands_fail_at_first_fault :
    (∀ command : Command, FailsFirst command.operation command.parts (command.build .mysql)) ∧
      ∀ (connective : Connective) (operands : List (Option Expr)),
        (connective.connect operands).toList.flatMap exprParts = (operands.filterMap present?).flatMap exprParts :=
  ⟨fun command => failsFirst (errors_command command.operation command), parts_connect⟩

/-- The inner query has no table. The error is that of the statement around it. -/
example : (Command.deleteOne { table := "accounts", condition := some (.existence false {}) }).build .mysql =
    .error (.emptyTable "delete_one") := rfl

end SqlComposer.Compose
