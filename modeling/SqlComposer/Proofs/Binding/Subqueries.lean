import SqlComposer.Proofs.Writing.Faults
import SqlComposer.Proofs.Writing.Slots

namespace SqlComposer

open Compose

namespace Sql

inductive Expr.Contains (query : Select) : Expr → Prop
  | subquery : Contains query (.subquery query)
  | existence (negated : Bool) : Contains query (.existence negated query)
  | part {node : Node Expr} {part : Expr} : part ∈ node.parts → Contains query part → Contains query (.ofNode node)

end Sql

namespace Compose

open Sql Slots

/-- The surroundings of a query in parentheses: the pieces in front, the word at its parenthesis, the pieces behind. -/
structure Place where
  lead : Pieces := []
  word : String := ""
  tail : Pieces := []

namespace Place

def around (place : Place) (inner : Pieces) : Pieces :=
  place.lead ++ .text (place.word ++ "(") :: inner ++ .text ")" :: place.tail

def within (place : Place) (left right : List (Slot Expr)) : Place where
  lead := layOut Registry.mysql.pieces left ++ place.lead
  word := place.word
  tail := place.tail ++ layOut Registry.mysql.pieces right

end Place

end Compose

namespace Sql

/-- The query is rendered at the place. An expression that is laid out twice renders its queries at two places. -/
inductive Expr.Renders (query : Select) : Expr → Place → Prop
  | subquery : Renders query (.subquery query) {}
  | existence (negated : Bool) :
    Renders query (.existence negated query) { word := if negated then "NOT EXISTS " else "EXISTS " }
  | part {node : Node Expr} {part : Expr} {left right : List (Slot Expr)} {place : Place} :
    nodeSlots node = left ++ .part part :: right → Renders query part place →
      Renders query (.ofNode node) (place.within left right)

end Sql

namespace Compose

open Sql Slots

inductive Command.Renders (query : Select) : Command → Place → Prop
  | part {command : Command} {part : Expr} {left right : List (Slot Expr)} {place : Place} :
    commandSlots command = left ++ .part part :: right → part.Renders query place →
      Renders query command (place.within left right)

variable {query : Select} {expr : Expr} {command : Command} {place : Place}

theorem around_within (place : Place) (left right : List (Slot Expr)) (inner : Pieces) :
    (place.within left right).around inner =
      layOut Registry.mysql.pieces left ++ place.around inner ++ layOut Registry.mysql.pieces right := by
  simp [Place.around, Place.within]

theorem pieces_ofNode (node : Node Expr) :
    Registry.mysql.pieces (.ofNode node) = layOut Registry.mysql.pieces (nodeSlots node) := by
  rw [layOut_nodeSlots, Registry.pieces, Expr.fold_ofNode, Registry.render_mysql]
  rfl

theorem pieces_of_renders (renders : expr.Renders query place) :
    Registry.mysql.pieces expr = place.around (selectPieces .mysql query) := by
  induction renders with
  | subquery =>
    rw [Expr.subquery, pieces_ofNode, layOut_nodeSlots]
    rfl
  | existence negated =>
    rw [Expr.existence, pieces_ofNode, layOut_nodeSlots]
    cases negated <;> rfl
  | part split _ ih => rw [pieces_ofNode, split, layOut_append, layOut_part, ih, around_within, List.append_assoc]

theorem pieces_of_command_renders (renders : command.Renders query place) :
    command.pieces .mysql = place.around (selectPieces .mysql query) := by
  obtain ⟨split, rendersPart⟩ := renders
  rw [← layOut_commandSlots, split, layOut_append, layOut_part, pieces_of_renders rendersPart, around_within,
    List.append_assoc]

theorem exists_place (contains : expr.Contains query) : ∃ place, expr.Renders query place := by
  induction contains with
  | subquery => exact ⟨_, .subquery⟩
  | existence negated => exact ⟨_, .existence negated⟩
  | part member _ ih =>
    obtain ⟨place, renders⟩ := ih
    obtain ⟨left, right, split⟩ := exists_split (mem_parts_nodeSlots_iff.mpr member)
    exact ⟨_, .part split renders⟩

theorem exists_command_place (member : expr ∈ command.written) (contains : expr.Contains query) :
    ∃ place, command.Renders query place := by
  obtain ⟨place, renders⟩ := exists_place contains
  obtain ⟨left, right, split⟩ := exists_split (parts_commandSlots command ▸ member)
  exact ⟨_, .part split renders⟩

def Statement.after (before written : Statement) : Statement :=
  { before with text := before.text ++ written.text, values := before.values ++ written.values }

theorem operation_writeAll (statement : Statement) (pieces : Pieces) :
    (statement.writeAll .mysql pieces).1.operation = statement.operation := by
  induction pieces generalizing statement with
  | nil => rfl
  | cons piece pieces ih =>
    have step := write_eq statement piece
    cases fault : piece.error? statement.operation with
    | some error =>
      have failed : statement.write .mysql piece = .error error := by simpa only [fault] using step
      rw [Statement.writeAll, failed]
    | none =>
      obtain ⟨next, written, same⟩ : ∃ next, statement.write .mysql piece = .ok next ∧
        next.operation = statement.operation := by simpa only [fault] using step
      rw [Statement.writeAll, written]
      exact (ih next).trans same

theorem write_after {before start : Statement} (same : start.operation = before.operation) (piece : Piece) :
    (before.after start).write .mysql piece = (start.write .mysql piece).map before.after := by
  cases piece with
  | text words | identifier name =>
    simp [Statement.write, Statement.append, Statement.after, Except.map, String.append_assoc]
  | argument bound =>
    cases resolved : Registry.mysql.resolve bound <;>
      simp [Statement.write, resolved, Except.map, Statement.bind, Statement.after, String.append_assoc]
  | fault reason => simp [Statement.write, Statement.after, Except.map, same]

theorem writeAll_after {before start : Statement} (same : start.operation = before.operation) (pieces : Pieces) :
    (before.after start).writeAll .mysql pieces = Prod.map before.after id (start.writeAll .mysql pieces) := by
  induction pieces generalizing start with
  | nil => rfl
  | cons piece pieces ih =>
    simp only [Statement.writeAll, write_after same]
    have kept := operation_writeAll start [piece]
    cases step : start.write .mysql piece with
    | error error => rfl
    | ok next =>
      simp only [Statement.writeAll, step] at kept
      exact ih (kept.trans same)

theorem compose_append (operation : String) (a b : Pieces) :
    Statement.compose .mysql operation (a ++ b) = do
      let (x, xs) ← Statement.compose .mysql operation a
      let (y, ys) ← Statement.compose .mysql operation b
      return (x ++ y, xs ++ ys) := by
  have kept := operation_writeAll { operation } a
  unfold Statement.compose
  rw [Statement.writeAll_append]
  cases run : Statement.writeAll .mysql { operation } a with
  | mk done outcome => cases outcome with
    | some error => rfl
    | none =>
      -- The second run goes on where the first one ended: it writes behind it what it writes on its own.
      rw [run] at kept
      have start : done = done.after { operation } := by simp [Statement.after]
      have rest : (done.after { operation }).writeAll .mysql b =
          Prod.map done.after id (Statement.writeAll .mysql { operation } b) := writeAll_after kept.symm b
      rw [← start] at rest
      simp only [rest]
      cases Statement.writeAll .mysql { operation } b with
      | mk last outcome => cases outcome <;> rfl

def BuildError.inOperation (operation : String) : BuildError → BuildError
  | .unregistered _ kind => .unregistered operation kind
  | .emptyTable _ => .emptyTable operation
  | .nothingToWrite _ => .nothingToWrite operation
  | error => error

theorem error?_inOperation (operation other : String) (part : Part) :
    part.error? operation = (part.error? other).map (BuildError.inOperation operation) := by
  cases part with
  | table name => by_cases unnamed : name = "" <;> simp [Part.error?, unnamed, BuildError.inOperation]
  | content present => cases present <;> simp [Part.error?, BuildError.inOperation]
  | value bound => cases given : bound.outcome with
    | error reason => simp [Part.error?, given, BuildError.inOperation]
    | ok v => cases v with
      | dateTime time => by_cases outside : time.utcText? = none <;>
          simp [Part.error?, given, outside, BuildError.inOperation]
      | _ => simp [Part.error?, given]

theorem errors_inOperation (operation other : String) (query : Select) :
    (selectPieces .mysql query).errors operation =
      ((selectPieces .mysql query).errors other).map (BuildError.inOperation operation) := by
  have select (operation : String) :
      (selectPieces .mysql query).errors operation = errorsOf operation (selectParts query) :=
    errors_command operation (.find query)
  rw [select, select, errorsOf, errorsOf, List.map_filterMap]
  exact congrArg (fun error? => (selectParts query).filterMap error?)
    (funext fun part => error?_inOperation operation other part)

theorem writeAll_inOperation {start last : Statement} {pieces : Pieces}
    (written : start.writeAll .mysql pieces = (last, none)) (operation : String) :
    ({ start with operation } : Statement).writeAll .mysql pieces = ({ last with operation }, none) := by
  induction pieces generalizing start with
  | nil =>
    obtain rfl : start = last := congrArg Prod.fst written
    rfl
  | cons piece pieces ih =>
    cases step : start.write .mysql piece with
    | error error => simp [Statement.writeAll, step] at written
    | ok next =>
      -- Only faults know the statement that they occur in, and nothing fails here.
      have renamed : ({ start with operation } : Statement).write .mysql piece = .ok { next with operation } := by
        cases piece with
        | text words | identifier name =>
          obtain rfl := Except.ok.inj step
          rfl
        | argument bound =>
          cases resolved : Registry.mysql.resolve bound with
          | error error => simp [Statement.write, resolved, Except.map] at step
          | ok v =>
            obtain rfl : start.bind v = next := by simpa [Statement.write, resolved, Except.map] using step
            simp [Statement.write, resolved, Except.map, Statement.bind]
        | fault reason => cases step
      simp only [Statement.writeAll, renamed]
      exact ih (by simpa [Statement.writeAll, step] using written)

theorem compose_inOperation (operation : String) (query : Select) :
    Statement.compose .mysql operation (selectPieces .mysql query) =
      ((Command.find query).build .mysql).mapError (BuildError.inOperation operation) := by
  have alone : (Command.find query).build .mysql = Statement.compose .mysql "find" (selectPieces .mysql query) := rfl
  cases built : Statement.compose .mysql "find" (selectPieces .mysql query) with
  | ok result =>
    rw [alone, built]
    unfold Statement.compose at built ⊢
    cases run : Statement.writeAll .mysql { operation := "find" } (selectPieces .mysql query) with
    | mk last outcome => cases outcome with
      | some error => simp [run] at built
      | none =>
        have renamed : Statement.writeAll .mysql { operation } (selectPieces .mysql query) =
            ({ last with operation }, none) := writeAll_inOperation run operation
        rw [run] at built
        simp only [renamed]
        exact built
  | error error =>
    have first := compose_eq_error_iff.mp built
    rw [alone, built]
    apply compose_eq_error_iff.mpr
    rw [errors_inOperation operation "find", List.head?_map, first]
    rfl

theorem compose_text (operation words : String) (pieces : Pieces) :
    Statement.compose .mysql operation (.text words :: pieces) = do
      let (y, ys) ← Statement.compose .mysql operation pieces
      return (words ++ y, ys) := by
  have first : Statement.compose .mysql operation [.text words] = .ok (words, []) := by
    simp [Statement.compose, Statement.writeAll, Statement.write, Statement.append]
  rw [← List.singleton_append, compose_append, first]
  rfl

theorem compose_around (operation : String) (place : Place) (query : Select) :
    Statement.compose .mysql operation (place.around (selectPieces .mysql query)) = do
      let (x, xs) ← Statement.compose .mysql operation place.lead
      let (t, a) ← ((Command.find query).build .mysql).mapError (BuildError.inOperation operation)
      let (y, ys) ← Statement.compose .mysql operation place.tail
      return (x ++ (place.word ++ "(" ++ t ++ ")") ++ y, xs ++ a ++ ys) := by
  rw [Place.around, compose_append, compose_append, compose_text, compose_text, compose_inOperation]
  cases Statement.compose .mysql operation place.lead with
  | error error => rfl
  | ok front =>
    cases ((Command.find query).build .mysql).mapError (BuildError.inOperation operation) with
    | error error => rfl
    | ok inner =>
      cases Statement.compose .mysql operation place.tail with
      | error error => rfl
      | ok back => simp [bind, Except.bind, pure, Except.pure, String.append_assoc]

structure IsLocal (query : Select) (operation : String) (place : Place)
    (built : Except BuildError (String × List SqlValue)) : Prop where
  adds : ∀ t a, (Command.find query).build .mysql = .ok (t, a) → ∀ text values, built = .ok (text, values) →
    ∃ x xs y ys, Statement.compose .mysql operation place.lead = .ok (x, xs) ∧
      Statement.compose .mysql operation place.tail = .ok (y, ys) ∧
      text = x ++ (place.word ++ "(" ++ t ++ ")") ++ y ∧ values = xs ++ a ++ ys
  succeeds : ∀ t a, (Command.find query).build .mysql = .ok (t, a) →
    ∀ x xs, Statement.compose .mysql operation place.lead = .ok (x, xs) →
      ∀ y ys, Statement.compose .mysql operation place.tail = .ok (y, ys) →
        built = .ok (x ++ (place.word ++ "(" ++ t ++ ")") ++ y, xs ++ a ++ ys)
  fails : ∀ error, (Command.find query).build .mysql = .error error →
    ∀ x xs, Statement.compose .mysql operation place.lead = .ok (x, xs) →
      built = .error (error.inOperation operation)

theorem isLocal {operation : String} {pieces : Pieces} (shown : pieces = place.around (selectPieces .mysql query)) :
    IsLocal query operation place (Statement.compose .mysql operation pieces) := by
  have whole := compose_around operation place query
  rw [← shown] at whole
  constructor
  · intro t a alone text values built
    rw [whole, alone] at built
    cases front : Statement.compose .mysql operation place.lead with
    | error error =>
      rw [front] at built
      cases built
    | ok x => cases back : Statement.compose .mysql operation place.tail with
      | error error =>
        rw [front, back] at built
        cases built
      | ok y =>
        rw [front, back] at built
        obtain ⟨rfl, rfl⟩ := Prod.mk.inj (Except.ok.inj built)
        exact ⟨x.1, x.2, y.1, y.2, rfl, rfl, rfl, rfl⟩
  · intro t a alone x xs front y ys back
    rw [whole, alone, front, back]
    rfl
  · intro error alone x xs front
    rw [whole, alone, front]
    rfl

theorem subqueries_are_local (query : Select) :
    (∀ command : Command, ∀ expr ∈ command.written, expr.Contains query → ∃ place, command.Renders query place) ∧
    (∀ (command : Command) (place : Place), command.Renders query place →
      IsLocal query command.operation place (command.build .mysql)) ∧
    (∀ expr : Expr, expr.Contains query → ∃ place, expr.Renders query place) ∧
    ∀ (expr : Expr) (place : Place), expr.Renders query place →
      IsLocal query "expr" place (buildExpr .mysql expr) :=
  ⟨fun _ _ member contains => exists_command_place member contains,
    fun _ _ renders => isLocal (pieces_of_command_renders renders), fun _ => exists_place,
    fun _ _ renders => isLocal (pieces_of_renders renders)⟩

def largest : Select where
  table := "orders"
  projections := [.aggregate .maximum (.column "total")]
  condition := some (.comparison .lowerThan (.column "total") (.value (.i64 9)))

def rise : Expr := .adjustment (.column "best") .plus (.subquery largest)

def raised : Update where
  table := "users"
  assignments := [rise]
  condition := some (.existence true largest)

theorem largest_is_local_in_raised :
    (Command.find largest).build .mysql = .ok ("SELECT MAX(`total`) FROM `orders` WHERE `total` < ?", [.i64 9]) ∧
    (Command.update raised).build .mysql = .ok
      ("UPDATE `users` SET `best` = `best` + (SELECT MAX(`total`) FROM `orders` WHERE `total` < ?)" ++
        " WHERE NOT EXISTS (SELECT MAX(`total`) FROM `orders` WHERE `total` < ?)", [.i64 9, .i64 9]) ∧
    (∃ place, (Command.update raised).Renders largest place ∧
      IsLocal largest "update" place ((Command.update raised).build .mysql)) ∧
    ∃ place, rise.Renders largest place ∧ IsLocal largest "expr" place (buildExpr .mysql rise) := by
  have contains : rise.Contains largest := .part (List.mem_cons_of_mem _ List.mem_cons_self) .subquery
  have written : rise ∈ (Command.update raised).written := List.mem_cons_self
  obtain ⟨commands, inCommands, exprs, inExprs⟩ := subqueries_are_local largest
  obtain ⟨place, renders⟩ := commands (.update raised) rise written contains
  obtain ⟨own, rendersOwn⟩ := exprs rise contains
  exact ⟨rfl, rfl, ⟨place, renders, inCommands _ _ renders⟩, own, rendersOwn, inExprs _ _ rendersOwn⟩

end Compose

end SqlComposer
