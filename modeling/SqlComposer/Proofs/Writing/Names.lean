import SqlComposer.Proofs.Binding.Fragment
import SqlComposer.Proofs.Writing.Lexemes

namespace SqlComposer.Sql

open Compose (Unmarked)

/-- No fragment holds a quote mark, and a group is a joined condition or no expression at all. -/
inductive Expr.IsTidy : Expr → Prop
  | node {node : Node Expr} : (∀ fragment ∈ node.fragments, Unmarked fragment) → node.kind ≠ .group →
      (∀ part ∈ node.parts, part.IsTidy) → IsTidy (.ofNode node)
  | zero : IsTidy .zero
  | joined {connective : Connective} {operands : List Expr} {expr : Expr} :
      (∀ operand ∈ operands, operand.IsTidy) → connective.join? operands = some expr → IsTidy expr

theorem keptByConditions_isTidy : KeptByConditions Expr.IsTidy where
  join _ _ tidy expr joined := .joined tidy (Option.mem_toList.mp joined)
  comparison operator field v tidyField tidyValue :=
    .node (by simp [Node.fragments]) (by simp [Node.kind]) (by simp [Node.parts, tidyField, tidyValue])
  sorted field order tidy := by
    generalize given : Expr.ofNode (.sort field order) = expr at tidy
    induction tidy with
    | node _ _ parts =>
      cases given
      exact parts field (by simp [Node.parts])
    | zero => cases given
    | joined _ joined ih =>
      obtain rfl | ⟨first, others, rfl, rfl⟩ := join?_eq_some joined
      · exact ih _ List.mem_cons_self given
      · cases given

end SqlComposer.Sql

namespace SqlComposer.Compose

open Sql

theorem unmarked_of_isPlain {text : String} (plain : IsPlain text) : Unmarked text := fun member =>
  (plain quoteMark member).2 rfl

namespace Pieces

variable {touching : Bool} {a b pieces : Pieces}

theorem Apart.weaken (apart : Apart true pieces) : Apart touching pieces := by
  cases touching with
  | true => exact apart
  | false =>
    induction pieces with
    | nil => trivial
    | cons piece pieces ih => cases piece with
      | text words =>
        obtain ⟨unmarked, rest⟩ := apart
        by_cases empty : words = ""
        · exact ⟨unmarked, ih (by simpa [empty] using rest)⟩
        · exact ⟨unmarked, by simpa [empty] using rest⟩
      | identifier name => cases apart.1
      | argument bound => exact apart
      | fault reason => exact ih apart

theorem Apart.append (first : Apart touching a) (second : Apart true b) : Apart touching (a ++ b) := by
  induction a generalizing touching with
  | nil => exact second.weaken
  | cons piece a ih => cases piece with
    | text words | identifier name => exact ⟨first.1, ih first.2⟩
    | argument bound | fault reason => exact ih first

theorem keptByLayout_apart : KeptByLayout Unmarked Apart where
  plain _ := unmarked_of_isPlain
  opening name unmarked := unmarked_append.mpr ⟨unmarked, by decide⟩
  nil _ := trivial
  single text unmarked := ⟨unmarked, trivial⟩
  text _ text pieces unmarked proper rest := by simpa [Apart, proper] using ⟨unmarked, rest⟩
  identifier _ _ rest := ⟨rfl, rest⟩
  argument _ := trivial
  fault _ _ := trivial
  append _ _ _ := Apart.append

end Pieces

open Pieces

theorem pieces_joined (connective : Connective) (first : Expr) (others : List Expr) :
    Registry.mysql.pieces (.group (.raw "(" :: first ::
        others.flatMap (fun next => [.raw connective.text, next]) ++ [.raw ")"])) =
      .text "(" :: (Registry.mysql.pieces first ++
        (others.flatMap (fun next => .text connective.text :: Registry.mysql.pieces next) ++ [.text ")"])) := by
  have raw (text : String) : Registry.mysql.pieces (.raw text) = [.text text] := rfl
  have group (parts : List Expr) : Registry.mysql.pieces (.group parts) = parts.flatMap Registry.mysql.pieces := by
    rw [Registry.pieces_mysql, Expr.group, Expr.fold_ofNode, List.flatMap_def, funext Registry.pieces_mysql]
    rfl
  simp [group, raw, List.flatMap_assoc]

theorem apart_pieces {expr : Expr} (tidy : expr.IsTidy) : Pieces.Apart false (Registry.mysql.pieces expr) := by
  induction tidy with
  | @node node fragments single _ ih =>
    rw [Registry.pieces_mysql, Expr.fold_ofNode]
    apply keptByLayout_apart.nodePieces
    · simpa using fragments
    · simpa using single
    · rw [Node.parts_map, List.forall_mem_map]
      intro part member
      rw [← Registry.pieces_mysql]
      exact ih part member
  | zero => trivial
  | @joined connective _ _ _ joined ih =>
    obtain rfl | ⟨first, others, rfl, rfl⟩ := join?_eq_some joined
    · exact ih _ List.mem_cons_self
    · rw [List.forall_mem_cons] at ih
      have word : IsWord connective.text := by cases connective <;> decide
      -- Behind the first operand every name has the connective in front of it.
      have rest : Pieces.Apart true
          (others.flatMap fun next => .text connective.text :: Registry.mysql.pieces next) := by
        apply keptByLayout_apart.flatMap
        intro next member
        exact keptByLayout_apart.ahead word (ih.2 next member)
      rw [pieces_joined]
      exact keptByLayout_apart.ahead (by decide) (ih.1.append (keptByLayout_apart.closed rest (by decide)))

def Command.IsTidy (command : Command) : Prop := ∀ expr ∈ command.exprs, expr.IsTidy

theorem apart_command {command : Command} (tidy : command.IsTidy) : Pieces.Apart false (command.pieces .mysql) :=
  keptByLayout_apart.command (fun _ => apart_pieces) keptByConditions_isTidy tidy

section

variable {s : Substitution}

theorem Pieces.Apart.subst {touching : Bool} {pieces : Pieces} (apart : pieces.Apart touching) :
    (pieces.subst s).Apart touching := by
  induction pieces generalizing touching with
  | nil => trivial
  | cons piece pieces ih => cases piece with
    | text words | identifier name => exact ⟨apart.1, ih apart.2⟩
    | argument bound | fault reason => exact ih apart

theorem lexemes_subst (pieces : Pieces) :
    (pieces.subst s).lexemes = pieces.lexemes.map (Lexeme.rename s.name) := by
  induction pieces with
  | nil => rfl
  | cons piece pieces ih =>
    have same : (Piece.subst s piece).lexemes = piece.lexemes.map (Lexeme.rename s.name) := by
      cases piece <;> simp [Piece.subst, Piece.lexemes, Lexeme.rename]
    simpa [Pieces.lexemes, Pieces.subst, same] using ih

theorem unclosed_not_mem (pieces : Pieces) (name : String) : Lexeme.unclosed name ∉ pieces.lexemes := by
  rw [Pieces.lexemes, List.mem_flatMap]
  rintro ⟨piece, _, member⟩
  cases piece <;> simp [Piece.lexemes] at member

theorem writeAll_subst (kept : s.argument = id) (statement other : Statement)
    (operation : other.operation = statement.operation) (values : other.values = statement.values) (pieces : Pieces) :
    (other.writeAll .mysql (pieces.subst s)).2 = (statement.writeAll .mysql pieces).2 ∧
      (other.writeAll .mysql (pieces.subst s)).1.values = (statement.writeAll .mysql pieces).1.values := by
  induction pieces generalizing statement other with
  | nil => exact ⟨rfl, values⟩
  | cons piece pieces ih => cases piece with
    | text words | identifier name => exact ih _ _ operation values
    | argument bound =>
      rw [Pieces.subst_argument, kept]
      cases resolved : Registry.mysql.resolve bound with
      | error error => simp [Statement.writeAll, Statement.write, resolved, Except.map, values]
      | ok v =>
        have bound : (other.bind v).values = (statement.bind v).values := by simp [Statement.bind, values]
        simpa [Statement.writeAll, Statement.write, resolved, Except.map] using
          ih (statement.bind v) (other.bind v) operation bound
    | fault reason => simp [Statement.writeAll, Statement.write, operation, values]

end

inductive SameButNames (name : String → String) :
    (result other : Except BuildError (String × List SqlValue)) → Prop
  | failed {error} : SameButNames name (.error error) (.error error)
  | built {text other values} : lexemes other = (lexemes text).map (Lexeme.rename name) →
      (∀ seen, Lexeme.unclosed seen ∉ lexemes text) → SameButNames name (.ok (text, values)) (.ok (other, values))

theorem sameButNames {s : Substitution} (kept : s.argument = id) {operation : String} {pieces : Pieces}
    (apart : pieces.Apart false) :
    SameButNames s.name (Statement.compose .mysql operation pieces)
      (Statement.compose .mysql operation (pieces.subst s)) := by
  have texts : lexemes (pieces.subst s).shown = (lexemes pieces.shown).map (Lexeme.rename s.name) := by
    rw [lexemes_shown apart, lexemes_shown apart.subst, lexemes_subst]
  have closed : ∀ seen, Lexeme.unclosed seen ∉ lexemes pieces.shown := by
    rw [lexemes_shown apart]
    exact unclosed_not_mem pieces
  obtain ⟨outcome, values⟩ := writeAll_subst kept { operation } { operation } rfl rfl pieces
  unfold Statement.compose
  cases run : Statement.writeAll .mysql { operation } pieces with
  | mk last failure => cases runToo : Statement.writeAll .mysql { operation } (pieces.subst s) with
    | mk lastToo failureToo =>
      obtain rfl : failureToo = failure := by simpa [run, runToo] using outcome
      cases failureToo with
      | some error => exact .failed
      | none =>
        have text : last.text = pieces.shown := by simpa using (shown_writeAll run).1
        have textToo : lastToo.text = (pieces.subst s).shown := by simpa using (shown_writeAll runToo).1
        have same : lastToo.values = last.values := by simpa [run, runToo] using values
        rw [← text] at texts closed
        rw [← textToo] at texts
        dsimp only
        rw [same]
        exact .built texts closed

/-- The hypotheses leave out what is not a name between quotes: other arguments, fragments with quote marks of their
own, and groups that were put together by hand. -/
theorem names_stay_in_their_quotes (s : Substitution) (kept : s.argument = id) :
    (∀ command : Command, command.IsTidy →
      SameButNames s.name (command.build .mysql) ((s.command command).build .mysql)) ∧
    ∀ expr : Expr, expr.IsTidy → SameButNames s.name (buildExpr .mysql expr) (buildExpr .mysql (s.expr expr)) := by
  constructor
  · intro command tidy
    have operation : (s.command command).operation = command.operation := by cases command <;> rfl
    rw [Command.build, Command.build, operation, ← subst_command]
    exact sameButNames kept (apart_command tidy)
  · intro expr tidy
    rw [buildExpr, buildExpr, ← subst_pieces]
    exact sameButNames kept (apart_pieces tidy)

def marked : Substitution where
  name n := if n = "" ∨ n = "*" then n else .ofList (quoteMark :: n.toList)
  name_eq_empty n := by split <;> simp_all
  name_eq_star n := by
    split
    · rfl
    · have other : String.ofList (quoteMark :: n.toList) ≠ "*" := fun equal => by
        simpa [quoteMark] using congrArg String.toList equal
      simp_all

def lent : List (Option Expr) :=
  [some (.equal (.column "lent") (.value (.bool true))),
    some (.comparison .within (.column "shelf") (.subquery { table := "attic", projections := [.column "*"] }))]

def books : Select where
  table := "books"
  projections := [.labelled (.column "ti`tle") "` FROM `"]
  condition := anyOf lent

theorem names_of_books_stay_in_their_quotes :
    (Command.find books).IsTidy ∧ marked.argument = id ∧
    (Command.find books).build .mysql = .ok
      ("SELECT `ti``tle` AS ``` FROM ``` FROM `books` WHERE (`lent` = ? OR `shelf` IN (SELECT * FROM `attic`))",
        [.i64 1]) ∧
    (marked.command (.find books)).build .mysql = .ok
      ("SELECT ```ti``tle` AS ````` FROM ``` FROM ```books` WHERE (```lent` = ? OR ```shelf` IN " ++
        "(SELECT * FROM ```attic`))", [.i64 1]) ∧
    SameButNames marked.name ((Command.find books).build .mysql) ((marked.command (.find books)).build .mysql) := by
  have column (name : String) : (Expr.column name).IsTidy :=
    .node (by simp [Node.fragments]) (by simp [Node.kind]) (by simp [Node.parts])
  have argument : (Expr.value (.bool true)).IsTidy :=
    .node (by simp [Node.fragments]) (by simp [Node.kind]) (by simp [Node.parts])
  have attic : (Expr.subquery { table := "attic", projections := [.column "*"] }).IsTidy :=
    .node (by simp [Node.fragments]) (by simp [Node.kind]) (by simpa [Node.parts, Query.parts] using column "*")
  have title : (Expr.labelled (.column "ti`tle") "` FROM `").IsTidy :=
    .node (by simp [Node.fragments]) (by simp [Node.kind]) (by simpa [Node.parts] using column "ti`tle")
  have condition : ∀ expr ∈ (anyOf lent).toList, expr.IsTidy := by
    apply keptByConditions_isTidy.connect
    simpa [lent] using ⟨keptByConditions_isTidy.comparison .equal _ _ (column "lent") argument,
      keptByConditions_isTidy.comparison .within _ _ (column "shelf") attic⟩
  have tidy : (Command.find books).IsTidy := by
    simpa [Command.IsTidy, Command.exprs, Query.parts, books, title] using condition
  exact ⟨tidy, rfl, rfl, rfl, (names_stay_in_their_quotes marked rfl).1 _ tidy⟩

end SqlComposer.Compose
