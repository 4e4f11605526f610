import SqlComposer.Proofs.Expression.Conditions
import SqlComposer.Compose.Command
/-!
What laid out pieces keep of their parts. A property of pieces that has the laws of `KeptByLayout` goes from the parts
of a node to the node, and from the expressions of a command to the command.
-/

namespace SqlComposer.Sql

variable {α : Type}

def Node.fragments : Node α → List String
  | .raw text => [text]
  | .call name _ | .jsonCall name _ => [name]
  | _ => []

def Expr.fragments (expr : Expr) : List String :=
  expr.fold fun node => node.fragments ++ node.parts.flatten

@[simp] theorem Node.fragments_map {β : Type} (f : α → β) (node : Node α) :
    (node.map f).fragments = node.fragments := by
  cases node <;> rfl

theorem Expr.fragments_ofNode (node : Node Expr) :
    (Expr.ofNode node).fragments = node.fragments ++ node.parts.flatMap Expr.fragments := by
  simp only [fragments, fold_ofNode, Node.fragments_map, Node.parts_map]
  rfl

def IsPlain (text : String) : Prop := ∀ c ∈ text.toList, c ≠ '?' ∧ c ≠ quoteMark

instance (text : String) : Decidable (IsPlain text) := List.decidableBAll _ text.toList

@[simp] theorem isPlain_append {a b : String} : IsPlain (a ++ b) ↔ IsPlain a ∧ IsPlain b := by
  simp only [IsPlain, String.toList_append, List.forall_mem_append]

theorem isPlain_toString (n : UInt64) : IsPlain (toString n) := by
  intro c member
  have digit : c.isDigit := by
    refine Nat.isDigit_of_mem_toDigits (b := 10) (n := n.toNat) (by decide) (by decide) ?_
    simpa [toString, Nat.repr_eq_ofList_toDigits] using member
  constructor <;> rintro rfl <;> contradiction

end SqlComposer.Sql

namespace SqlComposer.Compose

open Sql

theorem isPlain_limitText (count skip : UInt64) : IsPlain (limitText count skip) := by
  unfold limitText
  split <;> split <;> simp [isPlain_toString] <;> decide

theorem isPlain_lockText (lock : Lock) : IsPlain (lockText lock) := by
  obtain ⟨mode, wait⟩ := lock
  rcases wait with _ | wait <;> cases mode <;> first | decide | (cases wait <;> decide)

def IsWord (text : String) : Prop := IsPlain text ∧ text ≠ ""

instance (text : String) : Decidable (IsWord text) := inferInstanceAs (Decidable (_ ∧ _))

def Command.exprs : Command → List Expr
  | .find q | .findOne q => q.parts
  | .page p => p.query.parts ++ p.cursor
  | .update u | .updateOne u => u.condition.toList ++ u.assignments ++ u.sorts
  | .delete d | .deleteOne d => d.condition.toList ++ d.sorts
  | .insert i => i.rows.flatten

/-- A property of pieces that may depend on whether a name stands right in front of them. -/
structure KeptByLayout (word : String → Prop) (P : (behind : Bool) → Pieces → Prop) : Prop where
  plain : ∀ text, IsPlain text → word text
  opening : ∀ name, word name → word (name ++ "(")
  nil : ∀ behind, P behind []
  single : ∀ text, word text → P true [.text text]
  text : ∀ behind text pieces, word text → text ≠ "" → P false pieces → P behind (.text text :: pieces)
  identifier : ∀ name pieces, P true pieces → P false (.identifier name :: pieces)
  argument : ∀ bound, P false [.argument bound]
  fault : ∀ behind reason, P behind [.fault reason]
  append : ∀ behind a b, P behind a → P true b → P behind (a ++ b)

namespace KeptByLayout

variable {word : String → Prop} {P : Bool → Pieces → Prop} {behind : Bool} {text : String} {a b : Pieces}
  (kept : KeptByLayout word P)

include kept

theorem weaken (holds : P true a) : P false a := kept.append false [] a (kept.nil false) holds

theorem name (name : String) : P false [.identifier name] := kept.identifier name [] (kept.nil true)

theorem ahead (isWord : IsWord text) (holds : P false a) : P behind (.text text :: a) :=
  kept.text behind text a (kept.plain text isWord.1) isWord.2 holds

theorem between (first : P behind a) (isWord : IsWord text) (second : P false b) : P behind (a ++ .text text :: b) :=
  kept.append behind a _ first (kept.ahead isWord second)

theorem closed (holds : P behind a) (isWord : IsWord text) : P behind (a ++ [.text text]) :=
  kept.between holds isWord (kept.nil false)

theorem separated {items : List Pieces} (parts : ∀ item ∈ items, P false item) :
    P false (Pieces.separated "," items) := by
  induction items with
  | nil => exact kept.nil false
  | cons item items ih => cases items with
    | nil => simpa using parts
    | cons next items =>
      rw [List.forall_mem_cons] at parts
      exact kept.between parts.1 (by decide) (ih parts.2)

theorem flatMap {α : Type} {pieces : α → Pieces} {items : List α} (each : ∀ item ∈ items, P true (pieces item)) :
    P true (items.flatMap pieces) := by
  induction items with
  | nil => exact kept.nil true
  | cons item items ih =>
    rw [List.forall_mem_cons] at each
    exact kept.append true _ _ each.1 (ih each.2)

theorem clause (isWord : IsWord text) {condition : Option Pieces} (parts : ∀ part ∈ condition.toList, P false part) :
    P true (Pieces.clause text condition) := by
  cases condition with
  | none => exact kept.nil true
  | some part => exact kept.ahead isWord (parts part (by simp))

theorem listClause (isWord : IsWord text) {items : List Pieces} (parts : ∀ item ∈ items, P false item) :
    P true (Pieces.listClause text items) := by
  unfold Pieces.listClause
  split
  · exact kept.nil true
  · exact kept.ahead isWord (kept.separated parts)

theorem table (database name : String) : P false (Pieces.table database name) := by
  unfold Pieces.table
  split
  · exact kept.fault false .emptyTable
  · split
    · exact kept.name name
    · exact kept.identifier _ _ (kept.ahead (by decide) (kept.name name))

theorem column (table name : String) : P false (columnPieces table name) := by
  have last : P false (if name = "*" then [.text "*"] else [.identifier name]) := by
    split
    · exact kept.ahead (by decide) (kept.nil false)
    · exact kept.name name
  unfold columnPieces
  split
  · exact last
  · exact kept.identifier _ _ (kept.ahead (by decide) last)

theorem limit (count skip : UInt64) : P true [.text (limitText count skip)] :=
  kept.single _ (kept.plain _ (isPlain_limitText count skip))

theorem joinPieces (database : String) {join : Join Pieces} (parts : ∀ part ∈ join.parts, P false part) :
    P true (joinPieces database join) := by
  have kind : IsWord (" " ++ join.kind.text ++ " ") := by cases join.kind <;> decide
  have label : P true (if join.label = "" then [] else [.text " AS ", .identifier join.label]) := by
    split
    · exact kept.nil true
    · exact kept.ahead (by decide) (kept.name join.label)
  exact kept.append true _ _ (kept.append true _ _ (kept.ahead kind (kept.table database join.table)) label)
    (kept.clause (by decide) parts)

theorem queryPieces {query : Query Pieces} (parts : ∀ part ∈ query.parts, P false part) :
    P false (queryPieces query) := by
  simp only [Query.parts, List.forall_mem_append, List.mem_flatMap, forall_exists_index, and_imp] at parts
  obtain ⟨⟨⟨⟨⟨⟨projections, joins⟩, condition⟩, groups⟩, having⟩, sorts⟩, lock⟩ := parts
  have opening : IsWord (if query.distinct then "SELECT DISTINCT " else "SELECT ") := by split <;> decide
  have columns : P false (if query.projections.isEmpty then [.text "*"]
      else Pieces.separated "," query.projections) := by
    split
    · exact kept.ahead (by decide) (kept.nil false)
    · exact kept.separated projections
  have selected := kept.between (kept.ahead opening columns : P false _) (show IsWord " FROM " by decide)
    (kept.table query.database query.table)
  have joined := kept.flatMap fun join member => kept.joinPieces query.database fun part => joins part join member
  have clauses : P true (Pieces.clause " WHERE " query.condition ++ Pieces.listClause " GROUP BY " query.groups ++
      Pieces.clause " HAVING " query.having ++ Pieces.listClause " ORDER BY " query.sorts) :=
    kept.append true _ _ (kept.append true _ _ (kept.append true _ _ (kept.clause (by decide) condition)
      (kept.listClause (by decide) groups)) (kept.clause (by decide) having)) (kept.listClause (by decide) sorts)
  have ending := kept.append true _ _ (kept.limit query.count query.skip)
    (kept.clause (show IsWord " " by decide) lock)
  have whole := kept.append false _ _ (kept.append false _ _ (kept.append false _ _ selected joined) clauses) ending
  simpa only [Compose.queryPieces, List.append_assoc, List.cons_append] using whole

/-- Groups are left out, since nothing stands between the parts of a group. -/
theorem nodePieces {node : Node Pieces} (fragments : ∀ fragment ∈ node.fragments, word fragment)
    (single : node.kind ≠ .group) (parts : ∀ part ∈ node.parts, P false part) : P false (nodePieces node) := by
  have one {a : Pieces} (parts : ∀ part ∈ [a], P false part) : P false a := by simpa using parts
  have two {a b : Pieces} (parts : ∀ part ∈ [a, b], P false part) : P false a ∧ P false b := by simpa using parts
  have list {items : List Pieces} (parts : ∀ part ∈ items, P false part) :
      P false (Pieces.separated "," items ++ [.text ")"]) :=
    kept.closed (kept.separated parts) (by decide)
  cases node with
  | column table name => exact kept.column table name
  | comparison operator field value =>
    obtain ⟨holdsField, holdsValue⟩ := two parts
    cases operator with
    | memberOf => exact kept.closed (kept.between holdsValue (by decide) holdsField) (by decide)
    | _ => exact kept.between holdsField (by decide) holdsValue
  | like negated field value =>
    cases negated <;> exact kept.between (two parts).1 (by decide) (two parts).2
  | nullTest negated field => cases negated <;> exact kept.closed (one parts) (by decide)
  | range low high | assignment field value => exact kept.between (two parts).1 (by decide) (two parts).2
  | group items => contradiction
  | sort field order => cases order with
    | ascending => exact one parts
    | descending => exact kept.closed (one parts) (by decide)
  | adjustment field step amount =>
    obtain ⟨holdsField, holdsAmount⟩ := two parts
    cases step <;>
      exact kept.between (kept.between holdsField (by decide) holdsField) (by decide) holdsAmount
  | aggregate function field =>
    exact kept.closed (kept.ahead (by cases function <;> decide) (one parts)) (by decide)
  | call name items | jsonCall name items =>
    exact kept.text _ _ _ (kept.opening name (fragments name List.mem_cons_self)) (by simp) (list parts)
  | lock mode => exact kept.weaken (kept.single _ (kept.plain _ (isPlain_lockText mode)))
  | raw text => exact kept.weaken (kept.single _ (fragments text List.mem_cons_self))
  | labelled field label => exact kept.between (one parts) (by decide) (kept.name label)
  | cast value type => exact kept.closed (kept.ahead (by decide) (one parts)) (by cases type <;> decide)
  | tuple items => exact kept.ahead (by decide) (list parts)
  | existence negated query =>
    exact kept.closed (kept.ahead (by cases negated <;> decide) (kept.queryPieces parts)) (by decide)
  | subquery query => exact kept.closed (kept.ahead (by decide) (kept.queryPieces parts)) (by decide)
  | argument bound => exact kept.argument bound

section Commands

variable {Q : Expr → Prop} (exprs : ∀ expr, Q expr → P false (Registry.mysql.pieces expr))

include exprs

omit kept in
theorem forall_map {list : List Expr} (holds : ∀ expr ∈ list, Q expr) :
    ∀ item ∈ list.map Registry.mysql.pieces, P false item := by
  rw [List.forall_mem_map]
  exact fun expr member => exprs expr (holds expr member)

theorem selectPieces {query : Select} (holds : ∀ expr ∈ query.parts, Q expr) :
    P false (selectPieces .mysql query) := by
  apply kept.queryPieces
  rw [Query.parts_map]
  exact forall_map exprs holds

theorem tailPieces {condition : Option Expr} {sorts : List Expr} (count : UInt64)
    (holdsCondition : ∀ expr ∈ condition.toList, Q expr) (holdsSorts : ∀ expr ∈ sorts, Q expr) :
    P true (tailPieces .mysql condition sorts count) := by
  have given := forall_map exprs holdsCondition
  rw [← Option.toList_map] at given
  exact kept.append true _ _ (kept.append true _ _ (kept.clause (by decide) given)
    (kept.listClause (by decide) (forall_map exprs holdsSorts))) (kept.limit count 0)

theorem updatePieces {update : Update}
    (holds : ∀ expr ∈ update.condition.toList ++ update.assignments ++ update.sorts, Q expr) :
    P false (updatePieces .mysql update) := by
  simp only [List.forall_mem_append] at holds
  obtain ⟨⟨condition, assignments⟩, sorts⟩ := holds
  have body : P true (if update.assignments.isEmpty then [.fault .nothingToWrite]
      else .text " SET " :: Pieces.separated "," (update.assignments.map Registry.mysql.pieces)) := by
    split
    · exact kept.fault true _
    · exact kept.ahead (by decide) (kept.separated (forall_map exprs assignments))
  exact kept.append false _ _ (kept.append false _ _ (kept.ahead (by decide) (kept.table _ _)) body)
    (kept.tailPieces exprs update.count condition sorts)

theorem deletePieces {delete : Delete} (holds : ∀ expr ∈ delete.condition.toList ++ delete.sorts, Q expr) :
    P false (deletePieces .mysql delete) := by
  rw [List.forall_mem_append] at holds
  exact kept.append false _ _ (kept.ahead (by decide) (kept.table _ _))
    (kept.tailPieces exprs delete.count holds.1 holds.2)

omit exprs in
theorem conflictPieces (columns : List String) : P true (conflictPieces columns) := by
  apply kept.ahead (by decide)
  apply kept.separated
  rw [List.forall_mem_map]
  intro column _
  have again := kept.identifier column _ (kept.ahead (show IsWord ")" by decide) (kept.nil false))
  exact kept.identifier column _ (kept.ahead (by decide) again)

theorem insertPieces {insert : Insert} (holds : ∀ row ∈ insert.rows, ∀ expr ∈ row, Q expr) :
    P false (insertPieces .mysql insert) := by
  have opening : IsWord (if insert.ignore then "INSERT IGNORE INTO " else "INSERT INTO ") := by split <;> decide
  have columns : P false (Pieces.separated "," (insert.columns.map fun column => [.identifier column])) := by
    apply kept.separated
    rw [List.forall_mem_map]
    exact fun column _ => kept.name column
  have rows : P false (Pieces.separated "," (insert.rows.map (rowPieces .mysql))) := by
    apply kept.separated
    rw [List.forall_mem_map]
    intro row member
    exact kept.closed (kept.ahead (by decide) (kept.separated (forall_map exprs (holds row member)))) (by decide)
  have body : P true (if insert.columns.isEmpty || insert.rows.isEmpty then [.fault .nothingToWrite]
      else .text " (" :: Pieces.separated "," (insert.columns.map fun column => [.identifier column]) ++
        .text ") VALUES " :: Pieces.separated "," (insert.rows.map (rowPieces .mysql))) := by
    split
    · exact kept.fault true _
    · exact kept.between (kept.ahead (by decide) columns) (by decide) rows
  have start := kept.append false _ _ (kept.ahead opening (kept.table insert.database insert.table)) body
  unfold Compose.insertPieces
  cases insert.updatedColumns? with
  | none => exact kept.append false _ _ start (kept.nil true)
  | some columns => exact kept.append false _ _ start (kept.conflictPieces columns)

theorem command (conditions : KeptByConditions Q) {command : Command} (holds : ∀ expr ∈ command.exprs, Q expr) :
    P false (command.pieces .mysql) := by
  cases command with
  | find q | findOne q => exact kept.selectPieces exprs holds
  | page p => exact kept.selectPieces exprs (conditions.toQuery holds)
  | update u | updateOne u => exact kept.updatePieces exprs holds
  | delete d | deleteOne d => exact kept.deletePieces exprs holds
  | insert i =>
    exact kept.insertPieces exprs fun row member expr inside =>
      holds expr (List.mem_flatten.mpr ⟨row, member, inside⟩)

end Commands

end KeptByLayout

end SqlComposer.Compose
