import SqlComposer.Compose.Command
import SqlComposer.Proofs.Condition.Tree

namespace SqlComposer.Sql

namespace Condition

mutual

def predicates : Condition → List Expr
  | .absent | .zero .. => []
  | .predicate expr _ => [expr]
  | .joined _ operands => predicatesList operands

def predicatesList : List Condition → List Expr
  | [] => []
  | condition :: conditions => predicates condition ++ predicatesList conditions

end

@[simp] theorem predicatesList_eq_flatMap (conditions : List Condition) :
    predicatesList conditions = conditions.flatMap predicates := by
  induction conditions with
  | nil => rfl
  | cons condition conditions ih => simp [predicatesList, ih]

end Condition

def Token.predicate? : Token → Option Expr
  | .predicate expr => some expr
  | .opening | .closing | .connective _ => none

def Expr.atoms (expr : Expr) : List Expr := expr.tokens.filterMap Token.predicate?

theorem atoms_predicate {expr : Expr} (shape : expr.isPredicate = true) : expr.atoms = [expr] := by
  have tokens : expr.tokens = [.predicate expr] := by
    obtain ⟨node⟩ := expr
    cases node <;> first | rfl | contradiction
  rw [Expr.atoms, tokens]
  rfl

theorem atoms_join? (connective : Connective) (operands : List Expr) :
    (connective.join? operands).toList.flatMap Expr.atoms = operands.flatMap Expr.atoms := by
  match operands with
  | [] | [operand] => rfl
  | first :: second :: rest =>
    simp only [Connective.join?, Option.toList_some, List.flatMap_singleton, Expr.atoms, tokens_group]
    simp only [List.filterMap_cons, List.filterMap_append, List.filterMap_flatMap, Token.predicate?,
      List.filterMap_nil, List.append_nil, List.flatMap_cons]
    rfl

mutual

theorem atoms_operand : ∀ condition : Condition,
    (present? condition.operand).toList.flatMap Expr.atoms = condition.predicates
  | .absent => rfl
  | .zero expr shape => by
    have hidden : present? (some expr) = none := by simp [present?, shape]
    rw [Condition.operand, hidden]
    rfl
  | .predicate expr shape => by
    have shown : present? (some expr) = some expr := present?_eq_some_iff.mpr ⟨rfl, isZero_of_isPredicate shape⟩
    rw [Condition.operand, shown]
    simp [Condition.predicates, atoms_predicate shape]
  | .joined connective conditions => by
    rw [present?_operand_joined, Connective.connect, atoms_join?, atoms_operands, Condition.predicates,
      Condition.predicatesList_eq_flatMap]

theorem atoms_operands : ∀ conditions : List Condition,
    ((conditions.map Condition.operand).filterMap present?).flatMap Expr.atoms =
      conditions.flatMap Condition.predicates
  | [] => rfl
  | condition :: conditions => by
    have head := atoms_operand condition
    have tail := atoms_operands conditions
    rw [List.map_cons, List.filterMap_cons, List.flatMap_cons, ← head, ← tail]
    cases present? condition.operand <;> simp

end

theorem exists_of_connect {connective : Connective} {operands : List (Option Expr)} {expr : Expr}
    (shown : connective.connect operands = some expr) : ∃ operand ∈ operands, (present? operand).isSome = true := by
  unfold Connective.connect at shown
  cases present : operands.filterMap present? with
  | nil => simp [present, Connective.join?] at shown
  | cons first rest =>
    have member : first ∈ operands.filterMap present? := present ▸ List.mem_cons_self
    obtain ⟨operand, member, given⟩ := List.mem_filterMap.mp member
    exact ⟨operand, member, by rw [given, Option.isSome_some]⟩

mutual

theorem predicates_ne_nil : ∀ condition : Condition, (present? condition.operand).isSome = true →
    condition.predicates ≠ []
  | .absent, present => nomatch present
  | .zero expr shape, present => by
    have hidden : present? (some expr) = none := by simp [present?, shape]
    rw [Condition.operand, hidden] at present
    contradiction
  | .predicate expr _, _ => List.cons_ne_nil expr []
  | .joined connective conditions, present => by
    rw [present?_operand_joined] at present
    obtain ⟨expr, shown⟩ := Option.isSome_iff_exists.mp present
    obtain ⟨_, given, present⟩ := exists_of_connect shown
    obtain ⟨condition, member, rfl⟩ := List.mem_map.mp given
    rw [Condition.predicates, Condition.predicatesList_eq_flatMap, ne_eq, List.flatMap_eq_nil_iff]
    exact fun empty => predicates_ne_nil_of_mem conditions condition member present (empty condition member)

theorem predicates_ne_nil_of_mem : ∀ conditions : List Condition, ∀ condition ∈ conditions,
    (present? condition.operand).isSome = true → condition.predicates ≠ []
  | [] => by simp
  | condition :: conditions => by
    simpa using ⟨predicates_ne_nil condition, predicates_ne_nil_of_mem conditions⟩

end

theorem connect_eq_none_iff (connective : Connective) (conditions : List Condition) :
    connective.connect (conditions.map Condition.operand) = none ↔
      (Condition.joined connective conditions).predicates = [] := by
  rw [← present?_operand_joined]
  constructor
  · intro hidden
    rw [← atoms_operand, hidden]
    rfl
  · intro empty
    rw [← Option.not_isSome_iff_eq_none]
    exact fun present => predicates_ne_nil _ present empty

end SqlComposer.Sql

namespace SqlComposer.Compose

open Sql

/-- The pieces open with the keyword, if there is one, and go on with tokens that hold the predicates of the tree and
read as a formula of its worth. If the tree holds no predicate there are no pieces at all. -/
structure IsClause (keyword : Option String) (tree : Condition) (clause : Pieces) : Prop where
  omitted : tree.predicates = [] → clause = []
  written : tree.predicates ≠ [] → ∃ tokens formula,
    clause = (keyword.map Piece.text).toList ++ tokens.flatMap Token.pieces ∧
    tokens.filterMap Token.predicate? = tree.predicates ∧ read tokens = some formula ∧
    ∀ meaning, tree.truth? meaning = some (formula.truth meaning)

theorem isClause_connect (keyword : Option String) (connective : Connective) (conditions : List Condition) :
    IsClause keyword (.joined connective conditions)
      (match connective.connect (conditions.map Condition.operand) with
        | none => []
        | some expr => (keyword.map Piece.text).toList ++ Registry.mysql.pieces expr) := by
  have meant := isMeant_joined connective (isMeant_operands conditions)
  have atoms := atoms_operand (.joined connective conditions)
  have nothing := connect_eq_none_iff connective conditions
  rw [present?_operand_joined] at atoms
  cases shown : connective.connect (conditions.map Condition.operand) with
  | none => exact ⟨fun _ => rfl, fun present => absurd (nothing.mp shown) present⟩
  | some expr =>
    rw [shown] at meant
    rw [shown, Option.toList_some] at atoms
    obtain ⟨formula, reads, worth⟩ := meant
    constructor
    · intro empty
      rw [nothing.mpr empty] at shown
      contradiction
    · intro _
      rw [List.flatMap_singleton, Expr.atoms] at atoms
      refine ⟨expr.tokens, .any [.all [formula]], ?_, atoms, read_eq reads, fun meaning => ?_⟩
      · exact congrArg _ expr.pieces_eq_tokens
      · rw [worth]
        simp [Formula.truth]

/-- In one and the same place of the statement stands the clause for its conditions. -/
def HasClause (keyword : String) (pieces : List (Option Expr) → Pieces) : Prop :=
  ∃ before after, ∀ trees : List Condition, ∃ clause, IsClause (some keyword) (.joined .and trees) clause ∧
    pieces (trees.map Condition.operand) = before ++ clause ++ after

theorem hasClause {keyword : String} {pieces : List (Option Expr) → Pieces} (before after : Pieces)
    (placed : ∀ conditions, pieces conditions =
      before ++ Pieces.clause keyword ((allOf conditions).map Registry.mysql.pieces) ++ after) :
    HasClause keyword pieces := by
  refine ⟨before, after, fun trees => ⟨_, isClause_connect (some keyword) .and trees, ?_⟩⟩
  rw [placed, allOf]
  cases Connective.and.connect (trees.map Condition.operand) <;> rfl

def openingPieces (query : Query Pieces) : Pieces :=
  .text (if query.distinct then "SELECT DISTINCT " else "SELECT ") ::
  (if query.projections.isEmpty then [.text "*"] else Pieces.separated "," query.projections) ++
  .text " FROM " :: Pieces.table query.database query.table

def closingPieces (query : Query Pieces) : Pieces :=
  Pieces.listClause " ORDER BY " query.sorts ++ [.text (limitText query.count query.skip)] ++
  Pieces.clause " " query.lock

theorem queryPieces_eq (query : Query Pieces) :
    queryPieces query = openingPieces query ++ query.joins.flatMap (joinPieces query.database) ++
      Pieces.clause " WHERE " query.condition ++ Pieces.listClause " GROUP BY " query.groups ++
      Pieces.clause " HAVING " query.having ++ closingPieces query := by
  simp only [queryPieces, openingPieces, closingPieces, List.append_assoc, List.cons_append]

theorem hasClause_where (query : Select) :
    HasClause " WHERE " fun conditions => selectPieces .mysql (query.filtered conditions) := by
  let inner := query.map Registry.mysql.pieces
  apply hasClause (openingPieces inner ++ inner.joins.flatMap (joinPieces inner.database))
    (Pieces.listClause " GROUP BY " inner.groups ++ Pieces.clause " HAVING " inner.having ++ closingPieces inner)
  intro conditions
  rw [selectPieces, queryPieces_eq]
  simp only [List.append_assoc]
  rfl

theorem hasClause_having (query : Select) :
    HasClause " HAVING " fun conditions => selectPieces .mysql (query.havingAll conditions) := by
  let inner := query.map Registry.mysql.pieces
  apply hasClause (openingPieces inner ++ inner.joins.flatMap (joinPieces inner.database) ++
    Pieces.clause " WHERE " inner.condition ++ Pieces.listClause " GROUP BY " inner.groups) (closingPieces inner)
  intro conditions
  rw [selectPieces, queryPieces_eq]
  rfl

theorem hasClause_on (query : Select) (kind : JoinKind) (table label : String) (later : List (Join Expr)) :
    HasClause " ON " fun conditions =>
      selectPieces .mysql { query with joins := (query.joined kind table label conditions).joins ++ later } := by
  let inner := query.map Registry.mysql.pieces
  let behind := later.map fun join => join.map Registry.mysql.pieces
  apply hasClause (openingPieces inner ++ inner.joins.flatMap (joinPieces inner.database) ++
      joinPieces inner.database ⟨kind, table, label, none⟩)
    (behind.flatMap (joinPieces inner.database) ++ Pieces.clause " WHERE " inner.condition ++
      Pieces.listClause " GROUP BY " inner.groups ++ Pieces.clause " HAVING " inner.having ++ closingPieces inner)
  intro conditions
  rw [selectPieces, queryPieces_eq]
  have joins : (Query.map Registry.mysql.pieces
        { query with joins := (query.joined kind table label conditions).joins ++ later }).joins =
      inner.joins ++ ⟨kind, table, label, (allOf conditions).map Registry.mysql.pieces⟩ :: behind := by
    simp [Query.map, Query.joined, Join.map, inner, behind]
  rw [joins, List.flatMap_append, List.flatMap_cons]
  simp only [joinPieces, Pieces.clause, List.append_assoc, List.append_nil]
  rfl

theorem hasClause_update (update : Update) :
    HasClause " WHERE " fun conditions => updatePieces .mysql (update.filtered conditions) := by
  apply hasClause
    (.text "UPDATE " :: Pieces.table update.database update.table ++
      (if update.assignments.isEmpty then [.fault .nothingToWrite]
        else .text " SET " :: Pieces.separated "," (update.assignments.map Registry.mysql.pieces)))
    (Pieces.listClause " ORDER BY " (update.sorts.map Registry.mysql.pieces) ++ [.text (limitText update.count 0)])
  intro conditions
  simp only [updatePieces, tailPieces, List.append_assoc, List.cons_append]
  rfl

theorem hasClause_delete (delete : Delete) :
    HasClause " WHERE " fun conditions => deletePieces .mysql (delete.filtered conditions) := by
  apply hasClause (.text "DELETE FROM " :: Pieces.table delete.database delete.table)
    (Pieces.listClause " ORDER BY " (delete.sorts.map Registry.mysql.pieces) ++ [.text (limitText delete.count 0)])
  intro conditions
  simp only [deletePieces, tailPieces, Delete.filtered, List.append_assoc, List.cons_append]

theorem conditions_are_written_as_meant :
    (∀ connective conditions, IsClause none (.joined connective conditions)
      (Registry.mysql.pieces (.ofCondition (connective.connect (conditions.map Condition.operand))))) ∧
    (∀ query : Select, HasClause " WHERE " fun conditions => selectPieces .mysql (query.filtered conditions)) ∧
    (∀ query : Select, HasClause " HAVING " fun conditions => selectPieces .mysql (query.havingAll conditions)) ∧
    (∀ (query : Select) kind table label later, HasClause " ON " fun conditions =>
      selectPieces .mysql { query with joins := (query.joined kind table label conditions).joins ++ later }) ∧
    (∀ update : Update, HasClause " WHERE " fun conditions => updatePieces .mysql (update.filtered conditions)) ∧
    ∀ delete : Delete, HasClause " WHERE " fun conditions => deletePieces .mysql (delete.filtered conditions) := by
  refine ⟨fun connective conditions => ?_, hasClause_where, hasClause_having, hasClause_on, hasClause_update,
    hasClause_delete⟩
  have clause := isClause_connect none connective conditions
  cases shown : connective.connect (conditions.map Condition.operand) with
  | none =>
    rw [shown] at clause
    have empty : Registry.mysql.pieces .zero = [] := by
      rw [Registry.pieces_mysql, Expr.zero, Expr.fold_ofNode]
      rfl
    rwa [Expr.ofCondition, Option.getD_none, empty]
  | some expr =>
    rw [shown] at clause
    exact clause

end SqlComposer.Compose
