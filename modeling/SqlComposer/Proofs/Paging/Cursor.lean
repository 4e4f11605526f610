import SqlComposer.Proofs.Binding.Placeholder
import SqlComposer.Proofs.Condition.Clause
import SqlComposer.Proofs.Paging.Keyset

namespace SqlComposer.Sql

section

variable {α β : Type} (items : List α) (others : List β)

theorem map_fst_zip_take : (items.zip others).map (·.1) = items.take (min items.length others.length) := by
  rw [List.zip_eq_zip_take_min, List.map_fst_zip (by simp)]

theorem map_snd_zip_take : (items.zip others).map (·.2) = others.take (min items.length others.length) := by
  rw [List.zip_eq_zip_take_min, List.map_snd_zip (by simp)]

end

def branchAt? (columns : List (Expr × Order)) (cursor : List Expr) (column : Expr × Order) (i : Nat) :
    Option (Option Expr) :=
  if i ≤ columns.length then
    cursor[i]?.map fun v =>
      let equal := ((columns.take i).zip cursor).map fun key => Expr.equal key.1.1 key.2
      allOf ((equal ++ [beyond column.2 column.1 v]).map some)
  else none

def keysetByPosition? (sorts cursor : List Expr) : Option (Option Expr) :=
  let columns := ((sorts.map sortColumn).zip cursor).map (·.1)
  (columns.zipIdx.mapM fun column => branchAt? columns cursor column.1 column.2).map anyOf

theorem branchAt?_length (before : List ((Expr × Order) × Expr)) (column : Expr × Order) (v : Expr)
    (columns : List (Expr × Order)) (cursor : List Expr) :
    branchAt? (before.map (·.1) ++ columns) (before.map (·.2) ++ v :: cursor) column before.length =
      some (allOf (((before.map fun key => Expr.equal key.1.1 key.2) ++ [beyond column.2 column.1 v]).map some)) := by
  have inside : before.length ≤ (before.map (·.1) ++ columns).length := by simp
  have earlier : (before.map (·.1) ++ columns).take before.length = before.map (·.1) := by
    rw [List.take_append_of_le_length (by simp), List.take_of_length_le (by simp)]
  have here : (before.map (·.2) ++ v :: cursor)[before.length]? = some v := by
    rw [List.getElem?_append_right (by simp)]
    simp
  have paired : (before.map (·.1)).zip (before.map (·.2) ++ v :: cursor) = before := by
    induction before with
    | nil => rfl
    | cons key before ih => simpa using ih
  rw [branchAt?, if_pos inside, earlier, here, paired]
  rfl

theorem mapM_branchAt? (before keys : List ((Expr × Order) × Expr)) (cursor : List Expr) :
    ((keys.map (·.1)).zipIdx before.length).mapM (fun column =>
        branchAt? ((before ++ keys).map (·.1)) ((before ++ keys).map (·.2) ++ cursor) column.1 column.2) =
      some (keysetBranches (before.map fun key => Expr.equal key.1.1 key.2) keys) := by
  induction keys generalizing before with
  | nil => rfl
  | cons key keys ih =>
    have here : branchAt? ((before ++ key :: keys).map (·.1)) ((before ++ key :: keys).map (·.2) ++ cursor) key.1
        before.length = some (allOf (((before.map fun key => Expr.equal key.1.1 key.2) ++
          [beyond key.1.2 key.1.1 key.2]).map some)) := by
      rw [List.map_append, List.map_append, List.append_assoc]
      exact branchAt?_length before key.1 key.2 _ _
    have rest := ih (before ++ [key])
    rw [List.append_assoc, List.singleton_append, List.length_append, List.length_singleton] at rest
    have longer : ((before ++ [key]).map fun key => Expr.equal key.1.1 key.2) =
        (before.map fun key => Expr.equal key.1.1 key.2) ++ [Expr.equal key.1.1 key.2] := List.map_append
    rw [List.map_cons, List.zipIdx_cons, List.mapM_cons, here, rest, longer]
    rfl

theorem keysetByPosition?_eq (sorts cursor : List Expr) :
    keysetByPosition? sorts cursor = some (keyset sorts cursor) := by
  have branches := mapM_branchAt? [] ((sorts.map sortColumn).zip cursor)
    (cursor.drop (min (sorts.map sortColumn).length cursor.length))
  rw [List.nil_append, map_snd_zip_take, List.take_append_drop] at branches
  exact congrArg (Option.map anyOf) branches

def branchPredicates (bounds : List (Key × SqlValue)) (i : Nat) : List Expr :=
  ((bounds.take i).map fun bound => .equal bound.1.column (.value bound.2)) ++
  bounds[i]?.toList.map fun bound => beyond bound.1.order bound.1.column (.value bound.2)

theorem predicates_branches (equal : List Condition) (bounds : List (Key × SqlValue)) :
    (Condition.branches equal bounds).flatMap Condition.predicates =
      (List.range bounds.length).flatMap fun i =>
        equal.flatMap Condition.predicates ++ branchPredicates bounds i := by
  induction bounds generalizing equal with
  | nil => rfl
  | cons bound bounds ih =>
    have here : (Condition.joined .and (equal ++ [.beyond bound])).predicates =
        equal.flatMap Condition.predicates ++ branchPredicates (bound :: bounds) 0 := by
      simp [Condition.predicates, Condition.beyond, branchPredicates]
    have deeper : ∀ i, (equal ++ [Condition.equality bound]).flatMap Condition.predicates ++
        branchPredicates bounds i =
          equal.flatMap Condition.predicates ++ branchPredicates (bound :: bounds) (i + 1) := by
      intro i
      simp [Condition.predicates, Condition.equality, branchPredicates]
    rw [Condition.branches, List.flatMap_cons, here, ih, List.length_cons, List.range_succ_eq_map,
      List.flatMap_cons, List.flatMap_map]
    simp only [deeper]

def Table.OrdersValues {Row : Type} (table : Table Row) (key : Key) : Prop :=
  Std.TransCmp fun v w : {v : SqlValue // v.isNull = false} => table.order key.table key.name v w

abbrev keysetOf (keys : List Key) (cursor : List SqlValue) : Option Expr :=
  keyset (keys.map fun key => key.expr.asSortKey) (cursor.map .value)

section

variable (keys : List Key) (cursor : List SqlValue)

theorem keysetOf_eq_connect : keysetOf keys cursor =
    Connective.or.connect ((Condition.branches [] (keys.zip cursor)).map Condition.operand) := by
  apply keyset_eq_connect
  rw [List.map_map, List.zip_map]
  apply List.map_congr_left
  intro bound _
  simp [Prod.map]

theorem predicates_keyset : (Condition.joined .or (Condition.branches [] (keys.zip cursor))).predicates =
    (List.range (min keys.length cursor.length)).flatMap (branchPredicates (keys.zip cursor)) := by
  simp [Condition.predicates, predicates_branches]

theorem keysetOf_eq_none_iff : keysetOf keys cursor = none ↔ min keys.length cursor.length = 0 := by
  rw [keysetOf_eq_connect, connect_eq_none_iff, predicates_keyset]
  constructor
  · intro empty
    by_contra positive
    have first := List.flatMap_eq_nil_iff.mp empty 0 (List.mem_range.mpr (Nat.pos_of_ne_zero positive))
    cases keys with
    | nil => exact positive (Nat.zero_min _)
    | cons key keys => cases cursor with
      | nil => exact positive (Nat.min_zero _)
      | cons v cursor => exact absurd first (List.cons_ne_nil _ _)
  · intro none
    rw [none]
    rfl

end

section

variable {keys : List Key} {cursor : List SqlValue} {condition : Expr} (shown : keysetOf keys cursor = some condition)

include shown

theorem atoms_keyset :
    condition.atoms = (List.range (min keys.length cursor.length)).flatMap (branchPredicates (keys.zip cursor)) := by
  have atoms := atoms_operand (.joined .or (Condition.branches [] (keys.zip cursor)))
  rw [present?_operand_joined, ← keysetOf_eq_connect, shown, predicates_keyset] at atoms
  simpa using atoms

theorem passes_keyset {Row : Type} {table : Table Row} {row : Row}
    (comparable : ∀ bound ∈ keys.zip cursor, table.Comparable row bound) :
    passes (table.truth row) (some condition) =
      (table.compareValues (keys.take (min keys.length cursor.length)) (cursor.take (min keys.length cursor.length))
        ((keys.take (min keys.length cursor.length)).map (table.value row))).isLT := by
  have meant := isMeant_joined .or (isMeant_operands (Condition.branches [] (keys.zip cursor)))
  rw [← keysetOf_eq_connect, shown] at meant
  have proper : keys.zip cursor ≠ [] := by
    intro empty
    rw [keysetOf_eq_connect, empty] at shown
    contradiction
  rw [passes_eq_holds meant, Table.holds_branches comparable proper, ← map_fst_zip_take, ← map_snd_zip_take,
    List.map_map]
  rfl

end

end SqlComposer.Sql

namespace SqlComposer.Compose

open Sql

inductive Binds : Pieces → List SqlValue → Prop
  | nil : Binds [] []
  | text {pieces values} (words : String) : Binds pieces values → Binds (.text words :: pieces) values
  | identifier {pieces values} (name : String) : Binds pieces values → Binds (.identifier name :: pieces) values
  | argument {pieces values} (v : SqlValue) : Binds pieces values → Binds (.argument (.value v) :: pieces) (v :: values)

namespace Binds

theorem append {a b : Pieces} {values others : List SqlValue} (first : Binds a values) (second : Binds b others) :
    Binds (a ++ b) (values ++ others) := by
  induction first with
  | nil => exact second
  | text words _ ih => exact .text words ih
  | identifier name _ ih => exact .identifier name ih
  | argument v _ ih => exact .argument v ih

theorem column (table name : String) : Binds (columnPieces table name) [] := by
  unfold columnPieces
  split <;> split
  · exact .text _ .nil
  · exact .identifier _ .nil
  · exact .identifier _ (.text _ (.text _ .nil))
  · exact .identifier _ (.text _ (.identifier _ .nil))

theorem writeAll {pieces : Pieces} {values : List SqlValue} (binds : Binds pieces values)
    {encoded : SqlValue → SqlValue} (given : ∀ v ∈ values, Registry.mysql.encode v = .ok (encoded v))
    (statement : Statement) :
    ∃ text, statement.writeAll .mysql pieces =
      ({ statement with text, values := statement.values ++ values.map encoded }, none) := by
  induction binds generalizing statement with
  | nil => exact ⟨statement.text, by simp⟩
  | text words _ ih => exact ih given (statement.append words)
  | identifier name _ ih => exact ih given (statement.append (quote name))
  | argument v _ ih =>
    obtain ⟨here, rest⟩ := List.forall_mem_cons.mp given
    have written : statement.write .mysql (.argument (.value v)) = .ok (statement.bind (encoded v)) := by
      have resolved : Registry.mysql.resolve (.value v) = .ok (encoded v) := here
      rw [Statement.write, resolved]
      rfl
    obtain ⟨text, run⟩ := ih rest (statement.bind (encoded v))
    refine ⟨text, ?_⟩
    rw [Statement.writeAll, written]
    simpa [Statement.bind] using run

theorem comparison {operator : Operator} (infixed : operator ≠ .memberOf) (table name : String) (v : SqlValue) :
    Binds (Registry.mysql.pieces (.comparison operator (.columnOf table name) (.value v))) [v] := by
  have pieces : Registry.mysql.pieces (.comparison operator (.columnOf table name) (.value v)) =
      columnPieces table name ++ [.text (" " ++ operator.text ++ " "), .argument (.value v)] := by
    simp only [Registry.pieces_mysql, Expr.comparison, Expr.columnOf, Expr.value, Expr.argument, Expr.fold_ofNode,
      Node.map]
    cases operator <;> first | rfl | contradiction
  rw [pieces]
  exact (column table name).append (.text _ (.argument v .nil))

end Binds

def comparedValue? : Expr → Option SqlValue
  | .ofNode (.comparison _ _ (.ofNode (.argument (.value v)))) => some v
  | _ => none

theorem comparedValues_branchPredicates {bounds : List (Key × SqlValue)} (i : Nat) :
    (branchPredicates bounds i).filterMap comparedValue? = (bounds.take (i + 1)).map (·.2) := by
  have equal : ∀ bound : Key × SqlValue, comparedValue? (.equal bound.1.column (.value bound.2)) = some bound.2 :=
    fun _ => rfl
  have beyond : ∀ bound : Key × SqlValue,
      comparedValue? (Sql.beyond bound.1.order bound.1.column (.value bound.2)) = some bound.2 := by
    intro bound
    cases direction : bound.1.order <;> rfl
  rw [branchPredicates, List.take_add_one, List.filterMap_append, List.map_append, List.filterMap_map,
    List.filterMap_map]
  simp [equal, beyond]

theorem binds_branchPredicates {bounds : List (Key × SqlValue)} {i : Nat} {expr : Expr}
    (member : expr ∈ branchPredicates bounds i) : Binds (Registry.mysql.pieces expr) (comparedValue? expr).toList := by
  rcases List.mem_append.mp member with equal | beyond
  · obtain ⟨bound, _, rfl⟩ := List.mem_map.mp equal
    exact .comparison (by simp) bound.1.table bound.1.name bound.2
  · obtain ⟨bound, _, rfl⟩ := List.mem_map.mp beyond
    cases direction : bound.1.order <;> exact .comparison (by simp) bound.1.table bound.1.name bound.2

theorem binds_tokens {tokens : List Token} (each : ∀ expr ∈ tokens.filterMap Token.predicate?,
      Binds (Registry.mysql.pieces expr) (comparedValue? expr).toList) :
    Binds (tokens.flatMap Token.pieces) ((tokens.filterMap Token.predicate?).filterMap comparedValue?) := by
  induction tokens with
  | nil => exact .nil
  | cons token tokens ih => cases token with
    | opening | closing | connective word => exact .text _ (ih each)
    | predicate expr =>
      obtain ⟨here, rest⟩ := List.forall_mem_cons.mp each
      have whole := here.append (ih rest)
      have values : ((Token.predicate expr :: tokens).filterMap Token.predicate?).filterMap comparedValue? =
          (comparedValue? expr).toList ++ (tokens.filterMap Token.predicate?).filterMap comparedValue? := by
        cases shown : comparedValue? expr <;> simp [Token.predicate?, shown]
      rw [values]
      exact whole

section

variable {keys : List Key} {cursor : List SqlValue} {condition : Expr} (shown : keysetOf keys cursor = some condition)

include shown

theorem binds_keyset : Binds (Registry.mysql.pieces condition)
    ((List.range (min keys.length cursor.length)).flatMap fun i => cursor.take (i + 1)) := by
  have atoms := atoms_keyset shown
  have each : ∀ expr ∈ condition.atoms, Binds (Registry.mysql.pieces expr) (comparedValue? expr).toList := by
    rw [atoms]
    intro expr member
    obtain ⟨i, _, inBranch⟩ := List.mem_flatMap.mp member
    exact binds_branchPredicates inBranch
  have values : condition.atoms.filterMap comparedValue? =
      (List.range (min keys.length cursor.length)).flatMap fun i => cursor.take (i + 1) := by
    rw [atoms, List.filterMap_flatMap]
    apply List.flatMap_congr
    intro i inside
    rw [comparedValues_branchPredicates, List.map_take, map_snd_zip_take, List.take_take,
      Nat.min_eq_left (List.mem_range.mp inside)]
  rw [Expr.pieces_eq_tokens, ← values]
  exact binds_tokens each

theorem isPlain_keyset : condition.IsPlain := by
  have plainSorts : ∀ expr ∈ keys.map fun key => key.expr.asSortKey, expr.IsPlain := by
    intro expr member
    obtain ⟨key, _, rfl⟩ := List.mem_map.mp member
    rw [Key.asSortKey_expr]
    simp [Key.column, Expr.columnOf, Expr.sort, Expr.isPlain_ofNode, Node.fragments, Node.parts]
  have plainCursor : ∀ expr ∈ cursor.map Expr.value, expr.IsPlain := by
    intro expr member
    obtain ⟨v, _, rfl⟩ := List.mem_map.mp member
    simp [Expr.value, Expr.argument, Expr.isPlain_ofNode, Node.fragments, Node.parts]
  exact keptByConditions_isPlain.keyset plainSorts plainCursor condition (by simp [shown])

theorem buildExpr_keyset {encoded : SqlValue → SqlValue}
    (given : ∀ v ∈ cursor.take (min keys.length cursor.length), Registry.mysql.encode v = .ok (encoded v)) :
    ∃ text, buildExpr .mysql condition = .ok (text,
      (List.range (min keys.length cursor.length)).flatMap fun i => (cursor.take (i + 1)).map encoded) := by
  have values : ∀ v ∈ (List.range (min keys.length cursor.length)).flatMap fun i => cursor.take (i + 1),
      Registry.mysql.encode v = .ok (encoded v) := by
    intro v member
    obtain ⟨i, inside, taken⟩ := List.mem_flatMap.mp member
    exact given v ((List.take_prefix_take_left (List.mem_range.mp inside)).subset taken)
  obtain ⟨text, run⟩ := (binds_keyset shown).writeAll values { operation := "expr" }
  refine ⟨text, ?_⟩
  rw [buildExpr, Statement.compose, run, List.map_flatMap]
  rfl

end

/-- The condition asks for what comes after the first values of the cursor under as many keys. Each of its branches
binds these values up to its own. -/
structure GoesOnAfter {Row : Type} (table : Table Row) (keys : List Key) (cursor : List SqlValue) (count : Nat)
    (condition : Expr) : Prop where
  predicates : condition.atoms = (List.range count).flatMap (branchPredicates (keys.zip cursor))
  after : ∀ row, (∀ v ∈ cursor.take count, v.isNull = false) →
    (∀ key ∈ keys.take count, (table.value row key).isNull = false) →
    (passes (table.truth row) (some condition) = true ↔
      table.compareValues (keys.take count) (cursor.take count) ((keys.take count).map (table.value row)) = .lt)
  binds : Binds (Registry.mysql.pieces condition) ((List.range count).flatMap fun i => cursor.take (i + 1))
  built : ∀ encoded : SqlValue → SqlValue, (∀ v ∈ cursor.take count, Registry.mysql.encode v = .ok (encoded v)) →
    ∃ text, buildExpr .mysql condition = .ok (text,
        (List.range count).flatMap fun i => (cursor.take (i + 1)).map encoded) ∧
      placeholders false text.toList = ((List.range count).flatMap fun i => cursor.take (i + 1)).length

/-- Keys and values count as far as both go, no position lies outside of them, and without any there is no keyset. -/
structure HasKeyset {Row : Type} (table : Table Row) (keys : List Key) (cursor : List SqlValue) : Prop where
  byPosition : keysetByPosition? (keys.map fun key => key.expr.asSortKey) (cursor.map .value) =
    some (keysetOf keys cursor)
  absent : min keys.length cursor.length = 0 → keysetOf keys cursor = none
  present : 0 < min keys.length cursor.length → ∃ condition, keysetOf keys cursor = some condition ∧
    GoesOnAfter table keys cursor (min keys.length cursor.length) condition

theorem comparable_zip {Row : Type} {table : Table Row} {row : Row} {keys : List Key} {cursor : List SqlValue}
    (ordered : ∀ key ∈ keys, table.OrdersValues key)
    (filled : ∀ v ∈ cursor.take (min keys.length cursor.length), v.isNull = false)
    (filledRow : ∀ key ∈ keys.take (min keys.length cursor.length), (table.value row key).isNull = false) :
    ∀ bound ∈ keys.zip cursor, table.Comparable row bound := by
  intro bound member
  have isKey : bound.1 ∈ keys.take (min keys.length cursor.length) :=
    map_fst_zip_take keys cursor ▸ List.mem_map_of_mem member
  have isValue : bound.2 ∈ cursor.take (min keys.length cursor.length) :=
    map_snd_zip_take keys cursor ▸ List.mem_map_of_mem member
  have total := ordered bound.1 (List.mem_of_mem_take isKey)
  refine ⟨filled _ isValue, filledRow _ isKey, ?_⟩
  exact total.eq_swap (a := ⟨_, filledRow _ isKey⟩) (b := ⟨_, filled _ isValue⟩)

theorem goesOnAfter {Row : Type} {table : Table Row} {keys : List Key} {cursor : List SqlValue}
    (ordered : ∀ key ∈ keys, table.OrdersValues key) {condition : Expr}
    (shown : keysetOf keys cursor = some condition) :
    GoesOnAfter table keys cursor (min keys.length cursor.length) condition where
  predicates := atoms_keyset shown
  after := by
    intro row filled filledRow
    rw [passes_keyset shown (comparable_zip ordered filled filledRow), Ordering.isLT_iff_eq_lt]
  binds := binds_keyset shown
  built := by
    intro encoded given
    obtain ⟨text, built⟩ := buildExpr_keyset shown given
    refine ⟨text, built, ?_⟩
    have counted := (boundInPlace (arePlain_pieces (isPlain_keyset shown))).counted text _ built
    rw [counted]
    simp [List.length_flatMap]

theorem keyset_goes_on_after_cursor {Row : Type} (table : Table Row) (keys : List Key) (cursor : List SqlValue)
    (ordered : ∀ key ∈ keys, table.OrdersValues key) : HasKeyset table keys cursor where
  byPosition := keysetByPosition?_eq _ _
  absent := (keysetOf_eq_none_iff keys cursor).mpr
  present := by
    intro positive
    cases shown : keysetOf keys cursor with
    | none => exact absurd ((keysetOf_eq_none_iff keys cursor).mp shown) (Nat.pos_iff_ne_zero.mp positive)
    | some condition => exact ⟨condition, rfl, goesOnAfter ordered shown⟩

def rank : SqlValue → Nat
  | .u64 n => n.toNat
  | _ => 0

def ranks : Table (UInt64 × UInt64) where
  rows := [(7, 4), (9, 2), (7, 1), (2, 5), (7, 3)]
  cell := fun row _ name => .u64 (if name = "score" then row.1 else row.2)
  order := fun _ _ => compareOn rank
  other := fun _ _ => none

def rankKeys : List Key :=
  [⟨"", "score", some .descending⟩, ⟨"", "id", none⟩, ⟨"", "name", some .ascending⟩]

theorem ranks_go_on_after_cursor :
    (∀ key ∈ rankKeys, ranks.OrdersValues key) ∧ HasKeyset ranks rankKeys [.u64 7, .u64 3] := by
  have ordered : ∀ key ∈ rankKeys, ranks.OrdersValues key := by
    intro key _
    exact inferInstanceAs (Std.TransCmp (compareOn fun v : {v : SqlValue // v.isNull = false} => rank v))
  exact ⟨ordered, keyset_goes_on_after_cursor ranks rankKeys [.u64 7, .u64 3] ordered⟩

example : (keysetOf rankKeys [.u64 7, .u64 3]).map (buildExpr .mysql) =
    some (.ok ("(`score` < ? OR (`score` = ? AND `id` > ?))", [.u64 7, .u64 7, .u64 3])) := rfl

end SqlComposer.Compose
