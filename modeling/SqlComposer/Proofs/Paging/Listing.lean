import SqlComposer.Proofs.Paging.Keyset

namespace SqlComposer.Sql

structure Listing where
  database : String := ""
  source : String := ""
  projections : List Expr := []
  conditions : List Condition := []
  keys : List Key := []
  size : UInt64
  lock : Option Lock := none

namespace Listing

def page (listing : Listing) (cursor : List Expr) : Page where
  query := Query.sorted (Query.filtered
    { database := listing.database
      table := listing.source
      projections := listing.projections
      count := listing.size
      lock := listing.lock.map Expr.lock } (listing.conditions.map Condition.operand))
    (listing.keys.map Key.expr)
  cursor := cursor

end Listing

namespace Table

variable {Row : Type} (table : Table Row) (listing : Listing)

def cursorAt (row : Row) : List Expr := listing.keys.map fun key => .value (table.value row key)

def admits (row : Row) : Bool := (Condition.joined .and listing.conditions).holds (table.truth row)

def fetch (cursor : List Expr) : List Row := table.select (listing.page cursor).toQuery

/-- Pages are fetched until one is empty; nothing is returned if that takes more turns than are allowed. -/
def readFrom : Nat → List Expr → Option (List Row)
  | 0, _ => none
  | turns + 1, cursor =>
    match (table.fetch listing cursor).getLast? with
    | none => some []
    | some last => (readFrom turns (table.cursorAt listing last)).map (table.fetch listing cursor ++ ·)

def listed : List Row :=
  (table.rows.filter (table.admits listing)).mergeSort fun row other =>
    (table.compareAll listing.keys row other).isLE

variable {table listing}

theorem compareBy_congr {key other : Key} (sameTable : key.table = other.table) (sameName : key.name = other.name)
    (sameOrder : key.order = other.order) : table.compareBy key = table.compareBy other := by
  funext row behind
  simp only [compareBy, value, sameTable, sameName, sameOrder]

theorem compareAll_ofSort? (keys : List Key) :
    table.compareAll ((keys.map fun key => key.expr.asSortKey).filterMap Key.ofSort?) = table.compareAll keys := by
  induction keys with
  | nil => rfl
  | cons key keys ih =>
    have named : Key.ofSort? key.expr.asSortKey = some ⟨key.table, key.name, some key.order⟩ := by
      rw [Key.ofSort?, Key.sortColumn_expr]
      rfl
    have same : table.compareBy ⟨key.table, key.name, some key.order⟩ = table.compareBy key :=
      compareBy_congr rfl rfl rfl
    funext row other
    rw [List.map_cons, List.filterMap_cons_some named, compareAll, ih, same, compareAll]

theorem fetch_eq (paged : 0 < listing.size) (cursor : List Expr) :
    table.fetch listing cursor =
      ((table.rows.filter fun row => passes (table.truth row) (listing.page cursor).toQuery.condition).mergeSort
        fun row other => (table.compareAll listing.keys row other).isLE).take listing.size.toNat := by
  have limited : listing.size ≠ 0 := (UInt64.pos_iff_ne_zero.mp paged)
  have sorts : (listing.page cursor).toQuery.sorts = listing.keys.map fun key => key.expr.asSortKey := by
    simp [Page.toQuery, Query.filtered, Listing.page, Query.sorted]
  have count : (listing.page cursor).toQuery.count = listing.size := rfl
  have skip : (listing.page cursor).toQuery.skip = 0 := rfl
  rw [fetch, select, sorts, compareAll_ofSort?, count, skip, if_neg limited]
  rfl

theorem fetch_first (paged : 0 < listing.size) :
    table.fetch listing [] = (table.listed listing).take listing.size.toNat := by
  have condition : (listing.page []).toQuery.condition =
      allOf (listing.conditions.map Condition.operand) := by
    simp only [Page.toQuery, Query.filtered, Listing.page, Query.sorted, keyset_nil]
    exact connect_connect_none .and _
  have passing : ∀ row, passes (table.truth row) (listing.page []).toQuery.condition = table.admits listing row := by
    intro row
    rw [condition]
    exact passes_eq_holds (isMeant_joined .and (isMeant_operands listing.conditions)) (table.truth row)
  rw [fetch_eq paged, listed]
  simp only [passing]

section

variable (paged : 0 < listing.size) (ordered : ∀ key ∈ listing.keys, table.IsOrdered key)
  (filled : ∀ row ∈ table.rows, ∀ key ∈ listing.keys, (table.value row key).isNull = false)
  (distinct : table.rows.Pairwise fun row other => table.compareAll listing.keys row other ≠ .eq)

include ordered distinct in
theorem pairwise_listed :
    (table.listed listing).Pairwise fun row other => table.compareAll listing.keys row other = .lt :=
  pairwise_sorted ordered (distinct.filter _)

theorem perm_listed : (table.listed listing).Perm (table.rows.filter (table.admits listing)) :=
  List.mergeSort_perm _ _

include ordered filled in
theorem passes_after {last row : Row} (sortable : listing.keys ≠ []) (lastMember : last ∈ table.rows)
    (member : row ∈ table.rows) :
    passes (table.truth row) (listing.page (table.cursorAt listing last)).toQuery.condition =
      (table.admits listing row && (table.compareAll listing.keys last row).isLT) := by
  rw [admits, Condition.holds_joined_and]
  apply passes_toQuery ordered (filled last lastMember) (filled row member) sortable
  · rfl
  · exact List.map_map

include paged ordered filled distinct

theorem fetch_after {before rest : List Row} {last : Row} (sortable : listing.keys ≠ [])
    (split : table.listed listing = before ++ last :: rest) :
    table.fetch listing (table.cursorAt listing last) = rest.take listing.size.toNat := by
  have sorted := pairwise_listed ordered distinct
  have lastListed : last ∈ table.listed listing := by simp [split]
  have lastMember : last ∈ table.rows := List.mem_of_mem_filter (perm_listed.mem_iff.mp lastListed)
  let passing := fun row => passes (table.truth row) (listing.page (table.cursorAt listing last)).toQuery.condition
  let after := fun row => (table.compareAll listing.keys last row).isLT
  have asked : table.rows.filter passing = (table.rows.filter (table.admits listing)).filter after := by
    rw [List.filter_filter]
    apply List.filter_congr
    intro row member
    rw [Bool.and_comm]
    exact passes_after ordered filled sortable lastMember member
  have behind : (table.listed listing).filter after = rest := filter_after ordered sorted split
  have sortedRest : rest.Pairwise fun row other => table.compareAll listing.keys row other = .lt :=
    behind ▸ sorted.filter after
  have perm : (table.rows.filter passing).Perm rest := by
    rw [asked, ← behind]
    exact perm_listed.symm.filter after
  have fetched : ((table.rows.filter passing).mergeSort fun row other =>
      (table.compareAll listing.keys row other).isLE) = rest :=
    eq_of_perm_of_sorted ordered (pairwise_sorted ordered (distinct.filter passing)) sortedRest
      ((List.mergeSort_perm _ _).trans perm)
  rw [fetch_eq paged]
  exact congrArg (List.take listing.size.toNat) fetched

theorem readFrom_rest (sortable : listing.keys ≠ []) {turns : Nat} {before rest : List Row} {cursor : List Expr}
    (split : table.listed listing = before ++ rest)
    (next : table.fetch listing cursor = rest.take listing.size.toNat) (enough : rest.length < turns) :
    table.readFrom listing turns cursor = some rest := by
  have positive : 0 < listing.size.toNat := paged
  induction turns generalizing before rest cursor with
  | zero => contradiction
  | succ turns ih =>
    cases ends : (rest.take listing.size.toNat).getLast? with
    | none =>
      have finished : rest = [] := by
        simpa [Nat.pos_iff_ne_zero.mp positive] using List.getLast?_eq_none_iff.mp ends
      simp [readFrom, next, finished]
    | some last =>
      -- The page ends at `last`, and what is left comes after it.
      obtain ⟨initial, shown⟩ := List.getLast?_eq_some_iff.mp ends
      let left := rest.drop listing.size.toNat
      have restSplit : rest = initial ++ [last] ++ left := by
        rw [← shown, List.take_append_drop]
      have leftSplit : table.listed listing = (before ++ initial) ++ last :: left := by
        rw [split, restSplit]
        simp
      have following := fetch_after paged ordered filled distinct sortable leftSplit
      have fewer : left.length < turns := by
        have := congrArg List.length restSplit
        simp only [List.length_append, List.length_singleton] at this
        omega
      have regrouped : table.listed listing = (before ++ initial ++ [last]) ++ left := by simp [leftSplit]
      have remaining := ih regrouped following fewer
      simp only [readFrom, next, ends, remaining, Option.map_some]
      exact congrArg some (List.take_append_drop _ _)

end

/-- Reading all pages returns every row that the conditions admit, once and in order. A listing of such rows needs
keys: without any there is no cursor, and the first page comes again. -/
theorem each_row_is_listed_once (table : Table Row) (listing : Listing) (paged : 0 < listing.size)
    (sortable : listing.keys ≠ [] ∨ ∀ row ∈ table.rows, table.admits listing row = false)
    (ordered : ∀ key ∈ listing.keys, table.IsOrdered key)
    (filled : ∀ row ∈ table.rows, ∀ key ∈ listing.keys, (table.value row key).isNull = false)
    (distinct : table.rows.Pairwise fun row other => table.compareAll listing.keys row other ≠ .eq) :
    ∃ rows, (∀ turns, table.rows.length < turns → table.readFrom listing turns [] = some rows) ∧
      rows.Perm (table.rows.filter (table.admits listing)) ∧
      rows.Pairwise fun row other => table.compareAll listing.keys row other = .lt := by
  refine ⟨table.listed listing, ?_, perm_listed, pairwise_listed ordered distinct⟩
  intro turns enough
  have few : (table.listed listing).length ≤ table.rows.length := by
    rw [perm_listed.length_eq]
    exact List.length_filter_le _ _
  have first : table.fetch listing [] = (table.listed listing).take listing.size.toNat := fetch_first paged
  cases sortable with
  | inl keys =>
    exact readFrom_rest paged ordered filled distinct keys (List.nil_append _).symm first (by omega)
  | inr excluded =>
    have none_admitted : table.rows.filter (table.admits listing) = [] :=
      List.filter_eq_nil_iff.mpr fun row member => by simp [excluded row member]
    have nothing : table.listed listing = [] := (none_admitted ▸ perm_listed).eq_nil
    obtain ⟨turns, rfl⟩ := Nat.exists_eq_succ_of_ne_zero (Nat.ne_zero_of_lt enough)
    simp [readFrom, first, nothing]

def scores (rows : List (UInt64 × UInt64)) : Table (UInt64 × UInt64) where
  rows := rows
  cell := fun row _ name => .u64 (if name = "score" then row.1 else row.2)
  order := fun _ _ value other =>
    match value, other with
    | .u64 n, .u64 m => compare n m
    | _, _ => .eq
  other := fun _ _ => none

def highScores : Listing where
  source := "game"
  conditions := [.predicate (.comparison .greaterThan (.column "score") (.value (.u64 2))) rfl]
  keys := [⟨"", "score", some .descending⟩, ⟨"", "id", none⟩]
  size := 2

theorem high_scores_are_listed_once :
    let table := scores [(7, 4), (9, 2), (7, 1), (2, 5), (7, 3)]
    (0 < highScores.size ∧ highScores.keys ≠ [] ∧ (∀ key ∈ highScores.keys, table.IsOrdered key) ∧
      (∀ row ∈ table.rows, ∀ key ∈ highScores.keys, (table.value row key).isNull = false) ∧
      table.rows.Pairwise fun row other => table.compareAll highScores.keys row other ≠ .eq) ∧
    ∃ rows, (∀ turns, table.rows.length < turns → table.readFrom highScores turns [] = some rows) ∧
      rows.Perm (table.rows.filter (table.admits highScores)) ∧
      rows.Pairwise fun row other => table.compareAll highScores.keys row other = .lt := by
  intro table
  have paged : 0 < highScores.size := by decide
  have sortable : highScores.keys ≠ [] := by decide
  have ordered : ∀ key ∈ highScores.keys, table.IsOrdered key := by
    intro key _
    exact inferInstanceAs (Std.TransCmp (compareOn fun row : UInt64 × UInt64 =>
      if key.name = "score" then row.1 else row.2))
  have filled : ∀ row ∈ table.rows, ∀ key ∈ highScores.keys, (table.value row key).isNull = false :=
    fun _ _ _ _ => rfl
  have distinct : table.rows.Pairwise fun row other => table.compareAll highScores.keys row other ≠ .eq := by
    decide
  exact ⟨⟨paged, sortable, ordered, filled, distinct⟩,
    each_row_is_listed_once table highScores paged (.inl sortable) ordered filled distinct⟩

theorem listing_without_keys_never_ends :
    let table := scores [(7, 4)]
    let listing : Listing := { source := "game", size := 1 }
    (0 < listing.size ∧ (∀ key ∈ listing.keys, table.IsOrdered key) ∧
      (∀ row ∈ table.rows, ∀ key ∈ listing.keys, (table.value row key).isNull = false) ∧
      table.rows.Pairwise fun row other => table.compareAll listing.keys row other ≠ .eq) ∧
    ∀ turns, table.readFrom listing turns [] = none := by
  intro table listing
  refine ⟨⟨by decide, by simp [listing], by simp [listing], by simp [table, scores]⟩, fun turns => ?_⟩
  have one : (table.listed listing).Perm [(7, 4)] := perm_listed
  have page : table.fetch listing [] = [(7, 4)] := by
    rw [fetch_first (by decide), List.perm_singleton.mp one]
    rfl
  induction turns with
  | zero => rfl
  | succ turns ih =>
    have again : table.cursorAt listing (7, 4) = [] := rfl
    simp [readFrom, page, again, ih]

end Table

end SqlComposer.Sql
