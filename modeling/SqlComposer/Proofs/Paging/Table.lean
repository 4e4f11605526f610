import SqlComposer.Proofs.Condition.Tree
import SqlComposer.Sql.Select

namespace SqlComposer.Sql

structure Key where
  table : String := ""
  name : String
  direction : Option Order := none
deriving DecidableEq

namespace Key

def column (key : Key) : Expr := .columnOf key.table key.name

def order (key : Key) : Order := key.direction.getD .ascending

def expr (key : Key) : Expr :=
  match key.direction with
  | none => key.column
  | some order => .sort key.column order

def ofSort? (sort : Expr) : Option Key :=
  match sortColumn sort with
  | (.ofNode (.column table name), order) => some ⟨table, name, some order⟩
  | _ => none

theorem asSortKey_expr (key : Key) : key.expr.asSortKey = .sort key.column key.order := by
  obtain ⟨table, name, _ | order⟩ := key <;> rfl

@[simp] theorem sortColumn_expr (key : Key) : sortColumn key.expr.asSortKey = (key.column, key.order) := by
  rw [asSortKey_expr]
  rfl

end Key

structure Table (Row : Type) where
  rows : List Row
  cell : Row → (table name : String) → SqlValue
  order : (table name : String) → SqlValue → SqlValue → Ordering
  other : Row → Expr → Truth

def Operator.relation? : Operator → Option (Ordering → Bool)
  | .equal => some Ordering.isEq
  | .notEqual => some Ordering.isNe
  | .greaterThan => some Ordering.isGT
  | .greaterOrEqual => some Ordering.isGE
  | .lowerThan => some Ordering.isLT
  | .lowerOrEqual => some Ordering.isLE
  | _ => none

namespace Table

variable {Row : Type} (table : Table Row)

def compared (relation : Ordering → Bool) (order : SqlValue → SqlValue → Ordering) (cell v : SqlValue) : Truth :=
  if cell.isNull || v.isNull then none else some (relation (order cell v))

def truth (row : Row) (expr : Expr) : Truth :=
  match expr with
  | .ofNode (.comparison operator (.ofNode (.column source name)) (.ofNode (.argument (.value v)))) =>
    match operator.relation? with
    | some relation => compared relation (table.order source name) (table.cell row source name) v
    | none => table.other row expr
  | _ => table.other row expr

def value (row : Row) (key : Key) : SqlValue := table.cell row key.table key.name

def compareBy (key : Key) (row other : Row) : Ordering :=
  match key.order with
  | .ascending => table.order key.table key.name (table.value row key) (table.value other key)
  | .descending => table.order key.table key.name (table.value other key) (table.value row key)

def compareAll : List Key → Row → Row → Ordering
  | [], _, _ => .eq
  | key :: keys, row, other => (table.compareBy key row other).then (compareAll keys row other)

def select (query : Select) : List Row :=
  let passing := table.rows.filter fun row => passes (table.truth row) query.condition
  let keys := query.sorts.filterMap Key.ofSort?
  let ordered := passing.mergeSort fun row other => (table.compareAll keys row other).isLE
  let behind := ordered.drop query.skip.toNat
  if query.count = 0 then behind else behind.take query.count.toNat

def IsOrdered (key : Key) : Prop :=
  Std.TransCmp fun row other =>
    table.order key.table key.name (table.value row key) (table.value other key)

variable {table} {keys : List Key}

theorem transCmp_compareBy {key : Key} (ordered : table.IsOrdered key) : Std.TransCmp (table.compareBy key) := by
  have forwards : Std.TransCmp fun row other =>
    table.order key.table key.name (table.value row key) (table.value other key) := ordered
  cases direction : key.order with
  | ascending =>
    have same : table.compareBy key = fun row other =>
        table.order key.table key.name (table.value row key) (table.value other key) := by
      funext row other
      simp [compareBy, direction]
    rw [same]
    exact forwards
  | descending =>
    have same : table.compareBy key = fun row other =>
        table.order key.table key.name (table.value other key) (table.value row key) := by
      funext row other
      simp [compareBy, direction]
    rw [same]
    exact forwards.opposite

theorem transCmp_compareAll (ordered : ∀ key ∈ keys, table.IsOrdered key) :
    Std.TransCmp (table.compareAll keys) := by
  induction keys with
  | nil => exact { eq_swap := rfl, isLE_trans := fun _ _ => rfl }
  | cons key keys ih =>
    have first := transCmp_compareBy (ordered key List.mem_cons_self)
    have rest := ih fun other member => ordered other (List.mem_cons_of_mem _ member)
    exact inferInstanceAs (Std.TransCmp (compareLex (table.compareBy key) (table.compareAll keys)))

theorem pairwise_sorted (ordered : ∀ key ∈ keys, table.IsOrdered key) {rows : List Row}
    (distinct : rows.Pairwise fun row other => table.compareAll keys row other ≠ .eq) :
    (rows.mergeSort fun row other => (table.compareAll keys row other).isLE).Pairwise fun row other =>
      table.compareAll keys row other = .lt := by
  have := transCmp_compareAll ordered
  let before := fun row other => (table.compareAll keys row other).isLE
  have trans : ∀ row other third, before row other = true → before other third = true → before row third = true :=
    fun _ _ _ => Std.TransCmp.isLE_trans
  have total : ∀ row other, (before row other || before other row) = true := by
    intro row other
    have swapped : table.compareAll keys other row = (table.compareAll keys row other).swap :=
      Std.OrientedCmp.eq_swap
    simp only [before, swapped]
    cases table.compareAll keys row other <;> rfl
  have weak : (rows.mergeSort before).Pairwise fun row other => before row other = true :=
    List.pairwise_mergeSort trans total rows
  have apart : (rows.mergeSort before).Pairwise fun row other => table.compareAll keys row other ≠ .eq :=
    distinct.perm (List.mergeSort_perm rows before).symm fun different same =>
      different (Std.OrientedCmp.eq_symm same)
  refine weak.imp₂ ?_ apart
  intro row other notAfter different
  cases lies : table.compareAll keys row other with
  | lt => rfl
  | eq => exact absurd lies different
  | gt => simp [before, lies] at notAfter

theorem eq_of_perm_of_sorted (ordered : ∀ key ∈ keys, table.IsOrdered key) {rows others : List Row}
    (sorted : rows.Pairwise fun row other => table.compareAll keys row other = .lt)
    (sortedOthers : others.Pairwise fun row other => table.compareAll keys row other = .lt)
    (perm : rows.Perm others) : rows = others := by
  have := transCmp_compareAll ordered
  apply List.Perm.eq_of_pairwise _ sorted sortedOthers perm
  intro row other _ _ before after
  exact absurd after (Std.OrientedCmp.not_lt_of_lt before)

theorem filter_after (ordered : ∀ key ∈ keys, table.IsOrdered key) {rows before rest : List Row} {last : Row}
    (sorted : rows.Pairwise fun row other => table.compareAll keys row other = .lt)
    (split : rows = before ++ last :: rest) :
    (rows.filter fun row => (table.compareAll keys last row).isLT) = rest := by
  have := transCmp_compareAll ordered
  rw [split, List.pairwise_append, List.pairwise_cons] at sorted
  obtain ⟨_, ⟨behind, _⟩, ahead⟩ := sorted
  have noneBefore : (before.filter fun row => (table.compareAll keys last row).isLT) = [] := by
    apply List.filter_eq_nil_iff.mpr
    intro row member after
    have lies : table.compareAll keys row last = .lt := ahead row member last List.mem_cons_self
    exact Std.OrientedCmp.not_lt_of_lt lies (Ordering.isLT_iff_eq_lt.mp after)
  have itself : table.compareAll keys last last = .eq := Std.ReflCmp.compare_self
  have notItself : (table.compareAll keys last last).isLT = false := by rw [itself]; rfl
  have allBehind : (rest.filter fun row => (table.compareAll keys last row).isLT) = rest :=
    List.filter_eq_self.mpr fun row member => Ordering.isLT_iff_eq_lt.mpr (behind row member)
  rw [split, List.filter_append, noneBefore, List.filter_cons, notItself, allBehind]
  rfl

end Table

end SqlComposer.Sql
