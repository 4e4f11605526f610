import SqlComposer.Sql.Condition

namespace SqlComposer.Sql

namespace Query

def joined (query : Select) (kind : JoinKind) (table label : String) (conditions : List (Option Expr)) :
    Select :=
  { query with joins := query.joins ++ [⟨kind, table, label, allOf conditions⟩] }

def filtered (query : Select) (conditions : List (Option Expr)) : Select :=
  { query with condition := allOf conditions }

def havingAll (query : Select) (conditions : List (Option Expr)) : Select :=
  { query with having := allOf conditions }

def sorted (query : Select) (keys : List Expr) : Select := { query with sorts := keys.map Expr.asSortKey }

def locked (query : Select) (lock : Lock) : Select := { query with lock := some (.lock lock) }

def first (query : Select) : Select := { query with count := 1, skip := 0 }

end Query

structure Page where
  query : Select := {}
  cursor : List Expr := []

def sortColumn : Expr → Expr × Order
  | .ofNode (.sort field order) => (field, order)
  | other => (other, .ascending)

def beyond (order : Order) (field v : Expr) : Expr :=
  match order with
  | .ascending => .comparison .greaterThan field v
  | .descending => .comparison .lowerThan field v

def keysetBranches (equal : List Expr) : List ((Expr × Order) × Expr) → List (Option Expr)
  | [] => []
  | ((field, order), v) :: rest =>
    allOf ((equal ++ [beyond order field v]).map some) ::
      keysetBranches (equal ++ [Expr.equal field v]) rest

def keyset (sorts cursor : List Expr) : Option Expr :=
  anyOf (keysetBranches [] ((sorts.map sortColumn).zip cursor))

def Page.toQuery (page : Page) : Select :=
  page.query.filtered [page.query.condition, keyset page.query.sorts page.cursor]

@[simp] theorem keyset_nil (sorts : List Expr) : keyset sorts [] = none := by
  simp [keyset, keysetBranches, anyOf]

end SqlComposer.Sql
