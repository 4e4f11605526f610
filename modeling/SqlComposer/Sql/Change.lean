import SqlComposer.Sql.Condition

namespace SqlComposer.Sql

structure Update where
  database : String := ""
  table : String := ""
  condition : Option Expr := none
  assignments : List Expr := []
  sorts : List Expr := []
  count : UInt64 := 0

namespace Update

def filtered (update : Update) (conditions : List (Option Expr)) : Update :=
  { update with condition := allOf conditions }

def assigned (update : Update) (assignments : List Expr) : Update :=
  { update with assignments := update.assignments ++ assignments }

def sorted (update : Update) (keys : List Expr) : Update := { update with sorts := keys.map Expr.asSortKey }

def first (update : Update) : Update := { update with count := 1 }

end Update

structure Delete where
  database : String := ""
  table : String := ""
  condition : Option Expr := none
  sorts : List Expr := []
  count : UInt64 := 0

namespace Delete

def filtered (delete : Delete) (conditions : List (Option Expr)) : Delete :=
  { delete with condition := allOf conditions }

def sorted (delete : Delete) (keys : List Expr) : Delete := { delete with sorts := keys.map Expr.asSortKey }

def first (delete : Delete) : Delete := { delete with count := 1 }

end Delete

/-- Rows to insert. `onDuplicate` names the columns that take their new values where a key exists already; an
empty list means every column. `omitted` names the columns that records do not fill. -/
structure Insert where
  database : String := ""
  table : String := ""
  ignore : Bool := false
  columns : List String := []
  rows : List (List Expr) := []
  onDuplicate : Option (List String) := none
  omitted : List String := []

namespace Insert

def withRow (insert : Insert) (row : List Expr) : Insert := { insert with rows := insert.rows ++ [row] }

def updatedColumns? (insert : Insert) : Option (List String) :=
  insert.onDuplicate.map fun columns => if columns.isEmpty then insert.columns else columns

end Insert

end SqlComposer.Sql
