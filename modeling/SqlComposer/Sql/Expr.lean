import SqlComposer.Value
/-!
Expressions of SQL and the queries inside them.

`Node` is one expression with holes in the places of its parts, `Query` and `Join` are a SELECT statement with
holes likewise, and `Expr` fills every hole with a further expression. A traversal is given by what it does at
one node and runs by `Expr.fold`.
-/

namespace SqlComposer.Sql

inductive Operator
  | equal | notEqual | greaterThan | greaterOrEqual | lowerThan | lowerOrEqual
  | within | notWithin | between | notBetween | memberOf
deriving DecidableEq, Repr

def Operator.text : Operator → String
  | .equal => "="
  | .notEqual => "<>"
  | .greaterThan => ">"
  | .greaterOrEqual => ">="
  | .lowerThan => "<"
  | .lowerOrEqual => "<="
  | .within => "IN"
  | .notWithin => "NOT IN"
  | .between => "BETWEEN"
  | .notBetween => "NOT BETWEEN"
  | .memberOf => "MEMBER OF"

inductive Order
  | ascending | descending
deriving DecidableEq, Repr

inductive Step
  | plus | minus
deriving DecidableEq, Repr

inductive Aggregate
  | count | countDistinct | sum | average | maximum | minimum
deriving DecidableEq, Repr

inductive JsonFunction
  | extract | contains | quote | unquote | set
deriving DecidableEq, Repr

def JsonFunction.text : JsonFunction → String
  | .extract => "JSON_EXTRACT"
  | .contains => "JSON_CONTAINS"
  | .quote => "JSON_QUOTE"
  | .unquote => "JSON_UNQUOTE"
  | .set => "JSON_SET"

inductive LockMode
  | forUpdate | forShare | inShareMode
deriving DecidableEq, Repr

inductive LockWait
  | noWait | skipLocked
deriving DecidableEq, Repr

structure Lock where
  mode : LockMode
  wait : Option LockWait := none
deriving DecidableEq, Repr

inductive CastType
  | binary | char | date | dateTime | decimal | json | signed | unsigned | time
deriving DecidableEq, Repr

def CastType.text : CastType → String
  | .binary => "BINARY"
  | .char => "CHAR"
  | .date => "DATE"
  | .dateTime => "DATETIME"
  | .decimal => "DECIMAL"
  | .json => "JSON"
  | .signed => "SIGNED"
  | .unsigned => "UNSIGNED"
  | .time => "TIME"

inductive JoinKind
  | inner | left | right | cross
deriving DecidableEq, Repr

def JoinKind.text : JoinKind → String
  | .inner => "INNER JOIN"
  | .left => "LEFT JOIN"
  | .right => "RIGHT JOIN"
  | .cross => "CROSS JOIN"

structure Join (α : Type) where
  kind : JoinKind
  table : String
  label : String := ""
  condition : Option α := none

/-- A SELECT statement over expressions of type `α`. No projection means every column; a count of zero means
no limit. -/
structure Query (α : Type) where
  database : String := ""
  table : String := ""
  distinct : Bool := false
  projections : List α := []
  joins : List (Join α) := []
  condition : Option α := none
  groups : List α := []
  having : Option α := none
  sorts : List α := []
  skip : UInt64 := 0
  count : UInt64 := 0
  lock : Option α := none

inductive Node (α : Type)
  | column (table name : String)
  | comparison (operator : Operator) (field value : α)
  | like (negated : Bool) (field value : α)
  | nullTest (negated : Bool) (field : α)
  | range (low high : α)
  | group (parts : List α)
  | sort (field : α) (order : Order)
  | assignment (field value : α)
  | adjustment (field : α) (step : Step) (amount : α)
  | aggregate (function : Aggregate) (field : α)
  | call (name : String) (arguments : List α)
  | jsonCall (name : String) (arguments : List α)
  | lock (mode : Lock)
  | raw (text : String)
  | labelled (field : α) (label : String)
  | cast (value : α) (type : CastType)
  | tuple (items : List α)
  | existence (negated : Bool) (query : Query α)
  | subquery (query : Query α)
  | argument (bound : Argument)

inductive ExprKind
  | column | comparison | like | nullTest | range | group | sort | assignment | adjustment | aggregate | call
  | jsonCall | lock | raw | labelled | cast | tuple | existence | subquery | argument
deriving DecidableEq, Repr

namespace ExprKind

def name : ExprKind → String
  | .column => "Column"
  | .comparison => "Clause"
  | .like => "Like"
  | .nullTest => "Nil"
  | .range => "Range"
  | .group => "Group"
  | .sort => "Sort"
  | .assignment => "KV"
  | .adjustment => "Math"
  | .aggregate => "Aggregate"
  | .call => "Func"
  | .jsonCall => "JsonFunc"
  | .lock => "Lock"
  | .raw => "Raw"
  | .labelled => "As"
  | .cast => "CastAs"
  | .tuple => "Values"
  | .existence => "Exists"
  | .subquery => "Select"
  | .argument => "Arg"

def all : List ExprKind :=
  [.column, .comparison, .like, .nullTest, .range, .group, .sort, .assignment, .adjustment, .aggregate, .call,
   .jsonCall, .lock, .raw, .labelled, .cast, .tuple, .existence, .subquery, .argument]

end ExprKind

variable {α β : Type}

namespace Node

def kind : Node α → ExprKind
  | .column .. => .column
  | .comparison .. => .comparison
  | .like .. => .like
  | .nullTest .. => .nullTest
  | .range .. => .range
  | .group .. => .group
  | .sort .. => .sort
  | .assignment .. => .assignment
  | .adjustment .. => .adjustment
  | .aggregate .. => .aggregate
  | .call .. => .call
  | .jsonCall .. => .jsonCall
  | .lock .. => .lock
  | .raw .. => .raw
  | .labelled .. => .labelled
  | .cast .. => .cast
  | .tuple .. => .tuple
  | .existence .. => .existence
  | .subquery .. => .subquery
  | .argument .. => .argument

/-- A node that stands for no expression at all: an empty group or text, a column or function without name. -/
def isZero : Node α → Bool
  | .group parts => parts.isEmpty
  | .raw text => text == ""
  | .column _ name => name == ""
  | .call name _ => name == ""
  | _ => false

end Node

def Join.map (f : α → β) (join : Join α) : Join β :=
  ⟨join.kind, join.table, join.label, join.condition.map f⟩

def Query.map (f : α → β) (query : Query α) : Query β :=
  { database := query.database
    table := query.table
    distinct := query.distinct
    projections := query.projections.map f
    joins := query.joins.map (·.map f)
    condition := query.condition.map f
    groups := query.groups.map f
    having := query.having.map f
    sorts := query.sorts.map f
    skip := query.skip
    count := query.count
    lock := query.lock.map f }

def Node.map (f : α → β) : Node α → Node β
  | .column table name => .column table name
  | .comparison operator field value => .comparison operator (f field) (f value)
  | .like negated field value => .like negated (f field) (f value)
  | .nullTest negated field => .nullTest negated (f field)
  | .range low high => .range (f low) (f high)
  | .group parts => .group (parts.map f)
  | .sort field order => .sort (f field) order
  | .assignment field value => .assignment (f field) (f value)
  | .adjustment field step amount => .adjustment (f field) step (f amount)
  | .aggregate function field => .aggregate function (f field)
  | .call name arguments => .call name (arguments.map f)
  | .jsonCall name arguments => .jsonCall name (arguments.map f)
  | .lock mode => .lock mode
  | .raw text => .raw text
  | .labelled field label => .labelled (f field) label
  | .cast value type => .cast (f value) type
  | .tuple items => .tuple (items.map f)
  | .existence negated query => .existence negated (query.map f)
  | .subquery query => .subquery (query.map f)
  | .argument bound => .argument bound

@[simp] theorem Node.kind_map (f : α → β) (node : Node α) : (node.map f).kind = node.kind := by
  cases node <;> rfl

@[simp] theorem Node.isZero_map (f : α → β) (node : Node α) : (node.map f).isZero = node.isZero := by
  cases node <;> simp [Node.map, Node.isZero]

inductive Expr
  | ofNode (node : Node Expr)

namespace Expr

def node : Expr → Node Expr
  | .ofNode node => node

def kind (expr : Expr) : ExprKind := expr.node.kind

def isZero (expr : Expr) : Bool := expr.node.isZero

def zero : Expr := .ofNode (.group [])

section Fold

variable (step : Node β → β)

mutual

def fold : Expr → β
  | .ofNode node => step (foldNode node)

def foldNode : Node Expr → Node β
  | .column table name => .column table name
  | .comparison operator field value => .comparison operator (fold field) (fold value)
  | .like negated field value => .like negated (fold field) (fold value)
  | .nullTest negated field => .nullTest negated (fold field)
  | .range low high => .range (fold low) (fold high)
  | .group parts => .group (foldList parts)
  | .sort field order => .sort (fold field) order
  | .assignment field value => .assignment (fold field) (fold value)
  | .adjustment field step amount => .adjustment (fold field) step (fold amount)
  | .aggregate function field => .aggregate function (fold field)
  | .call name arguments => .call name (foldList arguments)
  | .jsonCall name arguments => .jsonCall name (foldList arguments)
  | .lock mode => .lock mode
  | .raw text => .raw text
  | .labelled field label => .labelled (fold field) label
  | .cast value type => .cast (fold value) type
  | .tuple items => .tuple (foldList items)
  | .existence negated query => .existence negated (foldQuery query)
  | .subquery query => .subquery (foldQuery query)
  | .argument bound => .argument bound

def foldQuery : Query Expr → Query β
  | ⟨database, table, distinct, projections, joins, condition, groups, having, sorts, skip, count, lock⟩ =>
    ⟨database, table, distinct, foldList projections, foldJoins joins, foldOption condition, foldList groups,
      foldOption having, foldList sorts, skip, count, foldOption lock⟩

def foldJoins : List (Join Expr) → List (Join β)
  | [] => []
  | join :: joins => foldJoin join :: foldJoins joins

def foldJoin : Join Expr → Join β
  | ⟨kind, table, label, condition⟩ => ⟨kind, table, label, foldOption condition⟩

def foldOption : Option Expr → Option β
  | none => none
  | some expr => some (fold expr)

def foldList : List Expr → List β
  | [] => []
  | expr :: exprs => fold expr :: foldList exprs

end

@[simp] theorem foldList_eq_map (exprs : List Expr) : foldList step exprs = exprs.map (fold step) := by
  induction exprs with
  | nil => rfl
  | cons expr exprs ih => simp [foldList, ih]

@[simp] theorem foldOption_eq_map (expr : Option Expr) : foldOption step expr = expr.map (fold step) := by
  cases expr <;> rfl

@[simp] theorem foldJoin_eq_map (join : Join Expr) : foldJoin step join = join.map (fold step) := by
  cases join; simp [foldJoin, Join.map]

@[simp] theorem foldJoins_eq_map (joins : List (Join Expr)) :
    foldJoins step joins = joins.map (·.map (fold step)) := by
  induction joins with
  | nil => rfl
  | cons join joins ih => simp [foldJoins, ih]

@[simp] theorem foldQuery_eq_map (query : Query Expr) : foldQuery step query = query.map (fold step) := by
  cases query; simp [foldQuery, Query.map]

theorem foldNode_eq_map (node : Node Expr) : foldNode step node = node.map (fold step) := by
  cases node <;> simp [foldNode, Node.map]

theorem fold_ofNode (node : Node Expr) : fold step (.ofNode node) = step (node.map (fold step)) := by
  rw [fold, foldNode_eq_map]

end Fold

end Expr

abbrev Select := Query Expr

end SqlComposer.Sql
