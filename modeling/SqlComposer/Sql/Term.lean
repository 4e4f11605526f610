import SqlComposer.Sql.Expr

namespace SqlComposer.Sql.Expr

def column (name : String) : Expr := .ofNode (.column "" name)

def columnOf (table name : String) : Expr := .ofNode (.column table name)

def argument (bound : Argument) : Expr := .ofNode (.argument bound)

def value (v : SqlValue) : Expr := argument (.value v)

def raw (text : String) : Expr := .ofNode (.raw text)

def group (parts : List Expr) : Expr := .ofNode (.group parts)

def range (low high : Expr) : Expr := .ofNode (.range low high)

def tuple (items : List Expr) : Expr := .ofNode (.tuple items)

def pair? (columns : List Expr) : Option Expr := if columns.isEmpty then none else some (tuple columns)

def subquery (query : Select) : Expr := .ofNode (.subquery query)

def labelled (field : Expr) (label : String) : Expr := .ofNode (.labelled field label)

def aggregate (function : Aggregate) (field : Expr) : Expr := .ofNode (.aggregate function field)

def call (name : String) (arguments : List Expr) : Expr := .ofNode (.call name arguments)

def fieldPosition (field : Expr) (values : List Expr) : Expr := call "FIELD" (field :: values)

def cast (v : Expr) (type : CastType) : Expr := .ofNode (.cast v type)

def jsonCall (function : JsonFunction) (arguments : List Expr) : Expr :=
  .ofNode (.jsonCall function.text arguments)

def jsonExtract (document : Expr) (paths : List Expr) : Expr := jsonCall .extract (document :: paths)

def jsonContains (target candidate : Expr) (path : Option String) : Expr :=
  jsonCall .contains (target :: candidate :: (path.map fun p => value (.string p)).toList)

def jsonQuote (v : Expr) : Expr := jsonCall .quote [v]

def jsonUnquote (v : Expr) : Expr := jsonCall .unquote [v]

def jsonSet (document : Expr) (pairs : List (Expr × Expr)) : Expr :=
  jsonCall .set (document :: pairs.flatMap fun (path, v) => [path, v])

def sort (field : Expr) (order : Order) : Expr := .ofNode (.sort field order)

def asSortKey (expr : Expr) : Expr :=
  match expr.kind with
  | .sort | .call | .raw => expr
  | _ => sort expr .ascending

def assignment (field v : Expr) : Expr := .ofNode (.assignment field v)

def adjustment (field : Expr) (step : Step) (amount : Expr) : Expr := .ofNode (.adjustment field step amount)

def lock (mode : Lock) : Expr := .ofNode (.lock mode)

end SqlComposer.Sql.Expr
