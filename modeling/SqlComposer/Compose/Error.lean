import SqlComposer.Sql.Expr

namespace SqlComposer.Compose

open Sql

inductive BuildError
  | unregistered (operation : String) (kind : ExprKind)
  | noEncoder (kind : ValueKind)
  | emptyTable (operation : String)
  | nothingToWrite (operation : String)
  | noValue (reason : String)
  | json (reason : String)
  | format (reason : String)
  | outOfCalendar
deriving DecidableEq, Repr

def BuildError.message : BuildError → String
  | .unregistered operation kind =>
    "builder " ++ operation ++ ": no renderer registered for " ++ kind.name ++ " expression"
  | .noEncoder kind => "builder no encoder registered for " ++ kind.name ++ " value"
  | .emptyTable operation => "builder " ++ operation ++ ": empty table name"
  | .nothingToWrite operation => "builder " ++ operation ++ ": nothing to write"
  | .noValue reason => "sql valuer error: " ++ reason
  | .json reason => "builder json encoding: " ++ reason
  | .format reason => "builder time formatting: " ++ reason
  | .outOfCalendar => "local datetime out of valid range"

end SqlComposer.Compose
