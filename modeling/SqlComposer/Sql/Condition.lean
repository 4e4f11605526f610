import SqlComposer.Sql.Term

namespace SqlComposer.Sql

namespace Expr

def comparison (operator : Operator) (field v : Expr) : Expr := .ofNode (.comparison operator field v)

def equal (field v : Expr) : Expr := comparison .equal field v

def between (field low high : Expr) : Expr := comparison .between field (range low high)

def notBetween (field low high : Expr) : Expr := comparison .notBetween field (range low high)

def like (negated : Bool) (field v : Expr) : Expr := .ofNode (.like negated field v)

def nullTest (negated : Bool) (field : Expr) : Expr := .ofNode (.nullTest negated field)

def existence (negated : Bool) (query : Select) : Expr := .ofNode (.existence negated query)

end Expr

inductive Connective
  | and | or
deriving DecidableEq, Repr

def Connective.text : Connective → String
  | .and => " AND "
  | .or => " OR "

def present? (operand : Option Expr) : Option Expr := operand.filter fun expr => !expr.isZero

def Connective.join? (connective : Connective) : List Expr → Option Expr
  | [] => none
  | [operand] => some operand
  | operand :: operands =>
    some (.group (.raw "(" :: operand ::
      operands.flatMap (fun next => [.raw connective.text, next]) ++ [.raw ")"]))

def Connective.connect (connective : Connective) (operands : List (Option Expr)) : Option Expr :=
  connective.join? (operands.filterMap present?)

def allOf (operands : List (Option Expr)) : Option Expr := Connective.and.connect operands

def anyOf (operands : List (Option Expr)) : Option Expr := Connective.or.connect operands

def Expr.ofCondition (condition : Option Expr) : Expr := condition.getD .zero

theorem present?_eq_some_iff {operand : Option Expr} {expr : Expr} :
    present? operand = some expr ↔ operand = some expr ∧ expr.isZero = false := by
  simp [present?, Option.filter_eq_some_iff]

@[simp] theorem connect_nil (connective : Connective) : connective.connect [] = none := rfl

@[simp] theorem connect_none_cons (connective : Connective) (operands : List (Option Expr)) :
    connective.connect (none :: operands) = connective.connect operands := rfl

end SqlComposer.Sql
