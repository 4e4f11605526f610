import SqlComposer.Compose.Registry
import SqlComposer.Sql.Identifier

namespace SqlComposer.Compose

open Sql

structure Statement where
  operation : String
  text : String := ""
  values : List SqlValue := []

namespace Statement

def append (statement : Statement) (text : String) : Statement :=
  { statement with text := statement.text ++ text }

def bind (statement : Statement) (v : SqlValue) : Statement :=
  { statement with text := statement.text ++ placeholder, values := statement.values ++ [v] }

def write (registry : Registry) (statement : Statement) : Piece → Except BuildError Statement
  | .text text => .ok (statement.append text)
  | .identifier name => .ok (statement.append (quote name))
  | .argument bound => (registry.resolve bound).map statement.bind
  | .fault fault => .error (fault.error statement.operation)

def writeAll (registry : Registry) (statement : Statement) : Pieces → Statement × Option BuildError
  | [] => (statement, none)
  | piece :: pieces => match statement.write registry piece with
    | .ok statement => statement.writeAll registry pieces
    | .error error => (statement, some error)

def compose (registry : Registry) (operation : String) (pieces : Pieces) :
    Except BuildError (String × List SqlValue) :=
  match writeAll registry { operation } pieces with
  | (statement, none) => .ok (statement.text, statement.values)
  | (_, some error) => .error error

@[simp] theorem writeAll_nil (registry : Registry) (statement : Statement) :
    writeAll registry statement [] = (statement, none) := rfl

theorem writeAll_append (registry : Registry) (statement : Statement) (a b : Pieces) :
    writeAll registry statement (a ++ b) =
      match writeAll registry statement a with
      | (statement, none) => writeAll registry statement b
      | failed => failed := by
  induction a generalizing statement with
  | nil => rfl
  | cons piece pieces ih =>
    simp only [List.cons_append, writeAll]
    split
    · exact ih _
    · rfl

end Statement

end SqlComposer.Compose
