import SqlComposer.Compose.Error

namespace SqlComposer.Compose

open Sql

inductive Fault
  | unregistered (kind : ExprKind)
  | emptyTable
  | nothingToWrite
  | custom (error : (operation : String) → BuildError)

def Fault.error (operation : String) : Fault → BuildError
  | .unregistered kind => .unregistered operation kind
  | .emptyTable => .emptyTable operation
  | .nothingToWrite => .nothingToWrite operation
  | .custom error => error operation

inductive Piece
  | text (text : String)
  | identifier (name : String)
  | argument (bound : Argument)
  | fault (fault : Fault)

abbrev Pieces := List Piece

namespace Pieces

def separated (separator : String) : List Pieces → Pieces
  | [] => []
  | [pieces] => pieces
  | pieces :: rest => pieces ++ .text separator :: separated separator rest

def clause (keyword : String) : Option Pieces → Pieces
  | none => []
  | some pieces => .text keyword :: pieces

def listClause (keyword : String) (items : List Pieces) : Pieces :=
  if items.isEmpty then [] else .text keyword :: separated "," items

def table (database name : String) : Pieces :=
  if name = "" then [.fault .emptyTable]
  else if database = "" then [.identifier name]
  else [.identifier database, .text ".", .identifier name]

@[simp] theorem separated_nil (separator : String) : separated separator [] = [] := rfl

@[simp] theorem separated_singleton (separator : String) (pieces : Pieces) :
    separated separator [pieces] = pieces := rfl

@[simp] theorem separated_cons_cons (separator : String) (a b : Pieces) (rest : List Pieces) :
    separated separator (a :: b :: rest) = a ++ .text separator :: separated separator (b :: rest) := rfl

end Pieces

end SqlComposer.Compose
