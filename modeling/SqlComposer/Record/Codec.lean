import SqlComposer.Record.Tree
import SqlComposer.Text.Ascii

namespace SqlComposer

variable {n : Nat}

structure Codec (n : Nat) where
  record : Fin n
  typeName : String
  fields : List (Field n)
deriving DecidableEq, Repr

namespace Codec

def build (catalog : Catalog n) (naming : String → String) (record : Fin n) : Codec n :=
  { record, typeName := (catalog record).typeName, fields := fieldTree catalog naming record }

def fieldAt? (codec : Codec n) (index : List Nat) : Option (Field n) :=
  codec.fields.find? fun field => field.index == index

def parent? (codec : Codec n) (field : Field n) : Option (Field n) :=
  field.parent.bind fun place => codec.fields[place]?

def children (codec : Codec n) (field : Field n) : List (Field n) :=
  let place := codec.fields.findIdx fun other => other.index == field.index
  codec.fields.filter fun child => child.parent == some place

def ancestorsWithin (codec : Codec n) : Nat → Field n → List (Field n)
  | 0, _ => []
  | bound + 1, field => match codec.parent? field with
    | none => []
    | some parent => parent :: codec.ancestorsWithin bound parent

def ancestors (codec : Codec n) (field : Field n) : List (Field n) :=
  codec.ancestorsWithin field.depth field

def holders (codec : Codec n) (field : Field n) : List (Field n) :=
  (codec.ancestors field).filter fun ancestor => !ancestor.promotes

def columnAncestor? (codec : Codec n) (field : Field n) : Option (Field n) := (codec.holders field).head?

def columnRoot? (codec : Codec n) (field : Field n) : Option (Field n) := (codec.holders field).getLast?

/-- Adds a field to those that have won their names. It takes the name of one that `clashes` with it unless that
one stands less deep. -/
def contend (clashes : Field n → Field n → Bool) (winners : List (Field n)) (field : Field n) :
    List (Field n) :=
  match winners.find? (clashes field) with
  | none => winners ++ [field]
  | some winner =>
    if winner.depth < field.depth then winners else winners.erase winner ++ [field]

def winners (clashes : Field n → Field n → Bool) (fields : List (Field n)) : List (Field n) :=
  (fields.foldl (contend clashes) []).mergeSort fun a b => precedes a.index b.index

def samePath (a b : Field n) : Bool := a.path == b.path

def sameColumn (a b : Field n) : Bool := Text.sameName a.name b.name

def named (codec : Codec n) : List (Field n) := winners samePath (codec.fields.filter (·.isNamed))

def properties (codec : Codec n) : List (Field n) :=
  winners sameColumn (codec.fields.filter fun field =>
    field.isNamed && (codec.columnAncestor? field).isNone)

/-- The field with the path, and otherwise the first one whose path differs from it in case only. -/
def lookUp? (codec : Codec n) (path : String) : Option (Field n) :=
  let named := codec.named
  match named.find? fun field => field.path == path with
  | some field => some field
  | none => named.find? fun field => Text.sameName field.path path

end Codec

end SqlComposer
