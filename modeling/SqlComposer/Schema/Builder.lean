import SqlComposer.Schema.Rules

namespace SqlComposer.Schema

variable {n : Nat}

structure Builder (n : Nat) where
  config : Config := {}
  names : List (String × Category) := []
  rule? : Category → Option (Rule n) := fun _ => none

namespace Builder

def mysql (config : Config) : Builder n :=
  { config, names := Category.mysqlNames, rule? := fun category => some (mysqlRule category) }

def withName (builder : Builder n) (name : String) (category : Category) : Builder n :=
  { builder with names := (name, category) :: builder.names }

def withRule (builder : Builder n) (category : Category) (rule : Rule n) : Builder n :=
  { builder with rule? := fun other => if other = category then some rule else builder.rule? other }

def category? (builder : Builder n) (catalog : Catalog n) (type : Ty n) : Option Category :=
  Category.lookUp? builder.names catalog type

def column (builder : Builder n) (catalog : Catalog n) (field : Field n) : Except SchemaError Column :=
  match (builder.category? catalog field.type).bind builder.rule? with
  | some rule => rule builder.config field
  | none => .error
    (.unsupportedType field.path field.type.base.kind (field.type.base.name catalog))

end Builder

end SqlComposer.Schema
