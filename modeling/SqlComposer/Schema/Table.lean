import SqlComposer.Record.Codec
import SqlComposer.Schema.Builder
import SqlComposer.Schema.TableText

namespace SqlComposer.Schema

open Sql

variable {n : Nat}

structure Definition where
  name : String
  text : String
deriving DecidableEq, Repr

section Definitions

variable (builder : Builder n) (catalog : Catalog n) (codec : Codec n)

def plainDefinition (field : Field n) : Except SchemaError Definition := do
  let column ← builder.column catalog field
  return ⟨column.name, column.definition⟩

def generatedOption? (tag : Tag) : Option (String × String) :=
  match tag.lookUp? "stored_column", tag.lookUp? "virtual_column" with
  | some name, _ => some ("STORED", name)
  | none, some name => some ("VIRTUAL", name)
  | none, none => none

def documentPath (root field : Field n) : String :=
  match root.path.toList.isPrefixOf? field.path.toList with
  | some ('.' :: rest) => .ofList rest
  | _ => field.name

def generatedText (root field : Field n) (name sqlType storage : String) : String :=
  quote name ++ " " ++ sqlType ++ " AS (" ++ quote root.name ++ "->>" ++
    literal ("$." ++ documentPath root field) ++ ") " ++ storage

def generatedDefinition (field : Field n) : Except SchemaError (Option Definition) :=
  match generatedOption? field.tag, codec.columnRoot? field with
  | some (storage, given), some root => do
    let name := if given = "" then field.name else given
    let column ← builder.column catalog field
    return some ⟨name, generatedText root field name column.sqlType storage⟩
  | _, _ => return none

def generatedDefinitions : Except SchemaError (List Definition) :=
  codec.fields.filterMapM (generatedDefinition builder catalog codec)

def definitions : Except SchemaError (List Definition) := do
  return (← codec.properties.mapM (plainDefinition builder catalog)) ++
    (← generatedDefinitions builder catalog codec)

end Definitions

def primaryKey (given : Option String) (codec : Codec n) : List String :=
  match given.filter (· != "") with
  | some name => [name]
  | none => (codec.properties.filter fun field => field.tag.has "primary_key").map (·.name)

def quotedList (names : List String) : String := Text.joined "," (names.map quote)

def uniqueIndex? (field : Field n) : Option String :=
  (field.tag.lookUp? "unique_index").map fun given =>
    "UNIQUE INDEX " ++ quote (if given = "" then "UX_" ++ field.name else given) ++
      " (" ++ quote field.name ++ ")"

def createTable (builder : Builder n) (catalog : Catalog n) (codec : Codec n) (database table : String)
    (key : Option String) : Except SchemaError String := do
  let columns ← definitions builder catalog codec
  let keyColumns := primaryKey key codec
  let text : TableText :=
    { table := quoteTable database table
      definitions := columns.map (·.text) ++
        (if keyColumns.isEmpty then [] else ["PRIMARY KEY (" ++ quotedList keyColumns ++ ")"]) ++
        codec.properties.filterMap uniqueIndex?
      options := ["ENGINE=" ++ builder.config.engine, "DEFAULT CHARSET=" ++ builder.config.charset,
        "COLLATE=" ++ builder.config.collation] }
  return text.render

inductive Change
  | modify (definition : Definition)
  | add (definition : Definition) (after : Option String)
deriving DecidableEq, Repr

def changes (existing : List String) (before : Option String) : List Definition → List Change
  | [] => []
  | definition :: rest =>
    (if existing.any (Text.sameName · definition.name) then .modify definition else .add definition before) ::
      changes existing (some definition.name) rest

def Change.text : Change → String
  | .modify definition => "MODIFY " ++ definition.text
  | .add definition none => "ADD " ++ definition.text ++ " FIRST"
  | .add definition (some name) => "ADD " ++ definition.text ++ " AFTER " ++ quote name

def alterTable (builder : Builder n) (catalog : Catalog n) (codec : Codec n) (database table : String)
    (key : Option String) (hasKey : Bool) (existing : List String) : Except SchemaError String := do
  let columns ← definitions builder catalog codec
  let keyColumns := primaryKey key codec
  let clauses := (changes existing none columns).map Change.text ++
    (if hasKey || keyColumns.isEmpty then [] else ["ADD PRIMARY KEY (" ++ quotedList keyColumns ++ ")"])
  return "ALTER TABLE " ++ quoteTable database table ++ " " ++ Text.joined ", " clauses

end SqlComposer.Schema
