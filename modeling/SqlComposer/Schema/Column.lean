import SqlComposer.Record.Field
import SqlComposer.Schema.Literal
import SqlComposer.Sql.Identifier
import SqlComposer.Text.Quoted

namespace SqlComposer.Schema

structure Column where
  name : String := ""
  dataType : String := ""
  sqlType : String := ""
  size : Nat := 0
  nullable : Bool := false
  defaultValue : Option String := none
  charset : Option String := none
  collation : Option String := none
  extra : String := ""
deriving DecidableEq, Repr

structure Config where
  charset : String := "utf8mb4"
  collation : String := "utf8mb4_unicode_ci"
  stringSize : Nat := 191
  timePrecision : Nat := 6
  engine : String := "INNODB"
deriving DecidableEq, Repr

inductive SchemaError
  | unsupportedType (path : String) (kind : Kind) (typeName : String)
  | invalidTag (path tag value : String)
deriving DecidableEq, Repr

def SchemaError.message : SchemaError → String
  | .unsupportedType path kind typeName =>
    "schema field " ++ path ++ ": unsupported type " ++ kind.name ++ " " ++ typeName
  | .invalidTag path tag value =>
    "schema field " ++ path ++ ": invalid " ++ tag ++ " tag value " ++ Text.quoted value

namespace Column

def hasLiteralDefault (column : Column) : Bool :=
  column.dataType == "VARCHAR" || column.dataType == "CHAR" || column.dataType == "ENUM"

def definition (column : Column) : String :=
  Sql.quote column.name ++ " " ++ column.sqlType ++
  (match column.charset with
    | none => ""
    | some charset => " CHARACTER SET " ++ charset) ++
  (match column.collation with
    | none => ""
    | some collation => " COLLATE " ++ collation) ++
  (if column.nullable then "" else " NOT NULL") ++
  (match column.defaultValue with
    | none => ""
    | some v => " DEFAULT " ++ (if column.hasLiteralDefault then literal v else v)) ++
  (if column.extra = "" then "" else " " ++ column.extra)

end Column

end SqlComposer.Schema
