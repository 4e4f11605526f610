import SqlComposer.Schema.Category
import SqlComposer.Schema.Column
import SqlComposer.Text.Joined
import SqlComposer.Text.Split

namespace SqlComposer.Schema

variable {n : Nat}

abbrev Rule (n : Nat) := Config → Field n → Except SchemaError Column

def maxTimePrecision : Nat := 6

def sizeLimit : Nat := UInt64.size

def sizeOption (field : Field n) (otherwise : Nat) : Nat :=
  ((field.tag.lookUp? "size").bind (Text.readUnsigned? sizeLimit)).getD otherwise

def plainColumn (field : Field n) : Column := { name := field.name, nullable := field.nullable }

def defaultUnlessNullable (field : Field n) (v : String) : Option String :=
  if field.nullable then none else some v

def alternatives (raw : String) : List String :=
  ((Text.parts '|' raw.toList).map fun part => String.ofList (Text.trimmed part)).filter (· != "")

def nonEmptyOption (field : Field n) (key : String) : Option String :=
  (field.tag.lookUp? key).filter (· != "")

/-- An enumeration is kept in a narrow character set unless its tag asks for another. Its first alternative is
the default, whether or not the column may be NULL. -/
def enumColumn (config : Config) (field : Field n) (raw : String) : Except SchemaError Column :=
  let charset := nonEmptyOption field "charset"
  let collation := nonEmptyOption field "collate"
  match alternatives raw with
  | [] => .error (.invalidTag field.path "enum" raw)
  | first :: rest => .ok
    { plainColumn field with
      dataType := "ENUM"
      sqlType := "ENUM(" ++ Text.joined "," ((first :: rest).map literal) ++ ")"
      defaultValue := some first
      charset := some (charset.getD "latin1")
      collation := some (collation.getD
        (if charset.isNone then "latin1_swedish_ci" else config.collation)) }

def sizedTextColumn (config : Config) (field : Field n) (dataType : String) (size : Nat) : Column :=
  { plainColumn field with
    dataType
    sqlType := dataType ++ "(" ++ toString size ++ ")"
    size
    defaultValue := defaultUnlessNullable field ""
    charset := some ((nonEmptyOption field "charset").getD config.charset)
    collation := some ((nonEmptyOption field "collate").getD config.collation) }

def charColumn (config : Config) (field : Field n) (raw : String) : Except SchemaError Column :=
  match Text.readUnsigned? sizeLimit raw with
  | none => .error (.invalidTag field.path "char" raw)
  | some size => .ok (sizedTextColumn config field "CHAR" size)

def stringColumn : Rule n := fun config field =>
  match field.tag.lookUp? "enum", field.tag.lookUp? "char" with
  | some raw, _ => enumColumn config field raw
  | none, some raw => charColumn config field raw
  | none, none =>
    if field.tag.has "longtext" then .ok { plainColumn field with dataType := "TEXT", sqlType := "TEXT" }
    else .ok (sizedTextColumn config field "VARCHAR" (sizeOption field config.stringSize))

def boolColumn : Rule n := fun _ field => .ok
  { plainColumn field with
    dataType := "TINYINT"
    sqlType := "TINYINT(1)"
    size := 1
    defaultValue := defaultUnlessNullable field "0" }

def integerType (type : Ty n) : String :=
  match type.base.kind with
  | .int8 | .uint8 => "TINYINT"
  | .int16 | .uint16 => "SMALLINT"
  | .int32 | .uint32 => "INT"
  | _ => "BIGINT"

def integerColumn (field : Field n) (isUnsigned : Bool) : Column :=
  let dataType := integerType field.type
  let counts := field.tag.has "auto_increment"
  { plainColumn field with
    dataType
    sqlType := if isUnsigned then dataType ++ " UNSIGNED" else dataType
    defaultValue := if counts then none else defaultUnlessNullable field "0"
    extra := if counts then "AUTO_INCREMENT" else "" }

def intColumn : Rule n := fun _ field => .ok (integerColumn field (field.tag.has "unsigned"))

def uintColumn : Rule n := fun _ field => .ok (integerColumn field true)

def floatColumn : Rule n := fun _ field => .ok
  { plainColumn field with
    dataType := "REAL"
    sqlType := if field.tag.has "unsigned" then "REAL UNSIGNED" else "REAL"
    defaultValue := defaultUnlessNullable field "0" }

def dateTimeColumn : Rule n := fun config field =>
  let size := min (sizeOption field config.timePrecision) maxTimePrecision
  let precision := if 0 < size then "(" ++ toString size ++ ")" else ""
  .ok { plainColumn field with
    dataType := "DATETIME"
    sqlType := "DATETIME" ++ precision
    size
    defaultValue := defaultUnlessNullable field ("CURRENT_TIMESTAMP" ++ precision) }

def dateColumn : Rule n := fun _ field => .ok
  { plainColumn field with
    dataType := "DATE"
    sqlType := "DATE"
    defaultValue := defaultUnlessNullable field "(CURRENT_DATE)" }

def bareColumn (dataType : String) : Rule n := fun _ field => .ok
  { plainColumn field with dataType, sqlType := dataType }

def spatialColumn (dataType : String) : Rule n := fun _ field =>
  let system := (field.tag.lookUp? "srid").bind (Text.readUnsigned? UInt32.size)
  .ok { plainColumn field with
    dataType
    sqlType := dataType
    extra := match system with
      | some number => "SRID " ++ toString number
      | none => "" }

def mysqlRule : Category → Rule n
  | .string => stringColumn
  | .bool => boolColumn
  | .int => intColumn
  | .uint => uintColumn
  | .float => floatColumn
  | .dateTime => dateTimeColumn
  | .date => dateColumn
  | .bytes => bareColumn "MEDIUMBLOB"
  | .json => bareColumn "JSON"
  | .point => spatialColumn "POINT"
  | .lineString => spatialColumn "LINESTRING"
  | .polygon => spatialColumn "POLYGON"
  | .multiPoint => spatialColumn "MULTIPOINT"
  | .multiLineString => spatialColumn "MULTILINESTRING"
  | .multiPolygon => spatialColumn "MULTIPOLYGON"

end SqlComposer.Schema
