import SqlComposer.Record.Type

namespace SqlComposer.Schema

inductive Category
  | string | bool | int | uint | float | dateTime | date | bytes | json
  | point | lineString | polygon | multiPoint | multiLineString | multiPolygon
deriving DecidableEq, Repr

namespace Category

def name : Category → String
  | .string => "String"
  | .bool => "Bool"
  | .int => "Int"
  | .uint => "Uint"
  | .float => "Float"
  | .dateTime => "DateTime"
  | .date => "Date"
  | .bytes => "Bytes"
  | .json => "Json"
  | .point => "Point"
  | .lineString => "LineString"
  | .polygon => "Polygon"
  | .multiPoint => "MultiPoint"
  | .multiLineString => "MultiLineString"
  | .multiPolygon => "MultiPolygon"

def all : List Category :=
  [.string, .bool, .int, .uint, .float, .dateTime, .date, .bytes, .json, .point, .lineString, .polygon,
   .multiPoint, .multiLineString, .multiPolygon]

variable {n : Nat}

def ofKind? (type : Ty n) : Option Category :=
  match type.kind with
  | .string => some .string
  | .bool => some .bool
  | .int | .int8 | .int16 | .int32 | .int64 => some .int
  | .uint | .uint8 | .uint16 | .uint32 | .uint64 => some .uint
  | .float32 | .float64 => some .float
  | .list => if type.item?.any fun item => item.kind == .uint8 then some .bytes else some .json
  | .array | .map | .record | .dynamic => some .json
  | .option => none

def lookUp? (names : List (String × Category)) (catalog : Catalog n) (type : Ty n) : Option Category :=
  match names.lookup (type.base.name catalog) with
  | some category => some category
  | none => ofKind? type.base

def mysqlNames : List (String × Category) :=
  [("time::OffsetDateTime", .dateTime), ("time::PrimitiveDateTime", .dateTime), ("time::Date", .date),
   ("serde_json::Value", .json), ("spatial.Point", .point), ("spatial.LineString", .lineString),
   ("spatial.Polygon", .polygon), ("spatial.MultiPoint", .multiPoint),
   ("spatial.MultiLineString", .multiLineString), ("spatial.MultiPolygon", .multiPolygon)]

end Category

end SqlComposer.Schema
