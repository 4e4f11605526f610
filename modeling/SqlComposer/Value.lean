import SqlComposer.Calendar.DateTime
import SqlComposer.Json

namespace SqlComposer

inductive SqlValue
  | null
  | bool (b : Bool)
  | i64 (n : Int64)
  | u64 (n : UInt64)
  | f64 (x : Binary64)
  | string (text : String)
  | bytes (octets : List UInt8)
  | dateTime (time : DateTime)
  | date (date : Date)
  | json (document : Json)

inductive ValueKind
  | null | bool | i64 | u64 | f64 | string | bytes | dateTime | date | json
deriving DecidableEq, Repr

namespace ValueKind

def name : ValueKind → String
  | .null => "Null"
  | .bool => "Bool"
  | .i64 => "I64"
  | .u64 => "U64"
  | .f64 => "F64"
  | .string => "String"
  | .bytes => "Bytes"
  | .dateTime => "DateTime"
  | .date => "Date"
  | .json => "Json"

def all : List ValueKind :=
  [.null, .bool, .i64, .u64, .f64, .string, .bytes, .dateTime, .date, .json]

end ValueKind

namespace SqlValue

def kind : SqlValue → ValueKind
  | .null => .null
  | .bool _ => .bool
  | .i64 _ => .i64
  | .u64 _ => .u64
  | .f64 _ => .f64
  | .string _ => .string
  | .bytes _ => .bytes
  | .dateTime _ => .dateTime
  | .date _ => .date
  | .json _ => .json

def isNull : SqlValue → Bool
  | .null => true
  | _ => false

def ofOption (value : Option SqlValue) : SqlValue := value.getD .null

def same : SqlValue → SqlValue → Bool
  | .null, .null => true
  | .bool a, .bool b => a == b
  | .i64 a, .i64 b => a == b
  | .u64 a, .u64 b => a == b
  | .f64 a, .f64 b => a.same b
  | .string a, .string b => a == b
  | .bytes a, .bytes b => a == b
  | .dateTime a, .dateTime b => a.same b
  | .date a, .date b => a == b
  | .json a, .json b => a.same b
  | _, _ => false

end SqlValue

/-- What a placeholder stands for. A deferred argument yields its value, or a reason why it has none, when the
statement is built. -/
inductive Argument
  | value (value : SqlValue)
  | deferred (outcome : Except String SqlValue)

namespace Argument

def outcome : Argument → Except String SqlValue
  | .value v => .ok v
  | .deferred result => result

def same : Argument → Argument → Bool
  | .value a, .value b => a.same b
  | _, _ => false

end Argument

end SqlComposer
