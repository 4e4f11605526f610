import SqlComposer.Compose.Error
import SqlComposer.Json.Compact

namespace SqlComposer.Compose

abbrev Encoder := SqlValue → Except BuildError SqlValue

def encodeBool : Encoder
  | .bool b => .ok (.i64 (if b then 1 else 0))
  | v => .ok v

def encodeDateTime : Encoder
  | .dateTime time => match time.utcText? with
    | some text => .ok (.string text)
    | none => .error .outOfCalendar
  | v => .ok v

def encodeDate : Encoder
  | .date date => .ok (.string date.text)
  | v => .ok v

def encodeJson : Encoder
  | .json document => .ok (.string document.compact)
  | v => .ok v

def mysqlEncoder : ValueKind → Encoder
  | .bool => encodeBool
  | .dateTime => encodeDateTime
  | .date => encodeDate
  | .json => encodeJson
  | .null | .i64 | .u64 | .f64 | .string | .bytes => .ok

end SqlComposer.Compose
