
namespace SqlComposer

inductive Kind
  | bool | int | int8 | int16 | int32 | int64 | uint | uint8 | uint16 | uint32 | uint64
  | float32 | float64 | string | record | list | array | map | option | dynamic
deriving DecidableEq, Repr

namespace Kind

def name : Kind → String
  | .bool => "Bool"
  | .int => "Int"
  | .int8 => "Int8"
  | .int16 => "Int16"
  | .int32 => "Int32"
  | .int64 => "Int64"
  | .uint => "Uint"
  | .uint8 => "Uint8"
  | .uint16 => "Uint16"
  | .uint32 => "Uint32"
  | .uint64 => "Uint64"
  | .float32 => "Float32"
  | .float64 => "Float64"
  | .string => "String"
  | .record => "Struct"
  | .list => "Slice"
  | .array => "Array"
  | .map => "Map"
  | .option => "Ptr"
  | .dynamic => "Interface"

def all : List Kind :=
  [.bool, .int, .int8, .int16, .int32, .int64, .uint, .uint8, .uint16, .uint32, .uint64, .float32, .float64,
   .string, .record, .list, .array, .map, .option, .dynamic]

def isNullable : Kind → Bool
  | .option | .list | .map | .dynamic => true
  | _ => false

def isSigned : Kind → Bool
  | .int | .int8 | .int16 | .int32 | .int64 => true
  | _ => false

def isUnsigned : Kind → Bool
  | .uint | .uint8 | .uint16 | .uint32 | .uint64 => true
  | _ => false

end Kind

inductive Width
  | w8 | w16 | w32 | w64 | word
deriving DecidableEq, Repr

inductive Scalar
  | bool
  | signed (width : Width)
  | unsigned (width : Width)
  | float32
  | float64
  | string
deriving DecidableEq, Repr

namespace Scalar

def kind : Scalar → Kind
  | .bool => .bool
  | .signed .w8 => .int8
  | .signed .w16 => .int16
  | .signed .w32 => .int32
  | .signed .w64 => .int64
  | .signed .word => .int
  | .unsigned .w8 => .uint8
  | .unsigned .w16 => .uint16
  | .unsigned .w32 => .uint32
  | .unsigned .w64 => .uint64
  | .unsigned .word => .uint
  | .float32 => .float32
  | .float64 => .float64
  | .string => .string

def name : Scalar → String
  | .bool => "bool"
  | .signed .w8 => "i8"
  | .signed .w16 => "i16"
  | .signed .w32 => "i32"
  | .signed .w64 => "i64"
  | .signed .word => "isize"
  | .unsigned .w8 => "u8"
  | .unsigned .w16 => "u16"
  | .unsigned .w32 => "u32"
  | .unsigned .w64 => "u64"
  | .unsigned .word => "usize"
  | .float32 => "f32"
  | .float64 => "f64"
  | .string => "alloc::string::String"

end Scalar

end SqlComposer
