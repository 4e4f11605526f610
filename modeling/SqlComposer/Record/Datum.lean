import SqlComposer.Record.Field
import SqlComposer.Value

namespace SqlComposer

inductive Datum
  | bool (b : Bool)
  | signed (i : Int64)
  | unsigned (u : UInt64)
  | float (x : Binary64)
  | string (text : String)
  | json (document : Json)
  | dateTime (time : DateTime)
  | date (date : Date)
  | absent
  | present (inner : Datum)
  | list (items : List Datum)
  | map (entries : List (String × Datum))
  | record (values : List Datum)
deriving Inhabited

variable {n : Nat}

def Ty.held (type : Ty n) : Ty n := type.item?.getD type

def Ty.declsOf (catalog : Catalog n) (type : Ty n) : List (FieldDecl n) :=
  match type.record? with
  | some id => (catalog id).fields
  | none => []

/-- Adds a field to a record's document. The entries of an embedded document are taken over one by one where
their keys are still free; any other value stands under the field's own key. -/
def FieldDecl.addTo (decl : FieldDecl n) (document : Json) (entries : List (String × Json)) :
    List (String × Json) :=
  let name := decl.parsedTag.name
  if !decl.isKept then entries
  else match decl.embedded && name == "", document with
    | true, .object inner => inner.foldl (fun entries (key, value) => Json.putNew key value entries) entries
    | _, _ => Json.put (if name = "" then decl.name else name) document entries

namespace Datum

section Documents

variable (catalog : Catalog n)

mutual

def toJson : Ty n → Datum → Json
  | _, .bool b => .bool b
  | _, .signed i => .int i.toInt
  | _, .unsigned u => .int u.toNat
  | _, .float x => .ofBinary64 x
  | _, .string text => .string text
  | _, .json document => document
  | _, .dateTime time => match time.rfc3339? with
    | some text => .string text
    | none => .null
  | _, .date d => .string d.text
  | _, .absent => .null
  | type, .present inner => toJson type.held inner
  | type, .list items => .array (itemsJson type.held items)
  | type, .map entries => .ofEntries (entriesJson type.held entries)
  | type, .record values => .object (recordJson (type.declsOf catalog) values [])

def itemsJson : Ty n → List Datum → List Json
  | _, [] => []
  | type, item :: items => toJson type item :: itemsJson type items

def entriesJson : Ty n → List (String × Datum) → List (String × Json)
  | _, [] => []
  | type, entry :: entries => entryJson type entry :: entriesJson type entries

def entryJson : Ty n → String × Datum → String × Json
  | type, (key, value) => (key, toJson type value)

def recordJson : List (FieldDecl n) → List Datum → List (String × Json) → List (String × Json)
  | decl :: decls, value :: values, entries =>
    recordJson decls values (decl.addTo (toJson decl.type value) entries)
  | _, _, entries => entries

end

end Documents

def isByteList (type : Ty n) : Bool := type.kind == .list && type.held.kind == .uint8

def octet? : Datum → Option UInt8
  | .unsigned u => if u.toNat < 256 then some u.toUInt8 else none
  | _ => none

def encode (catalog : Catalog n) : Ty n → Datum → SqlValue
  | _, .bool b => .bool b
  | _, .signed i => .i64 i
  | _, .unsigned u => .u64 u
  | _, .float x => .f64 x
  | _, .string text => .string text
  | _, .json document => .json document
  | _, .dateTime time => .dateTime time
  | _, .date d => .date d
  | _, .absent => .null
  | type, .present inner => encode catalog type.held inner
  | type, .list items =>
    if isByteList type then .bytes (items.filterMap octet?)
    else .json (toJson catalog type (.list items))
  | type, .map entries => .json (toJson catalog type (.map entries))
  | type, .record values => .json (toJson catalog type (.record values))

section Positions

variable (catalog : Catalog n)

mutual

/-- The value at a position: NULL below an absent option, and none where no field is declared. -/
def valueAt : Ty n → Datum → List Nat → Option SqlValue
  | _, .absent, _ => some .null
  | type, .present inner, index => valueAt type.held inner index
  | type, .record values, position :: index => valueBelow (type.declsOf catalog) values position index
  | type, value, [] => some (encode catalog type value)
  | _, _, _ :: _ => none

def valueBelow : List (FieldDecl n) → List Datum → Nat → List Nat → Option SqlValue
  | decl :: _, value :: _, 0, index => valueAt decl.type value index
  | _ :: decls, _ :: values, position + 1, index => valueBelow decls values position index
  | _, _, _, _ => none

end

end Positions

def columnValues (catalog : Catalog n) (properties : List (Field n)) (type : Ty n) (value : Datum) :
    List SqlValue :=
  properties.map fun field => .ofOption (valueAt catalog type value field.index)

end Datum

end SqlComposer
