import SqlComposer.Record.Kind
/-!
Types of records and of their fields.

A catalog declares `n` record types; types refer to them by number, so that record types may refer to
themselves and to each other. A box changes nothing about the type it holds.
-/

namespace SqlComposer

inductive Ty (n : Nat)
  | scalar (scalar : Scalar)
  | named (name : String) (kind : Kind)
  | record (id : Fin n)
  | option (inner : Ty n)
  | boxed (inner : Ty n)
  | list (item : Ty n)
  | array (item : Ty n) (size : Nat)
  | map (key value : Ty n)
deriving DecidableEq, Repr

structure FieldDecl (n : Nat) where
  name : String
  tag : String := ""
  type : Ty n
  embedded : Bool := false
  exported : Bool := true
deriving DecidableEq, Repr

structure RecordDecl (n : Nat) where
  typeName : String
  fields : List (FieldDecl n)
deriving DecidableEq, Repr

abbrev Catalog (n : Nat) := Fin n → RecordDecl n

variable {n : Nat}

namespace Ty

def json : Ty n := .named "serde_json::Value" .dynamic

def dateTime : Ty n := .named "time::OffsetDateTime" .record

def plainDateTime : Ty n := .named "time::PrimitiveDateTime" .record

def date : Ty n := .named "time::Date" .record

def kind : Ty n → Kind
  | .scalar s => s.kind
  | .named _ k => k
  | .record _ => .record
  | .option _ => .option
  | .boxed inner => inner.kind
  | .list _ => .list
  | .array _ _ => .array
  | .map _ _ => .map

def name (catalog : Catalog n) : Ty n → String
  | .scalar s => s.name
  | .named title _ => title
  | .record id => (catalog id).typeName
  | .boxed inner => inner.name catalog
  | _ => ""

def item? : Ty n → Option (Ty n)
  | .option inner => some inner
  | .list item => some item
  | .array item _ => some item
  | .map _ value => some value
  | .boxed inner => inner.item?
  | _ => none

def key? : Ty n → Option (Ty n)
  | .map key _ => some key
  | .boxed inner => inner.key?
  | _ => none

def size : Ty n → Nat
  | .array _ size => size
  | .boxed inner => inner.size
  | _ => 0

def record? : Ty n → Option (Fin n)
  | .record id => some id
  | .boxed inner => inner.record?
  | _ => none

def base : Ty n → Ty n
  | .option inner => inner.base
  | .boxed inner => inner.base
  | type => type

def hasIdentity : Ty n → Bool
  | .scalar _ | .record _ => true
  | .boxed inner => inner.hasIdentity
  | _ => false

def unboxed : Ty n → Ty n
  | .boxed inner => inner.unboxed
  | type => type

def sameAs (a b : Ty n) : Bool := a.hasIdentity && a.unboxed == b.unboxed

@[simp] theorem base_option (inner : Ty n) : (option inner).base = inner.base := rfl

@[simp] theorem base_boxed (inner : Ty n) : (boxed inner).base = inner.base := rfl

@[simp] theorem kind_boxed (inner : Ty n) : (boxed inner).kind = inner.kind := rfl

@[simp] theorem record?_boxed (inner : Ty n) : (boxed inner).record? = inner.record? := rfl

@[simp] theorem base_base (type : Ty n) : type.base.base = type.base := by
  induction type <;> simp_all [base]

end Ty

end SqlComposer
