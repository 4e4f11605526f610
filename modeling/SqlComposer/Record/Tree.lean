import SqlComposer.Record.Field
/-!
The tree of fields below a record type.

The tree grows in rounds, one level in each. A record type is entered once on every way down, so that after as
many rounds as there are record types nothing is left to enter. In the end the fields are put in the order of
their indices, in which every field comes right before the fields below it.
-/

namespace SqlComposer

variable {n : Nat}

structure Site (n : Nat) where
  record : Fin n
  parent : Option Nat := none
  index : List Nat := []
  stem : String := ""
  nullable : Bool := false
  chain : List (Fin n)
deriving DecidableEq, Repr

namespace Site

def root (record : Fin n) : Site n := { record, chain := [record] }

variable (naming : String → String)

def field (site : Site n) (position : Nat) (decl : FieldDecl n) : Field n :=
  let tag := decl.parsedTag
  let name := if tag.name = "" then naming decl.name else tag.name
  { name
    path := if site.stem = "" then name else site.stem ++ "." ++ name
    type := decl.type
    index := site.index ++ [position]
    tag
    nullable := site.nullable || decl.type.kind.isNullable
    embedded := decl.embedded && decl.type.base.record?.isSome
    parent := site.parent }

def fields (catalog : Catalog n) (site : Site n) : List (Field n) :=
  ((catalog site.record).fields.zipIdx.filter fun entry => entry.1.isKept).map fun entry =>
    site.field naming entry.2 entry.1

def below? (site : Site n) (field : Field n) (number : Nat) : Option (Site n) :=
  match field.type.base.record? with
  | none => none
  | some record =>
    if record ∈ site.chain then none
    else some
      { record
        parent := some number
        index := field.index
        stem := if field.promotes then site.stem else field.path
        nullable := field.nullable
        chain := record :: site.chain }

end Site

section Growth

variable (catalog : Catalog n) (naming : String → String)

def level (sites : List (Site n)) : List (Site n × Field n) :=
  sites.flatMap fun site => (site.fields naming catalog).map (site, ·)

def nextSites (start : Nat) (found : List (Site n × Field n)) : List (Site n) :=
  (found.zipIdx start).filterMap fun ((site, field), number) => site.below? field number

def grow : (rounds : Nat) → (start : Nat) → List (Site n) → List (Field n)
  | 0, _, _ => []
  | rounds + 1, start, sites =>
    let found := level catalog naming sites
    found.map (·.2) ++ grow rounds (start + found.length) (nextSites start found)

def inOrder (fields : List (Field n)) : List (Field n) :=
  let sorted := fields.zipIdx.mergeSort fun a b => precedes a.1.index b.1.index
  let place (number : Nat) := sorted.findIdx fun entry => entry.2 == number
  sorted.map fun (field, _) => { field with parent := field.parent.map place }

def fieldTree (record : Fin n) : List (Field n) := inOrder (grow catalog naming n 0 [.root record])

end Growth

end SqlComposer
