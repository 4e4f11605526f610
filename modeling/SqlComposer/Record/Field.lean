import SqlComposer.Record.Tag
import SqlComposer.Record.Type

namespace SqlComposer

/-- A field in the tree of a record type. The index lists the positions that lead to it from the root; the
parent is given by its place in the list of all fields. -/
structure Field (n : Nat) where
  name : String
  path : String
  type : Ty n
  index : List Nat
  tag : Tag
  nullable : Bool
  embedded : Bool
  parent : Option Nat
deriving DecidableEq, Repr

variable {n : Nat}

def FieldDecl.parsedTag (decl : FieldDecl n) : Tag := .parse decl.tag

def FieldDecl.isKept (decl : FieldDecl n) : Bool :=
  (decl.exported || decl.embedded) && decl.parsedTag.name != "-"

def precedes : List Nat → List Nat → Bool
  | [], _ => true
  | _ :: _, [] => false
  | i :: is, j :: js => i < j || i == j && precedes is js

theorem precedes_total (a b : List Nat) : precedes a b || precedes b a := by
  induction a generalizing b with
  | nil => simp [precedes]
  | cons i is ih => cases b with
    | nil => simp [precedes]
    | cons j js =>
      have rest := ih js
      rcases Nat.lt_trichotomy i j with less | equal | greater <;> simp_all [precedes]

theorem precedes_trans {a b c : List Nat} (ab : precedes a b = true) (bc : precedes b c = true) :
    precedes a c = true := by
  induction a generalizing b c with
  | nil => simp [precedes]
  | cons i is ih => cases b with
    | nil => simp [precedes] at ab
    | cons j js => cases c with
      | nil => simp [precedes] at bc
      | cons k ks =>
        simp only [precedes, Bool.or_eq_true, Bool.and_eq_true, decide_eq_true_eq, beq_iff_eq] at *
        rcases ab with ab | ⟨rfl, ab⟩
        · rcases bc with bc | ⟨rfl, _⟩
          · exact .inl (Nat.lt_trans ab bc)
          · exact .inl ab
        · rcases bc with bc | ⟨rfl, bc⟩
          · exact .inl bc
          · exact .inr ⟨rfl, ih ab bc⟩

namespace Field

/-- An embedded record without a name of its own: its fields count as fields of the record around it. -/
def promotes (field : Field n) : Bool := field.embedded && field.tag.name == ""

def isNamed (field : Field n) : Bool := field.name != "" && !field.promotes

def depth (field : Field n) : Nat := field.index.length

end Field

end SqlComposer
