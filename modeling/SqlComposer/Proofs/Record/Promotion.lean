import SqlComposer.Proofs.Record.Columns
import SqlComposer.Proofs.Record.Routes
/-!
Fields that count as fields of the record itself: its own, and those of the promoting records in it.

However often a record type holds itself, the fields that count as its own come by the names of those that are
reached without entering any record type twice.
-/

namespace SqlComposer

variable {n : Nat} {catalog : Catalog n}

/-- The field is reached through promoting fields only, and is none itself. -/
inductive Promoted (catalog : Catalog n) : List (Fin n) → Fin n → List Nat → FieldDecl n → Prop
  | here {chain record position decl} : (catalog record).fields[position]? = some decl → decl.isKept = true →
      decl.promotes = false → Promoted catalog chain record [position] decl
  | deeper {chain record position decl inner rest target} : (catalog record).fields[position]? = some decl →
      decl.isKept = true → decl.promotes = true → decl.type.base.record? = some inner → inner ∉ chain →
      Promoted catalog (inner :: chain) inner rest target → Promoted catalog chain record (position :: rest) target

section Promoted

variable {chain : List (Fin n)} {record : Fin n} {index : List Nat} {decl : FieldDecl n}

theorem Promoted.occurs (promoted : Promoted catalog chain record index decl) :
    Occurs catalog chain record index decl := by
  induction promoted with
  | here declared kept _ => exact .here declared kept
  | deeper declared kept _ leads free _ ih => exact .deeper declared kept leads free ih

theorem Promoted.own (promoted : Promoted catalog chain record index decl) : decl.promotes = false := by
  induction promoted with
  | here _ _ own => exact own
  | deeper _ _ _ _ _ _ ih => exact ih

theorem Promoted.above (promoted : Promoted catalog chain record index decl) {stem : List Nat}
    {ancestor : FieldDecl n} (occurs : Occurs catalog chain record stem ancestor) (starts : stem <+: index)
    (different : stem ≠ index) : ancestor.promotes = true := by
  induction promoted generalizing stem with
  | here declared _ _ =>
    rcases List.prefix_cons_iff.mp starts with rfl | ⟨rest, rfl, below⟩
    · exact absurd rfl occurs.ne_nil
    · exact absurd (congrArg _ (List.prefix_nil.mp below)) different
  | deeper declared _ promoting leads _ promoted ih =>
    rcases List.prefix_cons_iff.mp starts with rfl | ⟨rest, rfl, startsBelow⟩
    · exact absurd rfl occurs.ne_nil
    · by_cases proper : rest = []
      · obtain rfl := proper
        obtain rfl := Option.some.inj ((occurs_singleton_iff.mp occurs).1.symm.trans declared)
        exact promoting
      · obtain ⟨_, _, declaredToo, _, leadsToo, _, below⟩ := (occurs_cons_iff proper).mp occurs
        obtain rfl := Option.some.inj (declared.symm.trans declaredToo)
        obtain rfl := Option.some.inj (leads.symm.trans leadsToo)
        exact ih below startsBelow fun same => different (congrArg _ same)

theorem promoted_of_above (occurs : Occurs catalog chain record index decl) (own : decl.promotes = false)
    (above : ∀ stem ancestor, Occurs catalog chain record stem ancestor → stem <+: index → stem ≠ index →
      ancestor.promotes = true) : Promoted catalog chain record index decl := by
  induction occurs with
  | here declared kept => exact .here declared kept own
  | deeper declared kept leads free occurs ih =>
    refine .deeper declared kept ?_ leads free (ih own fun stem ancestor below starts different => ?_)
    · exact above _ _ (.here declared kept) (List.cons_prefix_cons.mpr ⟨rfl, List.nil_prefix⟩)
        (by simpa using occurs.ne_nil.symm)
    · exact above _ _ (.deeper declared kept leads free below) (List.cons_prefix_cons.mpr ⟨rfl, starts⟩)
        (by simpa using different)

end Promoted

inductive Enters (catalog : Catalog n) : List (Fin n) → Fin n → List Nat → Fin n → List (Fin n) → Prop
  | here {chain record} : Enters catalog chain record [] record chain
  | deeper {chain record position decl inner rest target ends} :
      (catalog record).fields[position]? = some decl → decl.isKept = true → decl.promotes = true →
      decl.type.base.record? = some inner → inner ∉ chain → Enters catalog (inner :: chain) inner rest target ends →
      Enters catalog chain record (position :: rest) target ends

section Enters

variable {chain ends : List (Fin n)} {record target : Fin n} {stem : List Nat}

theorem Enters.promoted (enters : Enters catalog chain record stem target ends) {position : Nat}
    {decl : FieldDecl n} (declared : (catalog target).fields[position]? = some decl) (kept : decl.isKept = true)
    (own : decl.promotes = false) : Promoted catalog chain record (stem ++ [position]) decl := by
  induction enters with
  | here => exact .here declared kept own
  | deeper above keptAbove promoting leads free _ ih =>
    exact .deeper above keptAbove promoting leads free (ih declared)

theorem Enters.step (enters : Enters catalog chain record stem target ends) {position : Nat} {decl : FieldDecl n}
    {inner : Fin n} (declared : (catalog target).fields[position]? = some decl) (kept : decl.isKept = true)
    (promoting : decl.promotes = true) (leads : decl.type.base.record? = some inner) (free : inner ∉ ends) :
    Enters catalog chain record (stem ++ [position]) inner (inner :: ends) := by
  induction enters with
  | here => exact .deeper declared kept promoting leads free .here
  | deeper above keptAbove promotingAbove leadsAbove freeAbove _ ih =>
    exact .deeper above keptAbove promotingAbove leadsAbove freeAbove (ih declared free)

theorem Enters.of_mem (enters : Enters catalog chain record stem target ends) {other : Fin n}
    (member : other ∈ ends) : other ∈ chain ∨ ∃ stem ends, Enters catalog chain record stem other ends := by
  induction enters with
  | here => exact .inl member
  | deeper declared kept promoting leads free _ ih =>
    rcases ih member with inside | ⟨stem, ends, enters⟩
    · rcases List.mem_cons.mp inside with rfl | outside
      · exact .inr ⟨_, _, .deeper declared kept promoting leads free .here⟩
      · exact .inl outside
    · exact .inr ⟨_, _, .deeper declared kept promoting leads free enters⟩

end Enters

def Entered (catalog : Catalog n) (root record : Fin n) : Prop :=
  ∃ stem ends, Enters catalog [root] root stem record ends

theorem entered_root (root : Fin n) : Entered catalog root root := ⟨_, _, .here⟩

theorem Entered.step {root record inner : Fin n} (entered : Entered catalog root record) {position : Nat}
    {decl : FieldDecl n} (declared : (catalog record).fields[position]? = some decl) (kept : decl.isKept = true)
    (promoting : decl.promotes = true) (leads : decl.type.base.record? = some inner) :
    Entered catalog root inner := by
  obtain ⟨stem, ends, enters⟩ := entered
  -- If the way has come by the record type already, the part of it that ends there will do.
  by_cases seen : inner ∈ ends
  · rcases enters.of_mem seen with first | before
    · obtain rfl := List.mem_singleton.mp first
      exact entered_root inner
    · exact before
  · exact ⟨_, _, enters.step declared kept promoting leads seen⟩

namespace Codec

variable {naming : String → String} {record : Fin n} {field : Field n}

theorem exists_mem_of_entered (naming : String → String) {target : Fin n} (entered : Entered catalog record target)
    {position : Nat} {decl : FieldDecl n} (declared : (catalog target).fields[position]? = some decl)
    (kept : decl.isKept = true) (own : decl.promotes = false) :
    ∃ field ∈ (build catalog naming record).fields, field.name = decl.nameBy naming ∧ field.promotes = false := by
  obtain ⟨stem, _, enters⟩ := entered
  obtain ⟨field, member, _, name, _, promotes⟩ :=
    exists_mem_of_occurs naming (enters.promoted declared kept own).occurs
  exact ⟨field, member, name, promotes.trans own⟩

theorem exists_promoted (member : field ∈ (build catalog naming record).fields) (own : field.promotes = false)
    (outermost : ∀ ancestor ∈ (build catalog naming record).fields, ancestor.index <+: field.index →
      ancestor.index ≠ field.index → ancestor.promotes = true) :
    ∃ decl, Promoted catalog [record] record field.index decl ∧ field.name = decl.nameBy naming ∧
      field.type = decl.type := by
  obtain ⟨decl, occurs, name, type, promotes⟩ := exists_decl_of_mem member
  refine ⟨decl, promoted_of_above occurs (promotes ▸ own) ?_, name, type⟩
  intro stem above occursAbove starts different
  obtain ⟨ancestor, ancestorMember, rfl, _, _, promotesAbove⟩ := exists_mem_of_occurs naming occursAbove
  exact promotesAbove ▸ outermost ancestor ancestorMember starts different

theorem keysOf_above {index : List Nat} {decl : FieldDecl n} (promoted : Promoted catalog [record] record index decl) :
    keysOf naming (route catalog record index.dropLast) = [] := by
  rw [keysOf, List.map_eq_nil_iff, List.filter_eq_nil_iff]
  intro other onRoute
  obtain ⟨stem, starts, occurs⟩ := promoted.occurs.of_mem_route_dropLast onRoute
  obtain ⟨starts, different⟩ := (prefix_dropLast_iff promoted.occurs.ne_nil).mp starts
  simp [promoted.above occurs starts different]

theorem path_of_promoted {decl : FieldDecl n} (member : field ∈ (build catalog naming record).fields)
    (promoted : Promoted catalog [record] record field.index decl) : field.path = field.name := by
  rw [(routed_build member).path, stemOf, keysOf_above promoted]
  rfl

end Codec

end SqlComposer
