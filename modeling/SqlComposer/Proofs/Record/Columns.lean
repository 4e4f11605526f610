import SqlComposer.Proofs.Record.Contest

namespace SqlComposer.Codec

variable {n : Nat} {catalog : Catalog n} {naming : String → String} {record : Fin n}

/-- The root of a field is the outermost of the fields above it that hold it; all above the root is promoting. -/
structure IsRoot (codec : Codec n) (root field : Field n) : Prop where
  member : root ∈ codec.fields
  above : root.index <+: field.index
  proper : root.index ≠ field.index
  own : root.promotes = false
  outermost : ∀ ancestor ∈ codec.fields, ancestor.index <+: root.index → ancestor.index ≠ root.index →
    ancestor.promotes = true

theorem isRoot_of_columnRoot? {root field : Field n} (member : field ∈ (build catalog naming record).fields)
    (rooted : (build catalog naming record).columnRoot? field = some root) :
    (build catalog naming record).IsRoot root field := by
  obtain ⟨inner, holders⟩ := List.getLast?_eq_some_iff.mp rooted
  have isHolder : root ∈ (build catalog naming record).holders field := by simp [holders]
  obtain ⟨ancestor, own⟩ := List.mem_filter.mp isHolder
  obtain ⟨rootMember, above, proper⟩ := (mem_ancestors_iff member).mp ancestor
  refine ⟨rootMember, above, proper, by simpa using own, ?_⟩
  intro outer outerMember starts different
  by_contra notPromoting
  have outerHolder : outer ∈ (build catalog naming record).holders field := by
    refine List.mem_filter.mpr
      ⟨(mem_ancestors_iff member).mpr ⟨outerMember, starts.trans above, ?_⟩, by simpa using notPromoting⟩
    intro same
    exact proper (above.eq_of_length (le_antisymm above.length_le (same ▸ starts.length_le)))
  have nearerFirst := (pairwise_ancestors member).filter (fun ancestor => !ancestor.promotes)
  rw [holders] at outerHolder
  rw [← Codec.holders, holders] at nearerFirst
  rcases List.mem_append.mp outerHolder with inside | last
  · have deeper := (List.pairwise_append.mp nearerFirst).2.2 outer inside root List.mem_cons_self
    exact absurd starts.length_le (Nat.not_le_of_lt deeper)
  · exact different (congrArg Field.index (List.mem_singleton.mp last))

def IsCandidate (codec : Codec n) (field : Field n) : Prop :=
  field ∈ codec.fields ∧ field.name ≠ "" ∧ field.promotes = false ∧
    ∀ ancestor ∈ codec.fields, ancestor.index <+: field.index → ancestor.index ≠ field.index →
      ancestor.promotes = true

theorem columnAncestor?_eq_none_iff {codec : Codec n} {field : Field n} :
    codec.columnAncestor? field = none ↔ ∀ ancestor ∈ codec.ancestors field, ancestor.promotes = true := by
  rw [columnAncestor?, List.head?_eq_none_iff, holders, List.filter_eq_nil_iff]
  simp

theorem isCandidate_iff {field : Field n} :
    (build catalog naming record).IsCandidate field ↔
      field ∈ (build catalog naming record).fields.filter fun field =>
        field.isNamed && ((build catalog naming record).columnAncestor? field).isNone := by
  rw [List.mem_filter, Bool.and_eq_true, Option.isNone_iff_eq_none, columnAncestor?_eq_none_iff]
  constructor
  · rintro ⟨member, named, own, above⟩
    refine ⟨member, by simp [Field.isNamed, named, own], ?_⟩
    intro ancestor ancestorMember
    obtain ⟨ancestorMember, starts, different⟩ := (mem_ancestors_iff member).mp ancestorMember
    exact above ancestor ancestorMember starts different
  · rintro ⟨member, named, above⟩
    simp only [Field.isNamed, Bool.and_eq_true, bne_iff_ne, ne_eq, Bool.not_eq_true'] at named
    refine ⟨member, named.1, named.2, ?_⟩
    intro ancestor ancestorMember starts different
    exact above ancestor ((mem_ancestors_iff member).mpr ⟨ancestorMember, starts, different⟩)

theorem equivalence_sameColumn : Equivalence fun field other : Field n => sameColumn field other = true where
  refl field := Text.sameName_refl field.name
  symm same := by
    rw [sameColumn, Text.sameName_comm]
    exact same
  trans := Text.sameName_trans

theorem isCandidate_of_mem_properties {field : Field n} (member : field ∈ (build catalog naming record).properties) :
    (build catalog naming record).IsCandidate field := by
  have won := (mem_winners_iff equivalence_sameColumn ((ascending_fieldTree record).filter _)).mp member
  exact isCandidate_iff.mpr won.1

structure HasColumns (codec : Codec n) : Prop where
  winning : ∀ field, field ∈ codec.properties ↔ codec.IsCandidate field ∧
    ∀ other, codec.IsCandidate other → sameColumn field other = true → field.Beats other
  ordered : codec.properties.Pairwise fun field other => field.index < other.index
  one : ∀ candidate, codec.IsCandidate candidate →
    ∃! winner, winner ∈ codec.properties ∧ sameColumn candidate winner = true
  distinct : codec.properties.Pairwise fun field other => Text.sameName field.name other.name = false
  outer : ∀ outer inner, codec.IsCandidate outer → codec.IsCandidate inner → sameColumn outer inner = true →
    outer.depth < inner.depth → inner ∉ codec.properties
  kept : ∀ loser, codec.IsCandidate loser → loser ∉ codec.properties →
    codec.fieldAt? loser.index = some loser

theorem build_hasColumns (catalog : Catalog n) (naming : String → String) (record : Fin n) :
    (build catalog naming record).HasColumns := by
  let codec := build catalog naming record
  have ascending : (codec.fields.filter fun field => field.isNamed && (codec.columnAncestor? field).isNone).Pairwise
      fun field other => field.index < other.index := (ascending_fieldTree record).filter _
  have settled := settled_winners equivalence_sameColumn ascending
  have winning : ∀ field, field ∈ codec.properties ↔ codec.IsCandidate field ∧
      ∀ other, codec.IsCandidate other → sameColumn field other = true → field.Beats other := by
    intro field
    simp only [codec, isCandidate_iff]
    exact mem_winners_iff equivalence_sameColumn ascending
  constructor
  · exact winning
  · exact ascending_winners equivalence_sameColumn ascending
  · intro candidate isCandidate
    obtain ⟨winner, member, same, _⟩ := settled.decided candidate (isCandidate_iff.mp isCandidate)
    have same := equivalence_sameColumn.symm same
    refine ⟨winner, ⟨member, same⟩, ?_⟩
    rintro other ⟨otherMember, sameToo⟩
    exact settled.apart other otherMember winner member
      (equivalence_sameColumn.trans (equivalence_sameColumn.symm sameToo) same)
  · apply settled.distinct.imp_of_mem
    intro field other member memberToo different
    cases same : Text.sameName field.name other.name with
    | false => rfl
    | true => exact absurd (settled.apart field member other memberToo same) different
  · intro outer inner outerCandidate _ same less member
    have beats := ((winning inner).mp member).2 outer outerCandidate (equivalence_sameColumn.symm same)
    rcases beats with deeper | ⟨equal, _⟩ <;> omega
  · rintro loser ⟨member, _⟩ _
    exact found_iff.mpr ⟨member, rfl⟩

end SqlComposer.Codec
