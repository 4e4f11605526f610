import SqlComposer.Proofs.Record.Growth

namespace SqlComposer

variable {n : Nat} {catalog : Catalog n} {naming : String → String}

def Holds (fields : List (Field n)) (place : Option Nat) (index : List Nat) : Prop :=
  match place with
  | none => index = []
  | some number => ∃ field, fields[number]? = some field ∧ field.index = index

def Linked (fields : List (Field n)) (field : Field n) : Prop :=
  field.index ≠ [] ∧ Holds fields field.parent field.index.dropLast

theorem Holds.append {fields : List (Field n)} {place : Option Nat} {index : List Nat}
    (holds : Holds fields place index) (more : List (Field n)) : Holds (fields ++ more) place index := by
  cases place with
  | none => exact holds
  | some number =>
    obtain ⟨field, placed, shown⟩ := holds
    exact ⟨field, List.getElem?_append_left (List.getElem?_eq_some_iff.mp placed).1 ▸ placed, shown⟩

theorem linked_field {fields : List (Field n)} {site : Site n} (holds : Holds fields site.parent site.index)
    {field : Field n} (member : field ∈ site.fields naming catalog) : Linked fields field := by
  obtain ⟨⟨decl, position⟩, _, rfl⟩ := List.mem_map.mp member
  refine ⟨?_, ?_⟩
  · simp [Site.field]
  · simpa [Site.field] using holds

theorem holds_nextSites {prior : List (Field n)} {found : List (Site n × Field n)} :
    ∀ site ∈ nextSites prior.length found, Holds (prior ++ found.map (·.2)) site.parent site.index := by
  intro below member
  obtain ⟨site, field, number, placed, enters⟩ := exists_of_mem_nextSites member
  obtain ⟨_, _, parent, index⟩ := below?_eq_some enters
  obtain ⟨behind, placed⟩ := List.mk_mem_zipIdx_iff_le_and_getElem?_sub.mp placed
  rw [parent, index]
  refine ⟨field, ?_, rfl⟩
  rw [List.getElem?_append_right behind, List.getElem?_map, placed]
  rfl

theorem linked_grow {rounds : Nat} {prior : List (Field n)} {sites : List (Site n)}
    (holds : ∀ site ∈ sites, Holds prior site.parent site.index) :
    ∀ field ∈ grow catalog naming rounds prior.length sites,
      Linked (prior ++ grow catalog naming rounds prior.length sites) field := by
  induction rounds generalizing prior sites with
  | zero => simp [grow]
  | succ rounds ih =>
    let found := level catalog naming sites
    let later := grow catalog naming rounds (prior.length + found.length) (nextSites prior.length found)
    have whole : grow catalog naming (rounds + 1) prior.length sites = found.map (·.2) ++ later := rfl
    rw [whole]
    intro field member
    rcases List.mem_append.mp member with here | member
    · obtain ⟨⟨site, _⟩, paired, rfl⟩ := List.mem_map.mp here
      obtain ⟨siteMember, declared⟩ := mem_level_iff.mp paired
      exact linked_field ((holds site siteMember).append _) declared
    · -- On the next level the numbers go on where those of this level end.
      have count : (prior ++ found.map (·.2)).length = prior.length + found.length := by simp
      have holdsNext : ∀ site ∈ nextSites prior.length found,
          Holds (prior ++ found.map (·.2)) site.parent site.index := holds_nextSites
      have rest := ih holdsNext
      rw [count, List.append_assoc] at rest
      exact rest field member

theorem getElem?_findIdx {α : Type} {items : List α} {sorted : List (α × Nat)} (perm : sorted.Perm items.zipIdx)
    {number : Nat} {item : α} (placed : items[number]? = some item) :
    sorted[sorted.findIdx fun entry => entry.2 == number]? = some (item, number) := by
  have member : (item, number) ∈ sorted := perm.mem_iff.mpr (List.mk_mem_zipIdx_iff_getElem?.mpr placed)
  have inside : (sorted.findIdx fun entry => entry.2 == number) < sorted.length :=
    List.findIdx_lt_length_of_exists ⟨_, member, by simp⟩
  have numbered := List.findIdx_getElem (w := inside)
  cases shown : sorted[sorted.findIdx fun entry => entry.2 == number] with
  | mk other number' =>
    rw [shown] at numbered
    obtain rfl : number' = number := by simpa using numbered
    have placedToo : (other, number') ∈ items.zipIdx := perm.mem_iff.mp (shown ▸ List.getElem_mem inside)
    have same := List.mk_mem_zipIdx_iff_getElem?.mp placedToo
    rw [List.getElem?_eq_getElem inside, shown, Option.some.inj (same.symm.trans placed)]

theorem linked_inOrder {fields : List (Field n)} (linked : ∀ field ∈ fields, Linked fields field) :
    ∀ field ∈ inOrder fields, Linked (inOrder fields) field := by
  let sorted := fields.zipIdx.mergeSort fun a b => precedes a.1.index b.1.index
  let place (number : Nat) := sorted.findIdx fun entry => entry.2 == number
  have relinked : inOrder fields = sorted.map fun entry => { entry.1 with parent := entry.1.parent.map place } := rfl
  have perm : sorted.Perm fields.zipIdx := List.mergeSort_perm _ _
  rw [relinked]
  intro field member
  obtain ⟨⟨original, number⟩, sortedMember, rfl⟩ := List.mem_map.mp member
  obtain ⟨proper, holds⟩ := linked original (List.fst_mem_of_mem_zipIdx (perm.mem_iff.mp sortedMember))
  refine ⟨proper, ?_⟩
  cases above : original.parent with
  | none =>
    rw [above] at holds
    simpa [Holds, above] using holds
  | some number =>
    rw [above] at holds
    obtain ⟨parent, placed, shown⟩ := holds
    refine ⟨{ parent with parent := parent.parent.map place }, ?_, shown⟩
    rw [List.getElem?_map, getElem?_findIdx perm placed]
    rfl

namespace Codec

variable {record : Fin n} {field ancestor : Field n}

theorem linked_build (member : field ∈ (build catalog naming record).fields) :
    Linked (build catalog naming record).fields field := by
  have holds : ∀ site ∈ [Site.root record], Holds ([] : List (Field n)) site.parent site.index := by
    simp [Holds, Site.root]
  exact linked_inOrder (linked_grow holds) field member

theorem parent?_eq_fieldAt? (member : field ∈ (build catalog naming record).fields) :
    (build catalog naming record).parent? field =
      (build catalog naming record).fieldAt? field.index.dropLast := by
  obtain ⟨_, holds⟩ := linked_build member
  cases above : field.parent with
  | none =>
    have top : field.index.dropLast = [] := by rwa [above] at holds
    rw [parent?, above, top, Option.bind_none]
    symm
    apply List.find?_eq_none.mpr
    intro other otherMember
    simpa using (linked_build otherMember).1
  | some number =>
    rw [above] at holds
    obtain ⟨parent, placed, shown⟩ := holds
    rw [parent?, above, Option.bind_some, placed]
    exact (found_iff.mpr ⟨List.mem_of_getElem? placed, shown⟩).symm

theorem index_of_parent?_eq_none (member : field ∈ (build catalog naming record).fields)
    (top : (build catalog naming record).parent? field = none) : field.index.dropLast = [] := by
  obtain ⟨_, holds⟩ := linked_build member
  cases above : field.parent with
  | none => rwa [above] at holds
  | some number =>
    rw [above] at holds
    obtain ⟨parent, placed, _⟩ := holds
    simp [parent?, above, placed] at top

theorem prefix_dropLast_iff {index other : List Nat} (proper : index ≠ []) :
    other <+: index.dropLast ↔ other <+: index ∧ other ≠ index := by
  obtain rfl | ⟨stem, position, rfl⟩ := index.eq_nil_or_concat
  · contradiction
  · rw [List.concat_eq_append, List.dropLast_concat, List.prefix_concat_iff]
    constructor
    · intro starts
      refine ⟨.inr starts, ?_⟩
      rintro rfl
      have short : stem.length + 1 ≤ stem.length := by simpa using starts.length_le
      omega
    · rintro ⟨whole | starts, different⟩
      · contradiction
      · exact starts

theorem mem_ancestorsWithin_iff {bound : Nat} (member : field ∈ (build catalog naming record).fields)
    (enough : field.depth ≤ bound) :
    ancestor ∈ (build catalog naming record).ancestorsWithin bound field ↔
      ancestor ∈ (build catalog naming record).fields ∧ ancestor.index <+: field.index ∧
        ancestor.index ≠ field.index := by
  have proper := (linked_build member).1
  rw [← prefix_dropLast_iff proper]
  induction bound generalizing field with
  | zero => exact absurd (List.length_eq_zero_iff.mp (Nat.le_zero.mp enough)) proper
  | succ bound ih =>
    cases above : (build catalog naming record).parent? field with
    | none =>
      rw [ancestorsWithin, above, index_of_parent?_eq_none member above]
      constructor
      · intro nothing
        exact absurd nothing List.not_mem_nil
      · rintro ⟨ancestorMember, starts⟩
        exact absurd (List.prefix_nil.mp starts) (linked_build ancestorMember).1
    | some parent =>
      obtain ⟨parentMember, shown⟩ := found_iff.mp ((parent?_eq_fieldAt? member).symm.trans above)
      have parentProper := (linked_build parentMember).1
      have lower : parent.depth ≤ bound := by
        simp only [Field.depth, shown, List.length_dropLast] at enough ⊢
        omega
      have higher : ancestor ∈ (build catalog naming record).ancestorsWithin bound parent ↔
          ancestor ∈ (build catalog naming record).fields ∧ ancestor.index <+: parent.index.dropLast :=
        ih parentMember lower parentProper
      rw [ancestorsWithin, above, List.mem_cons, higher, prefix_dropLast_iff parentProper, ← shown]
      constructor
      · rintro (rfl | ⟨ancestorMember, starts, _⟩)
        · exact ⟨parentMember, List.prefix_rfl⟩
        · exact ⟨ancestorMember, starts⟩
      · rintro ⟨ancestorMember, starts⟩
        by_cases same : ancestor.index = parent.index
        · exact .inl (eq_of_index (ascending_fieldTree record) ancestorMember parentMember same)
        · exact .inr ⟨ancestorMember, starts, same⟩

theorem mem_ancestors_iff (member : field ∈ (build catalog naming record).fields) :
    ancestor ∈ (build catalog naming record).ancestors field ↔
      ancestor ∈ (build catalog naming record).fields ∧ ancestor.index <+: field.index ∧
        ancestor.index ≠ field.index :=
  mem_ancestorsWithin_iff member (Nat.le_refl _)

theorem pairwise_ancestorsWithin {bound : Nat} (member : field ∈ (build catalog naming record).fields)
    (enough : field.depth ≤ bound) :
    ((build catalog naming record).ancestorsWithin bound field).Pairwise fun near far => far.depth < near.depth := by
  induction bound generalizing field with
  | zero => exact List.Pairwise.nil
  | succ bound ih =>
    cases above : (build catalog naming record).parent? field with
    | none =>
      rw [ancestorsWithin, above]
      exact List.Pairwise.nil
    | some parent =>
      obtain ⟨parentMember, shown⟩ := found_iff.mp ((parent?_eq_fieldAt? member).symm.trans above)
      have lower : parent.depth ≤ bound := by
        simp only [Field.depth, shown, List.length_dropLast] at enough ⊢
        omega
      rw [ancestorsWithin, above, List.pairwise_cons]
      refine ⟨fun far farMember => ?_, ih parentMember lower⟩
      obtain ⟨_, starts, different⟩ := (mem_ancestorsWithin_iff parentMember lower).mp farMember
      exact lt_of_le_of_ne starts.length_le fun same => different (starts.eq_of_length same)

theorem pairwise_ancestors (member : field ∈ (build catalog naming record).fields) :
    ((build catalog naming record).ancestors field).Pairwise fun near far => far.depth < near.depth :=
  pairwise_ancestorsWithin member (Nat.le_refl _)

end Codec

end SqlComposer
