import SqlComposer.Proofs.Record.Links

namespace SqlComposer

variable {n : Nat}

/-- A field stands less deep than the other, or as deep and not before it. -/
def Field.Beats (field other : Field n) : Prop :=
  field.depth < other.depth ∨ field.depth = other.depth ∧ other.index ≤ field.index

theorem Field.beats_self (field : Field n) : field.Beats field := .inr ⟨rfl, le_refl _⟩

namespace Codec

variable {clashes : Field n → Field n → Bool}

structure Settled (clashes : Field n → Field n → Bool) (fields winners : List (Field n)) : Prop where
  among : ∀ winner ∈ winners, winner ∈ fields
  distinct : winners.Nodup
  apart : ∀ winner ∈ winners, ∀ other ∈ winners, clashes winner other = true → winner = other
  decided : ∀ field ∈ fields, ∃ winner ∈ winners, clashes winner field = true ∧ winner.Beats field

theorem winners_eq_insertionSort (clashes : Field n → Field n → Bool) (fields : List (Field n)) :
    winners clashes fields =
      (fields.foldl (contend clashes) []).insertionSort fun a b => precedes a.index b.index = true :=
  sortedByIndex_eq_insertionSort Field.index _

section

variable {fields winners : List (Field n)} {field : Field n}
  (alike : Equivalence fun field other => clashes field other = true)
  (settled : Settled clashes fields winners) (last : ∀ other ∈ fields, other.index < field.index)

include alike settled

theorem settled_join (free : ∀ winner ∈ winners, ¬ clashes field winner = true) :
    Settled clashes (fields ++ [field]) (winners ++ [field]) where
  among := by
    intro winner member
    rcases List.mem_append.mp member with old | new
    · exact List.mem_append_left _ (settled.among winner old)
    · exact List.mem_append_right _ new
  distinct := by
    have absent : field ∉ winners := fun member => free field member (alike.refl field)
    simpa using settled.distinct.concat absent
  apart := by
    simp only [List.mem_append, List.mem_singleton]
    rintro winner (old | rfl) other (oldToo | rfl) clash
    · exact settled.apart winner old other oldToo clash
    · exact absurd (alike.symm clash) (free winner old)
    · exact absurd clash (free other oldToo)
    · rfl
  decided := by
    simp only [List.mem_append, List.mem_singleton]
    rintro other (old | rfl)
    · obtain ⟨winner, member, won⟩ := settled.decided other old
      exact ⟨winner, .inl member, won⟩
    · exact ⟨other, .inr rfl, alike.refl other, other.beats_self⟩

theorem settled_lose {winner : Field n} (member : winner ∈ winners) (clash : clashes field winner = true)
    (deeper : winner.depth < field.depth) : Settled clashes (fields ++ [field]) winners where
  among winner member := List.mem_append_left _ (settled.among winner member)
  distinct := settled.distinct
  apart := settled.apart
  decided := by
    simp only [List.mem_append, List.mem_singleton]
    rintro other (old | rfl)
    · exact settled.decided other old
    · exact ⟨winner, member, alike.symm clash, .inl deeper⟩

include last

theorem settled_replace {winner : Field n} (member : winner ∈ winners) (clash : clashes field winner = true)
    (notDeeper : field.depth ≤ winner.depth) :
    Settled clashes (fields ++ [field]) (winners.erase winner ++ [field]) where
  among := by
    intro other otherMember
    rcases List.mem_append.mp otherMember with old | new
    · exact List.mem_append_left _ (settled.among other (List.mem_of_mem_erase old))
    · exact List.mem_append_right _ new
  distinct := by
    have absent : field ∉ winners.erase winner := fun present =>
      lt_irrefl _ (last field (settled.among field (List.mem_of_mem_erase present)))
    simpa using (settled.distinct.erase winner).concat absent
  apart := by
    have replaced : ∀ other ∈ winners.erase winner, ¬ clashes other field = true := by
      intro other old clashToo
      obtain ⟨different, old⟩ := settled.distinct.mem_erase_iff.mp old
      exact different (settled.apart other old winner member (alike.trans clashToo clash))
    simp only [List.mem_append, List.mem_singleton]
    rintro one (old | rfl) other (oldToo | rfl) clashToo
    · exact settled.apart one (List.mem_of_mem_erase old) other (List.mem_of_mem_erase oldToo) clashToo
    · exact absurd clashToo (replaced one old)
    · exact absurd (alike.symm clashToo) (replaced other oldToo)
    · rfl
  decided := by
    simp only [List.mem_append, List.mem_singleton]
    rintro other (old | rfl)
    · obtain ⟨winnerToo, memberToo, clashToo, beats⟩ := settled.decided other old
      by_cases same : winnerToo = winner
      · -- Whatever the old winner beat, the new one beats: it is not deeper, and it comes last.
        subst same
        refine ⟨field, .inr rfl, alike.trans clash clashToo, ?_⟩
        rcases beats with less | ⟨equal, _⟩
        · exact .inl (Nat.lt_of_le_of_lt notDeeper less)
        · rcases Nat.lt_or_eq_of_le (equal ▸ notDeeper) with less | equal
          · exact .inl less
          · exact .inr ⟨equal, le_of_lt (last other old)⟩
      · exact ⟨winnerToo, .inl (settled.distinct.mem_erase_iff.mpr ⟨same, memberToo⟩), clashToo, beats⟩
    · exact ⟨other, .inr rfl, alike.refl other, other.beats_self⟩

theorem settled_contend : Settled clashes (fields ++ [field]) (contend clashes winners field) := by
  unfold contend
  cases found : winners.find? (clashes field) with
  | none => exact settled_join alike settled (List.find?_eq_none.mp found)
  | some winner =>
    have member := List.mem_of_find?_eq_some found
    have clash := List.find?_some found
    by_cases deeper : winner.depth < field.depth
    · simpa only [deeper, if_true] using settled_lose alike settled member clash deeper
    · simpa only [deeper, if_false] using
        settled_replace alike settled last member clash (Nat.le_of_not_lt deeper)

end

theorem settled_foldl (alike : Equivalence fun field other => clashes field other = true)
    {done winners rest : List (Field n)} (settled : Settled clashes done winners)
    (ascending : (done ++ rest).Pairwise fun field other => field.index < other.index) :
    Settled clashes (done ++ rest) (rest.foldl (contend clashes) winners) := by
  induction rest generalizing done winners with
  | nil => rwa [List.append_nil]
  | cons field rest ih =>
    have last : ∀ other ∈ done, other.index < field.index := fun other member =>
      (List.pairwise_append.mp ascending).2.2 other member field List.mem_cons_self
    have regrouped : done ++ field :: rest = (done ++ [field]) ++ rest := by simp
    rw [regrouped] at ascending ⊢
    exact ih (settled_contend alike settled last) ascending

section

variable (alike : Equivalence fun field other => clashes field other = true) {fields : List (Field n)}
  (ascending : fields.Pairwise fun field other => field.index < other.index)

include alike ascending

theorem settled_winners : Settled clashes fields (winners clashes fields) := by
  have start : Settled clashes [] [] := ⟨by simp, List.nodup_nil, by simp, by simp⟩
  have settled := settled_foldl alike start ascending
  have perm : (winners clashes fields).Perm (fields.foldl (contend clashes) []) := List.mergeSort_perm _ _
  constructor
  · intro winner member
    exact settled.among winner (perm.mem_iff.mp member)
  · exact perm.nodup_iff.mpr settled.distinct
  · intro winner member other memberToo
    exact settled.apart winner (perm.mem_iff.mp member) other (perm.mem_iff.mp memberToo)
  · intro field member
    obtain ⟨winner, winnerMember, won⟩ := settled.decided field member
    exact ⟨winner, perm.mem_iff.mpr winnerMember, won⟩

theorem mem_winners_iff {field : Field n} :
    field ∈ winners clashes fields ↔
      field ∈ fields ∧ ∀ other ∈ fields, clashes field other = true → field.Beats other := by
  have settled := settled_winners alike ascending
  constructor
  · intro member
    refine ⟨settled.among field member, fun other otherMember clash => ?_⟩
    obtain ⟨winner, winnerMember, clashToo, beats⟩ := settled.decided other otherMember
    rwa [settled.apart field member winner winnerMember (alike.trans clash (alike.symm clashToo))]
  · rintro ⟨member, unbeaten⟩
    obtain ⟨winner, winnerMember, clash, beats⟩ := settled.decided field member
    have among := settled.among winner winnerMember
    have beaten := unbeaten winner among (alike.symm clash)
    have same : winner.index = field.index := by
      rcases beats with less | ⟨equal, before⟩
      · rcases beaten with lessToo | ⟨equal, _⟩ <;> omega
      · rcases beaten with less | ⟨_, after⟩
        · omega
        · exact le_antisymm after before
    rwa [← eq_of_index ascending among member same]

theorem ascending_winners :
    (winners clashes fields).Pairwise fun field other => field.index < other.index := by
  have settled := settled_winners alike ascending
  have sorted : (winners clashes fields).Pairwise fun field other => field.index ≤ other.index :=
    pairwise_sortedByIndex Field.index _
  have both := List.pairwise_and_iff.mpr ⟨sorted, settled.distinct⟩
  apply both.imp_of_mem
  rintro field other member memberToo ⟨before, different⟩
  refine lt_of_le_of_ne before fun same => different ?_
  exact eq_of_index ascending (settled.among field member) (settled.among other memberToo) same

end

end Codec

end SqlComposer
