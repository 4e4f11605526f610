import Mathlib.Data.Fintype.Card
import Mathlib.Data.List.Lex
import Mathlib.Data.List.Sort
import SqlComposer.Record.Tree

namespace SqlComposer

variable {n : Nat}

theorem precedes_iff_le (a b : List Nat) : precedes a b = true ↔ a ≤ b := by
  rw [← not_lt]
  induction a generalizing b with
  | nil => simp [precedes]
  | cons i is ih =>
    cases b with
    | nil => simp [precedes]
    | cons j js =>
      rcases Nat.lt_trichotomy i j with less | rfl | greater
      · simp [precedes, List.cons_lt_cons_iff, less, less.le, less.ne']
      · simpa [precedes, List.cons_lt_cons_iff] using ih js
      · simp [precedes, List.cons_lt_cons_iff, greater, greater.le, greater.ne']

theorem index_lt {index left right : List Nat} {i j : Nat} (less : i < j) :
    index ++ i :: left < index ++ j :: right :=
  List.append_left_lt (List.cons_lt_cons_iff.mpr (.inl less))

theorem index_lt_below {index rest : List Nat} (proper : rest ≠ []) : index < index ++ rest := by
  obtain ⟨first, others, rfl⟩ := List.exists_cons_of_ne_nil proper
  have : index ++ [] < index ++ first :: others := List.append_left_lt (List.nil_lt_cons first others)
  rwa [List.append_nil] at this

theorem pairwise_sortedByIndex {α : Type} (index : α → List Nat) (items : List α) :
    (items.mergeSort fun item other => precedes (index item) (index other)).Pairwise
      fun item other => index item ≤ index other := by
  let before := fun item other => precedes (index item) (index other)
  have trans : ∀ a b c, before a b = true → before b c = true → before a c = true := fun _ _ _ => precedes_trans
  have total : ∀ a b, (before a b || before b a) = true := fun _ _ => precedes_total _ _
  exact (List.pairwise_mergeSort trans total items).imp (precedes_iff_le _ _).mp

theorem orderedInsert_append {α : Type} {r : α → α → Prop} [DecidableRel r] {item : α} {front back : List α}
    (passes : ∀ other ∈ front, ¬ r item other) (stays : ∀ other ∈ back, r item other) :
    (front ++ back).orderedInsert r item = front ++ item :: back := by
  induction front with
  | nil =>
    cases back with
    | nil => rfl
    | cons other back => exact List.orderedInsert_cons_of_le r back (stays other List.mem_cons_self)
  | cons other front ih =>
    have rest := ih fun later member => passes later (List.mem_cons_of_mem other member)
    rw [List.cons_append, List.orderedInsert_of_not_le r _ (passes other List.mem_cons_self), rest, List.cons_append]

/-- Both sorts keep the order of items with the same index. The insertion sort is the one that can be evaluated. -/
theorem sortedByIndex_eq_insertionSort {α : Type} (index : α → List Nat) (items : List α) :
    (items.mergeSort fun item other => precedes (index item) (index other)) =
      items.insertionSort fun item other => precedes (index item) (index other) = true := by
  let before := fun item other => precedes (index item) (index other)
  have trans : ∀ a b c, before a b = true → before b c = true → before a c = true := fun _ _ _ => precedes_trans
  have total : ∀ a b, (before a b || before b a) = true := fun _ _ => precedes_total _ _
  induction items with
  | nil => rw [List.mergeSort_nil, List.insertionSort_nil]
  | cons item items ih =>
    obtain ⟨front, back, shown, rest, passed⟩ := List.mergeSort_cons trans total item items
    have sorted := List.pairwise_mergeSort trans total (item :: items)
    rw [shown] at sorted
    have stays : ∀ other ∈ back, before item other = true :=
      (List.pairwise_cons.mp (List.pairwise_append.mp sorted).2.1).1
    have passes : ∀ other ∈ front, ¬ before item other = true := by simpa using passed
    rw [List.insertionSort_cons, ← ih, rest, orderedInsert_append passes stays]
    exact shown

theorem nodup_index {α : Type} {index : α → List Nat} {items : List α}
    (ascending : items.Pairwise fun item other => index item < index other) : (items.map index).Nodup := by
  apply List.pairwise_map.mpr
  apply ascending.imp
  intro item other less same
  exact less.ne same

theorem eq_of_index {α : Type} {index : α → List Nat} {items : List α}
    (ascending : items.Pairwise fun item other => index item < index other) {item other : α}
    (member : item ∈ items) (memberToo : other ∈ items) (same : index item = index other) : item = other :=
  List.inj_on_of_nodup_map (nodup_index ascending) member memberToo same

structure Entry (n : Nat) where
  index : List Nat
  decl : FieldDecl n

variable (catalog : Catalog n)

def keptFields (record : Fin n) : List (FieldDecl n × Nat) :=
  (catalog record).fields.zipIdx.filter fun entry => entry.1.isKept

def listing (chain : List (Fin n)) (index : List Nat) (record : Fin n) : List (Entry n) :=
  (keptFields catalog record).flatMap fun (decl, position) =>
    ⟨index ++ [position], decl⟩ ::
      match decl.type.base.record? with
      | none => []
      | some inner =>
        if inner ∈ chain then [] else listing (inner :: chain) (index ++ [position]) inner
termination_by (Finset.univ.filter (· ∉ chain)).card
decreasing_by
  apply Finset.card_lt_card
  rw [Finset.ssubset_iff_of_subset]
  · exact ⟨inner, by simpa, by simp⟩
  · intro other outside
    simp only [Finset.mem_filter, List.mem_cons, not_or] at outside ⊢
    exact ⟨outside.1, outside.2.2⟩

theorem chain_induction {P : List (Fin n) → Fin n → Prop}
    (enter : ∀ chain record, (∀ inner, inner ∉ chain → P (inner :: chain) inner) → P chain record)
    (chain : List (Fin n)) (record : Fin n) : P chain record := by
  induction chain, ([] : List Nat), record using listing.induct with
  | case1 chain _ record ih => exact enter chain record (ih 0)

def listingBelow (chain : List (Fin n)) (index : List Nat) (type : Ty n) : List (Entry n) :=
  match type.base.record? with
  | none => []
  | some inner => if inner ∈ chain then [] else listing catalog (inner :: chain) index inner

theorem listing_eq (chain : List (Fin n)) (index : List Nat) (record : Fin n) :
    listing catalog chain index record = (keptFields catalog record).flatMap fun entry =>
      ⟨index ++ [entry.2], entry.1⟩ :: listingBelow catalog chain (index ++ [entry.2]) entry.1.type := by
  rw [listing]
  rfl

/-- The field is reached from the record by the positions in the index. -/
inductive Occurs : List (Fin n) → Fin n → List Nat → FieldDecl n → Prop
  | here {chain record position decl} : (catalog record).fields[position]? = some decl → decl.isKept = true →
      Occurs chain record [position] decl
  | deeper {chain record position decl inner rest target} : (catalog record).fields[position]? = some decl →
      decl.isKept = true → decl.type.base.record? = some inner → inner ∉ chain →
      Occurs (inner :: chain) inner rest target → Occurs chain record (position :: rest) target

variable {catalog}

theorem mem_keptFields {record : Fin n} {decl : FieldDecl n} {position : Nat} :
    (decl, position) ∈ keptFields catalog record ↔
      (catalog record).fields[position]? = some decl ∧ decl.isKept = true := by
  rw [keptFields, List.mem_filter, List.mem_zipIdx_iff_getElem?]

theorem Occurs.ne_nil {chain : List (Fin n)} {record : Fin n} {index : List Nat} {decl : FieldDecl n}
    (occurs : Occurs catalog chain record index decl) : index ≠ [] := by
  cases occurs <;> exact List.cons_ne_nil _ _

theorem mem_listingBelow_iff {chain : List (Fin n)} {index : List Nat} {type : Ty n} {entry : Entry n} :
    entry ∈ listingBelow catalog chain index type ↔
      ∃ inner, type.base.record? = some inner ∧ inner ∉ chain ∧
        entry ∈ listing catalog (inner :: chain) index inner := by
  unfold listingBelow
  cases leads : type.base.record? with
  | none => simp
  | some inner => by_cases entered : inner ∈ chain <;> simp [entered]

theorem mem_listing_iff {chain : List (Fin n)} {index : List Nat} {record : Fin n} {entry : Entry n} :
    entry ∈ listing catalog chain index record ↔
      ∃ rest, entry.index = index ++ rest ∧ Occurs catalog chain record rest entry.decl := by
  induction chain, index, record using listing.induct with
  | case1 chain index record ih =>
    rw [listing_eq]
    simp only [List.mem_flatMap, List.mem_cons, Prod.exists, mem_keptFields, mem_listingBelow_iff]
    constructor
    · rintro ⟨decl, position, ⟨declared, kept⟩, rfl | ⟨inner, leads, free, member⟩⟩
      · exact ⟨[position], rfl, .here declared kept⟩
      · obtain ⟨rest, shown, occurs⟩ := (ih position inner free).mp member
        exact ⟨position :: rest, by simpa using shown, .deeper declared kept leads free occurs⟩
    · rintro ⟨rest, shown, occurs⟩
      cases occurs with
      | @here _ _ position _ declared kept =>
        exact ⟨entry.decl, position, ⟨declared, kept⟩, .inl (by rw [← shown])⟩
      | @deeper _ _ position decl inner rest _ declared kept leads free occurs =>
        have member := (ih position inner free).mpr ⟨rest, by simpa using shown, occurs⟩
        exact ⟨decl, position, ⟨declared, kept⟩, .inr ⟨inner, leads, free, member⟩⟩

theorem Occurs.unique {chain : List (Fin n)} {record : Fin n} {index : List Nat} {decl other : FieldDecl n}
    (occurs : Occurs catalog chain record index decl) (occursToo : Occurs catalog chain record index other) :
    decl = other := by
  induction occurs with
  | here declared kept =>
    cases occursToo with
    | here declaredToo _ => exact Option.some.inj (declared.symm.trans declaredToo)
    | deeper _ _ _ _ occurs => exact absurd rfl occurs.ne_nil
  | deeper declared kept leads free occurs ih =>
    cases occursToo with
    | here => exact absurd rfl occurs.ne_nil
    | deeper declaredToo _ leadsToo _ occursToo =>
      obtain rfl := Option.some.inj (declared.symm.trans declaredToo)
      obtain rfl := Option.some.inj (leads.symm.trans leadsToo)
      exact ih occursToo

theorem occurs_cons_iff {chain : List (Fin n)} {record : Fin n} {position : Nat} {rest : List Nat}
    {target : FieldDecl n} (proper : rest ≠ []) :
    Occurs catalog chain record (position :: rest) target ↔
      ∃ decl inner, (catalog record).fields[position]? = some decl ∧ decl.isKept = true ∧
        decl.type.base.record? = some inner ∧ inner ∉ chain ∧ Occurs catalog (inner :: chain) inner rest target := by
  constructor
  · intro occurs
    cases occurs with
    | here => exact absurd rfl proper
    | deeper declared kept leads free occurs => exact ⟨_, _, declared, kept, leads, free, occurs⟩
  · rintro ⟨decl, inner, declared, kept, leads, free, occurs⟩
    exact .deeper declared kept leads free occurs

theorem occurs_singleton_iff {chain : List (Fin n)} {record : Fin n} {position : Nat} {target : FieldDecl n} :
    Occurs catalog chain record [position] target ↔
      (catalog record).fields[position]? = some target ∧ target.isKept = true := by
  constructor
  · intro occurs
    cases occurs with
    | here declared kept => exact ⟨declared, kept⟩
    | deeper _ _ _ _ nothing => exact absurd rfl nothing.ne_nil
  · rintro ⟨declared, kept⟩
    exact .here declared kept

theorem Occurs.sibling {chain : List (Fin n)} {record : Fin n} {stem rest : List Nat} {i j : Nat}
    {first second target : FieldDecl n} (occursFirst : Occurs catalog chain record (stem ++ [i]) first)
    (occursSecond : Occurs catalog chain record (stem ++ [j]) second)
    (same : first.type.base.record? = second.type.base.record?) (proper : rest ≠ [])
    (occurs : Occurs catalog chain record (stem ++ i :: rest) target) :
    Occurs catalog chain record (stem ++ j :: rest) target := by
  induction stem generalizing chain record with
  | nil =>
    obtain ⟨declared, kept⟩ := occurs_singleton_iff.mp occursSecond
    obtain ⟨declaredFirst, _⟩ := occurs_singleton_iff.mp occursFirst
    obtain ⟨decl, inner, declaredToo, _, leads, free, occurs⟩ := (occurs_cons_iff proper).mp occurs
    obtain rfl := Option.some.inj (declaredFirst.symm.trans declaredToo)
    exact .deeper declared kept (same ▸ leads) free occurs
  | cons k stem ih =>
    obtain ⟨decl, inner, declared, kept, leads, free, occurs⟩ := (occurs_cons_iff (by simp)).mp occurs
    obtain ⟨_, _, declaredFirst, _, leadsFirst, _, occursFirst⟩ := (occurs_cons_iff (by simp)).mp occursFirst
    obtain ⟨_, _, declaredSecond, _, leadsSecond, _, occursSecond⟩ := (occurs_cons_iff (by simp)).mp occursSecond
    obtain rfl := Option.some.inj (declared.symm.trans declaredFirst)
    obtain rfl := Option.some.inj (declared.symm.trans declaredSecond)
    obtain rfl := Option.some.inj (leads.symm.trans leadsFirst)
    obtain rfl := Option.some.inj (leads.symm.trans leadsSecond)
    exact .deeper declared kept leads free (ih occursFirst occursSecond occurs)

theorem pairwise_keptFields (record : Fin n) :
    (keptFields catalog record).Pairwise fun entry other => entry.2 < other.2 := by
  have positions : ((catalog record).fields.zipIdx.map Prod.snd).Pairwise (· < ·) := by
    rw [List.zipIdx_map_snd]
    exact List.pairwise_lt_range'
  exact (List.pairwise_map.mp positions).filter _

theorem index_of_mem_listingBelow {chain : List (Fin n)} {index : List Nat} {type : Ty n}
    {entry : Entry n} (member : entry ∈ listingBelow catalog chain index type) :
    ∃ rest, rest ≠ [] ∧ entry.index = index ++ rest := by
  obtain ⟨inner, _, _, member⟩ := mem_listingBelow_iff.mp member
  obtain ⟨rest, shown, occurs⟩ := mem_listing_iff.mp member
  exact ⟨rest, occurs.ne_nil, shown⟩

theorem pairwise_index_listing (chain : List (Fin n)) (index : List Nat) (record : Fin n) :
    (listing catalog chain index record).Pairwise fun entry other => entry.index < other.index := by
  induction chain, index, record using listing.induct with
  | case1 chain index record ih =>
    have under : ∀ {decl position entry}, entry ∈ (⟨index ++ [position], decl⟩ ::
        listingBelow catalog chain (index ++ [position]) decl.type : List (Entry n)) →
        ∃ rest, entry.index = index ++ position :: rest := by
      intro decl position entry member
      cases member with
      | head => exact ⟨[], rfl⟩
      | tail _ member =>
        obtain ⟨rest, _, shown⟩ := index_of_mem_listingBelow member
        exact ⟨rest, by simpa using shown⟩
    rw [listing_eq, List.pairwise_flatMap]
    constructor
    · rintro ⟨decl, position⟩ _
      rw [List.pairwise_cons]
      constructor
      · intro entry member
        obtain ⟨rest, proper, shown⟩ := index_of_mem_listingBelow member
        exact shown ▸ index_lt_below proper
      · unfold listingBelow
        cases leads : decl.type.base.record? with
        | none => exact List.Pairwise.nil
        | some inner =>
          by_cases entered : inner ∈ chain
          · simp [entered]
          · simpa [entered] using ih position inner entered
    · apply (pairwise_keptFields record).imp
      intro _ _ less entry member behind memberBehind
      obtain ⟨left, shown⟩ := under member
      obtain ⟨right, shownBehind⟩ := under memberBehind
      rw [shown, shownBehind]
      exact index_lt less

end SqlComposer
