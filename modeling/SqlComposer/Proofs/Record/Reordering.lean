import SqlComposer.Proofs.Record.Cells
import SqlComposer.Proofs.Record.Links
/-!
The cells put in the order of their fields' indices, with all places rewritten to match.

The new place of each cell is looked up in the inverse of the sorted list of places. No cell is lost or doubled on the
way, and the children of each cell stay in order, since the fields of one level are found in the order of their indices.
-/

namespace SqlComposer

variable {n : Nat} {catalog : Catalog n} {naming : String → String}

theorem concat_lt_concat {left right : List Nat} (level : left.length = right.length) (less : left < right)
    (i j : Nat) : left ++ [i] < right ++ [j] := by
  induction left generalizing right with
  | nil =>
    obtain rfl := List.length_eq_zero_iff.mp level.symm
    cases less
  | cons a left ih =>
    obtain ⟨b, right, rfl⟩ := List.exists_cons_of_length_eq_add_one level.symm
    rw [List.cons_append, List.cons_append, List.cons_lt_cons_iff]
    rcases List.cons_lt_cons_iff.mp less with first | ⟨same, less⟩
    · exact .inl first
    · exact .inr ⟨same, ih (Nat.succ.inj level) less⟩

theorem pairwise_fields (site : Site n) :
    (site.fields naming catalog).Pairwise fun field other => field.index < other.index :=
  List.pairwise_map.mpr ((pairwise_keptFields site.record).imp index_lt)

theorem depth_of_mem_fields {site : Site n} {field : Field n} (member : field ∈ site.fields naming catalog) :
    field.depth = site.index.length + 1 := by
  obtain ⟨entry, _, rfl⟩ := List.mem_map.mp member
  simp [Field.depth, Site.field]

structure OnLevel (depth : Nat) (sites : List (Site n)) : Prop where
  deep : ∀ site ∈ sites, site.index.length = depth
  ascending : sites.Pairwise fun site other => site.index < other.index

theorem OnLevel.fields {depth : Nat} {sites : List (Site n)} (onLevel : OnLevel depth sites) :
    (level catalog naming sites).Pairwise fun found other => found.2.index < other.2.index := by
  rw [level, List.pairwise_flatMap]
  constructor
  · intro site _
    exact List.pairwise_map.mpr (pairwise_fields site)
  · apply onLevel.ascending.imp_of_mem
    intro site other member memberToo less found here foundToo there
    obtain ⟨field, declared, rfl⟩ := List.mem_map.mp here
    obtain ⟨fieldToo, declaredToo, rfl⟩ := List.mem_map.mp there
    obtain ⟨entry, _, rfl⟩ := List.mem_map.mp declared
    obtain ⟨entryToo, _, rfl⟩ := List.mem_map.mp declaredToo
    exact concat_lt_concat ((onLevel.deep site member).trans (onLevel.deep other memberToo).symm) less _ _

theorem OnLevel.next {depth : Nat} {sites : List (Site n)} (onLevel : OnLevel depth sites) (start : Nat) :
    OnLevel (depth + 1) (nextSites start (level catalog naming sites)) where
  deep := by
    intro below member
    obtain ⟨site, field, number, placed, enters⟩ := exists_of_mem_nextSites member
    obtain ⟨siteMember, declared⟩ := mem_level_iff.mp (List.fst_mem_of_mem_zipIdx placed)
    obtain ⟨_, _, _, index⟩ := below?_eq_some enters
    rw [index, ← onLevel.deep site siteMember]
    exact depth_of_mem_fields declared
  ascending := by
    have numbered : ((level catalog naming sites).zipIdx start).Pairwise
        fun found other => found.1.2.index < other.1.2.index := by
      have fields : (level catalog naming sites).Pairwise fun found other => found.2.index < other.2.index :=
        onLevel.fields
      rw [← List.zipIdx_map_fst start (level catalog naming sites), List.pairwise_map] at fields
      exact fields
    rw [nextSites, List.pairwise_filterMap]
    apply numbered.imp
    rintro ⟨⟨site, field⟩, number⟩ ⟨⟨siteToo, fieldToo⟩, numberToo⟩ less below enters belowToo entersToo
    obtain ⟨_, _, _, index⟩ := below?_eq_some enters
    obtain ⟨_, _, _, indexToo⟩ := below?_eq_some entersToo
    rwa [index, indexToo]

def FoundBefore (field other : Field n) : Prop :=
  field.depth < other.depth ∨ field.depth = other.depth ∧ field.index < other.index

theorem depth_of_mem_grow {rounds start depth : Nat} {sites : List (Site n)} (onLevel : OnLevel depth sites) :
    ∀ field ∈ grow catalog naming rounds start sites, depth < field.depth := by
  induction rounds generalizing start depth sites with
  | zero => simp [grow]
  | succ rounds ih =>
    intro field member
    rcases List.mem_append.mp member with here | later
    · obtain ⟨⟨site, _⟩, paired, rfl⟩ := List.mem_map.mp here
      obtain ⟨siteMember, declared⟩ := mem_level_iff.mp paired
      rw [depth_of_mem_fields declared, onLevel.deep site siteMember]
      exact Nat.lt_succ_self depth
    · exact Nat.lt_of_succ_lt (ih (onLevel.next start) field later)

theorem pairwise_grow {rounds start depth : Nat} {sites : List (Site n)} (onLevel : OnLevel depth sites) :
    (grow catalog naming rounds start sites).Pairwise FoundBefore := by
  induction rounds generalizing start depth sites with
  | zero => exact .nil
  | succ rounds ih =>
    have depthHere : ∀ field ∈ (level catalog naming sites).map (·.2), field.depth = depth + 1 := by
      intro field member
      obtain ⟨⟨site, _⟩, paired, rfl⟩ := List.mem_map.mp member
      obtain ⟨siteMember, declared⟩ := mem_level_iff.mp paired
      rw [depth_of_mem_fields declared, onLevel.deep site siteMember]
    rw [grow, List.pairwise_append]
    refine ⟨?_, ih (onLevel.next start), ?_⟩
    · have ascending : ((level catalog naming sites).map (·.2)).Pairwise fun field other => field.index < other.index :=
        List.pairwise_map.mpr onLevel.fields
      apply ascending.imp_of_mem
      intro field other member memberToo less
      exact .inr ⟨(depthHere field member).trans (depthHere other memberToo).symm, less⟩
    · intro field member other later
      rw [FoundBefore, depthHere field member]
      exact .inl (depth_of_mem_grow (onLevel.next start) other later)

theorem onLevel_root (record : Fin n) : OnLevel 0 [Site.root record] :=
  ⟨by simp [Site.root], List.pairwise_singleton _ _⟩

def indexAt (fields : List (Field n)) (place : Nat) : List Nat :=
  match fields[place]? with
  | none => []
  | some field => field.index

def sortedPlaces (fields : List (Field n)) : List Nat :=
  (List.range fields.length).mergeSort fun a b => precedes (indexAt fields a) (indexAt fields b)

def written {α : Type} (values : List α) (entries : List (Nat × α)) : List α :=
  entries.foldl (fun values entry => values.set entry.1 entry.2) values

def inverted (order : List Nat) : List Nat := written (List.replicate order.length 0) order.zipIdx

theorem getElem?_written_of_not_mem {α : Type} {entries : List (Nat × α)} {place : Nat}
    (absent : place ∉ entries.map Prod.fst) (values : List α) :
    (written values entries)[place]? = values[place]? := by
  induction entries generalizing values with
  | nil => rfl
  | cons first entries ih =>
    rw [List.map_cons, List.mem_cons, not_or] at absent
    have later : (written values (first :: entries))[place]? = (values.set first.1 first.2)[place]? := ih absent.2 _
    rw [later, List.getElem?_set_ne (Ne.symm absent.1)]

theorem getElem?_written {α : Type} {entries : List (Nat × α)} (distinct : (entries.map Prod.fst).Nodup)
    {values : List α} {place : Nat} {value : α} (member : (place, value) ∈ entries) (inside : place < values.length) :
    (written values entries)[place]? = some value := by
  induction entries generalizing values with
  | nil => cases member
  | cons first entries ih =>
    rw [List.map_cons, List.nodup_cons] at distinct
    rcases List.mem_cons.mp member with rfl | later
    · have kept : (written values ((place, value) :: entries))[place]? = (values.set place value)[place]? :=
        getElem?_written_of_not_mem distinct.1 _
      rw [kept, List.getElem?_set_self inside]
    · exact ih distinct.2 later (by simpa using inside)

theorem getElem?_inverted {order : List Nat} (perm : order.Perm (List.range order.length)) {old new : Nat}
    (placed : order[new]? = some old) : (inverted order)[old]? = some new := by
  have distinct : (order.zipIdx.map Prod.fst).Nodup := by
    rw [List.zipIdx_map_fst]
    exact perm.nodup_iff.mpr List.nodup_range
  have inside : old < order.length := List.mem_range.mp (perm.mem_iff.mp (List.mem_of_getElem? placed))
  exact getElem?_written distinct (List.mk_mem_zipIdx_iff_getElem?.mpr placed) (by simpa using inside)

def Cell.moved (places : List Nat) (cell : Cell n) : Cell n :=
  { field := { cell.field with parent := cell.field.parent.map fun parent => places.getD parent 0 }
    children := cell.children.map fun child => places.getD child 0 }

def takenOut (places : List Nat) : List Nat → List (Option (Cell n)) → List (Cell n)
  | [], _ => []
  | old :: order, slots => match slots[old]?.join with
    | none => takenOut places order slots
    | some cell => cell.moved places :: takenOut places order (slots.set old none)

def reordered (cells : List (Cell n)) : List (Cell n) :=
  let order := sortedPlaces (cells.map Cell.field)
  takenOut (inverted order) order (cells.map some)

theorem map_takenOut {places order : List Nat} (distinct : order.Nodup) {cells : List (Cell n)}
    {slots : List (Option (Cell n))}
    (filled : ∀ old ∈ order, ∃ cell, cells[old]? = some cell ∧ slots[old]? = some (some cell)) :
    (takenOut places order slots).map some = order.map fun old => cells[old]?.map (Cell.moved places) := by
  induction order generalizing slots with
  | nil => rfl
  | cons old order ih =>
    obtain ⟨cell, shown, slot⟩ := filled old List.mem_cons_self
    rw [List.nodup_cons] at distinct
    have rest : ∀ other ∈ order,
        ∃ cell, cells[other]? = some cell ∧ (slots.set old none)[other]? = some (some cell) := by
      intro other member
      have different : old ≠ other := fun same => distinct.1 (same ▸ member)
      rw [List.getElem?_set_ne different]
      exact filled other (List.mem_cons_of_mem old member)
    simp [takenOut, slot, shown, ih distinct.2 rest]

def newPlace (fields : List (Field n)) (old : Nat) : Nat := (inverted (sortedPlaces fields)).getD old 0

section

variable {fields : List (Field n)} {cells : List (Cell n)} {old new : Nat}

theorem sortedPlaces_eq (fields : List (Field n)) :
    sortedPlaces fields =
      (fields.zipIdx.mergeSort fun a b => precedes a.1.index b.1.index).map Prod.snd := by
  have indexed : ∀ entry ∈ fields.zipIdx, indexAt fields entry.2 = entry.1.index := by
    intro entry member
    rw [indexAt, List.mem_zipIdx_iff_getElem?.mp member]
  have alike : ∀ a ∈ fields.zipIdx, ∀ b ∈ fields.zipIdx, precedes a.1.index b.1.index =
      precedes (indexAt fields a.2) (indexAt fields b.2) := by
    intro a member b memberToo
    rw [indexed a member, indexed b memberToo]
  rw [List.map_mergeSort (s := fun a b => precedes (indexAt fields a) (indexAt fields b)) alike, List.zipIdx_map_snd,
    sortedPlaces, List.range_eq_range']

theorem perm_sortedPlaces (fields : List (Field n)) : (sortedPlaces fields).Perm (List.range fields.length) :=
  List.mergeSort_perm _ _

theorem newPlace_of_placed (placed : (sortedPlaces fields)[new]? = some old) : newPlace fields old = new := by
  have perm := perm_sortedPlaces fields
  have whole : (sortedPlaces fields).Perm (List.range (sortedPlaces fields).length) := by
    rwa [perm.length_eq, List.length_range]
  rw [newPlace, List.getD_eq_getElem?_getD, getElem?_inverted whole placed, Option.getD_some]

theorem placed_newPlace (inside : old < fields.length) :
    (sortedPlaces fields)[newPlace fields old]? = some old := by
  have listed : old ∈ sortedPlaces fields := (perm_sortedPlaces fields).mem_iff.mpr (List.mem_range.mpr inside)
  obtain ⟨new, placed⟩ := List.mem_iff_getElem?.mp listed
  rwa [newPlace_of_placed placed]

theorem newPlace_injective {other : Nat} (inside : old < fields.length) (insideToo : other < fields.length)
    (same : newPlace fields old = newPlace fields other) : old = other := by
  have placed := placed_newPlace inside
  rw [same, placed_newPlace insideToo] at placed
  exact (Option.some.inj placed).symm

theorem newPlace_eq_findIdx (inside : old < fields.length) :
    newPlace fields old =
      (fields.zipIdx.mergeSort fun a b => precedes a.1.index b.1.index).findIdx fun entry => entry.2 == old := by
  have perm := List.mergeSort_perm fields.zipIdx fun a b => precedes a.1.index b.1.index
  have found := getElem?_findIdx perm (List.getElem?_eq_getElem inside)
  apply newPlace_of_placed
  rw [sortedPlaces_eq, List.getElem?_map, found, Option.map_some]

theorem map_some_reordered (cells : List (Cell n)) :
    (reordered cells).map some = (sortedPlaces (cells.map Cell.field)).map fun old =>
      cells[old]?.map (Cell.moved (inverted (sortedPlaces (cells.map Cell.field)))) := by
  have perm := perm_sortedPlaces (cells.map Cell.field)
  apply map_takenOut (perm.nodup_iff.mpr List.nodup_range)
  intro old member
  have inside : old < cells.length := by simpa using perm.mem_iff.mp member
  exact ⟨cells[old], List.getElem?_eq_getElem inside, by simp [inside]⟩

theorem length_reordered (cells : List (Cell n)) : (reordered cells).length = cells.length := by
  have lengths := congrArg List.length (map_some_reordered cells)
  simpa [(perm_sortedPlaces (cells.map Cell.field)).length_eq] using lengths

theorem getElem?_reordered_iff {moved : Cell n} : (reordered cells)[new]? = some moved ↔
    ∃ old cell, (sortedPlaces (cells.map Cell.field))[new]? = some old ∧ cells[old]? = some cell ∧
      cell.moved (inverted (sortedPlaces (cells.map Cell.field))) = moved := by
  have entries := congrArg (fun entries => entries[new]?.bind id) (map_some_reordered cells)
  rw [List.getElem?_map, List.getElem?_map, Option.bind_map, Option.bind_map] at entries
  have shown : (reordered cells)[new]? = (sortedPlaces (cells.map Cell.field))[new]?.bind fun old =>
      cells[old]?.map (Cell.moved (inverted (sortedPlaces (cells.map Cell.field)))) :=
    (Option.bind_fun_some _).symm.trans entries
  simp only [shown, Option.bind_eq_some_iff, Option.map_eq_some_iff, exists_and_left]

theorem map_field_reordered (tracked : Tracked cells) :
    (reordered cells).map Cell.field = inOrder (cells.map Cell.field) := by
  let fields := cells.map Cell.field
  let sorted := fields.zipIdx.mergeSort fun a b => precedes a.1.index b.1.index
  have listed : ∀ entry ∈ sorted, fields[entry.2]? = some entry.1 := fun entry member =>
    List.mem_zipIdx_iff_getElem?.mp ((List.mergeSort_perm _ _).mem_iff.mp member)
  have each : ∀ entry ∈ sorted,
      (cells[entry.2]?.map (Cell.moved (inverted (sortedPlaces fields)))).map Cell.field =
        some { entry.1 with parent := entry.1.parent.map fun old => sorted.findIdx fun other => other.2 == old } := by
    intro entry member
    have placed := listed entry member
    obtain ⟨cell, stored, shown⟩ := Option.map_eq_some_iff.mp (List.getElem?_map.symm.trans placed)
    have parents : entry.1.parent.map (fun old => (inverted (sortedPlaces fields)).getD old 0) =
        entry.1.parent.map fun old => sorted.findIdx fun other => other.2 == old := by
      apply Option.map_congr
      intro parent above
      have inside := tracked.parents entry.1 (List.mem_of_getElem? placed) parent above
      exact newPlace_eq_findIdx (by simpa [fields] using inside)
    rw [stored, Option.map_some, Option.map_some, Cell.moved, shown, parents]
  have moved := congrArg (List.map (Option.map Cell.field)) (map_some_reordered cells)
  rw [sortedPlaces_eq, List.map_map, List.map_map, List.map_map] at moved
  apply List.map_injective_iff.mpr (Option.some_injective _)
  calc ((reordered cells).map Cell.field).map some
    _ = (reordered cells).map (Option.map Cell.field ∘ some) := List.map_map
    _ = sorted.map (some ∘ fun entry => { entry.1 with
          parent := entry.1.parent.map fun old => sorted.findIdx fun other => other.2 == old }) :=
        moved.trans (by rw [← sortedPlaces_eq]; exact List.map_congr_left each)
    _ = (inOrder fields).map some := List.map_map.symm

theorem newPlace_lt {other : Nat} (inside : old < fields.length) (insideToo : other < fields.length)
    (less : indexAt fields old < indexAt fields other) : newPlace fields old < newPlace fields other := by
  have sorted : (sortedPlaces fields).Pairwise fun a b => indexAt fields a ≤ indexAt fields b :=
    pairwise_sortedByIndex (indexAt fields) _
  have placed := placed_newPlace inside
  have placedToo := placed_newPlace insideToo
  by_contra notLess
  rcases Nat.lt_or_eq_of_le (Nat.le_of_not_lt notLess) with before | same
  · obtain ⟨here, shown⟩ := List.getElem?_eq_some_iff.mp placed
    obtain ⟨there, shownToo⟩ := List.getElem?_eq_some_iff.mp placedToo
    have ordered := List.pairwise_iff_getElem.mp sorted _ _ there here before
    rw [shown, shownToo] at ordered
    exact absurd less (not_lt_of_ge ordered)
  · obtain rfl := newPlace_injective insideToo inside same
    exact lt_irrefl _ less

def InSiblingOrder (fields : List (Field n)) : Prop :=
  fields.Pairwise fun field other => field.parent = other.parent → field.index < other.index

theorem lt_newPlace_of_sameParent (ordered : InSiblingOrder fields) {parent : Nat} :
    ((childPlaces fields parent).map (newPlace fields)).Pairwise (· < ·) := by
  rw [List.pairwise_map]
  apply (pairwise_childPlaces fields parent).imp_of_mem
  intro child other member memberToo less
  obtain ⟨field, placed, above⟩ := mem_childPlaces_iff.mp member
  obtain ⟨fieldToo, placedToo, aboveToo⟩ := mem_childPlaces_iff.mp memberToo
  obtain ⟨inside, shown⟩ := List.getElem?_eq_some_iff.mp placed
  obtain ⟨insideToo, shownToo⟩ := List.getElem?_eq_some_iff.mp placedToo
  have indices := List.pairwise_iff_getElem.mp ordered _ _ inside insideToo less
  rw [shown, shownToo] at indices
  apply newPlace_lt inside insideToo
  simpa [indexAt, placed, placedToo] using indices (above.trans aboveToo.symm)

theorem parent_moved_iff (tracked : Tracked cells) {original : Cell n} (member : original ∈ cells)
    (placed : (sortedPlaces (cells.map Cell.field))[new]? = some old) :
    (original.moved (inverted (sortedPlaces (cells.map Cell.field)))).field.parent = some new ↔
      original.field.parent = some old := by
  rw [Cell.moved, Option.map_eq_some_iff]
  constructor
  · rintro ⟨parent, above, moved⟩
    have inside := tracked.parents _ (List.mem_map_of_mem member) parent above
    have placedToo : (sortedPlaces (cells.map Cell.field))[new]? = some parent :=
      moved ▸ placed_newPlace (by simpa using inside)
    rw [above, ← placed, placedToo]
  · intro above
    exact ⟨old, above, newPlace_of_placed placed⟩

theorem map_newPlace_childPlaces (tracked : Tracked cells) (ordered : InSiblingOrder (cells.map Cell.field))
    (placed : (sortedPlaces (cells.map Cell.field))[new]? = some old) :
    (childPlaces (cells.map Cell.field) old).map (newPlace (cells.map Cell.field)) =
      childPlaces ((reordered cells).map Cell.field) new := by
  -- Both lists ascend, so that it is enough that they have the same members.
  apply (lt_newPlace_of_sameParent ordered).eq_of_mem_iff (pairwise_childPlaces _ _)
  intro child
  simp only [List.mem_map, mem_childPlaces_iff, List.getElem?_map, Option.map_eq_some_iff]
  constructor
  · rintro ⟨before, ⟨_, ⟨cell, stored, rfl⟩, above⟩, rfl⟩
    obtain ⟨inside, _⟩ := List.getElem?_eq_some_iff.mp stored
    have shown := getElem?_reordered_iff.mpr ⟨before, cell, placed_newPlace (by simpa using inside), stored, rfl⟩
    exact ⟨_, ⟨_, shown, rfl⟩, (parent_moved_iff tracked (List.mem_of_getElem? stored) placed).mpr above⟩
  · rintro ⟨_, ⟨moved, shown, rfl⟩, above⟩
    obtain ⟨before, cell, placedChild, stored, rfl⟩ := getElem?_reordered_iff.mp shown
    have child := (parent_moved_iff tracked (List.mem_of_getElem? stored) placed).mp above
    exact ⟨before, ⟨_, ⟨cell, stored, rfl⟩, child⟩, newPlace_of_placed placedChild⟩

theorem tracked_reordered (tracked : Tracked cells) (ordered : InSiblingOrder (cells.map Cell.field)) :
    Tracked (reordered cells) where
  parents := by
    intro field member parent above
    obtain ⟨moved, movedMember, rfl⟩ := List.mem_map.mp member
    obtain ⟨new, shown⟩ := List.mem_iff_getElem?.mp movedMember
    obtain ⟨_, cell, _, stored, rfl⟩ := getElem?_reordered_iff.mp shown
    obtain ⟨before, aboveBefore, rfl⟩ := Option.map_eq_some_iff.mp above
    have inside := tracked.parents _ (List.mem_map_of_mem (List.mem_of_getElem? stored)) before aboveBefore
    have placed : (sortedPlaces (cells.map Cell.field))[newPlace (cells.map Cell.field) before]? = some before :=
      placed_newPlace (by simpa using inside)
    have insideToo := (List.getElem?_eq_some_iff.mp placed).1
    rwa [(perm_sortedPlaces _).length_eq, List.length_range, List.length_map, ← length_reordered] at insideToo
  children := by
    intro new moved shown
    obtain ⟨old, cell, placed, stored, rfl⟩ := getElem?_reordered_iff.mp shown
    rw [← map_newPlace_childPlaces tracked ordered placed, ← tracked.children old cell stored]
    rfl

end

def cellsOf (catalog : Catalog n) (naming : String → String) (record : Fin n) : List (Cell n) :=
  reordered (grownCells catalog naming record)

theorem map_field_cellsOf (record : Fin n) :
    (cellsOf catalog naming record).map Cell.field = fieldTree catalog naming record := by
  rw [cellsOf, map_field_reordered (tracked_grownCells record), map_field_grownCells]
  rfl

theorem Holds.unique {fields : List (Field n)} {place : Option Nat} {index other : List Nat}
    (holds : Holds fields place index) (holdsToo : Holds fields place other) : index = other := by
  cases place with
  | none => exact holds.trans holdsToo.symm
  | some number =>
    obtain ⟨field, placed, rfl⟩ := holds
    obtain ⟨fieldToo, placedToo, rfl⟩ := holdsToo
    rw [Option.some.inj (placed.symm.trans placedToo)]

theorem siblingOrder_grow (record : Fin n) : InSiblingOrder (grow catalog naming n 0 [.root record]) := by
  have holds : ∀ site ∈ [Site.root record], Holds ([] : List (Field n)) site.parent site.index := by
    simp [Holds, Site.root]
  have linked : ∀ field ∈ grow catalog naming n 0 [.root record],
      Linked (grow catalog naming n 0 [.root record]) field := linked_grow holds
  apply (pairwise_grow (onLevel_root record)).imp_of_mem
  intro field other member memberToo found same
  obtain ⟨proper, above⟩ := linked field member
  obtain ⟨properToo, aboveToo⟩ := linked other memberToo
  -- With one parent they are on one level, and there the index decides which one is found first.
  have stems : field.index.dropLast = other.index.dropLast := above.unique (same ▸ aboveToo)
  have depths : field.depth = other.depth := by
    have lengths := congrArg List.length stems
    rw [List.length_dropLast, List.length_dropLast] at lengths
    have long := List.length_pos_of_ne_nil proper
    have longToo := List.length_pos_of_ne_nil properToo
    simp only [Field.depth]
    omega
  rcases found with less | ⟨_, less⟩
  · exact absurd depths (Nat.ne_of_lt less)
  · exact less

theorem tracked_cellsOf (record : Fin n) : Tracked (cellsOf catalog naming record) := by
  apply tracked_reordered (tracked_grownCells record)
  rw [map_field_grownCells]
  exact siblingOrder_grow record

end SqlComposer
