import SqlComposer.Proofs.Record.LookUp
import SqlComposer.Proofs.Record.Recursion
import SqlComposer.Proofs.Record.Reordering
/-!
A record type as it is stored: cells with the places of their parents and children, and tables of places by index, by
path and by column.

The tables are filled in one run over the fields in their final order. The places in a table and the fields that contend
for a name change in step, so that what is stored is what the codec says.
-/

namespace SqlComposer

variable {n : Nat} {catalog : Catalog n} {naming : String → String} {record : Fin n}

/-! ## Filling a table -/

namespace Store

variable {α : Type}

def replace (clashes : α → Bool) (entry : α) (entries : List α) : List α := entries.eraseP clashes ++ [entry]

def challenge (clashes higher : α → Bool) (entry : α) (entries : List α) : List α :=
  if (entries.find? clashes).any higher then entries else replace clashes entry entries

end Store

namespace Codec

open Store

def enterIndex (indexes : List (List Nat × Nat)) (entry : Field n × Nat) : List (List Nat × Nat) :=
  replace (·.1 == entry.1.index) (entry.1.index, entry.2) indexes

def enterName (fields : List (Field n)) (names : List (String × Nat)) (entry : Field n × Nat) : List (String × Nat) :=
  if entry.1.isNamed then
    challenge (·.1 == entry.1.path) (fun holder => (indexAt fields holder.2).length < entry.1.depth)
      (entry.1.path, entry.2) names
  else names

def enterColumn (codec : Codec n) (columns : List Nat) (entry : Field n × Nat) : List Nat :=
  if entry.1.isNamed && (codec.columnAncestor? entry.1).isNone then
    challenge (fun place => codec.fields[place]?.any (sameColumn entry.1))
      (fun place => (indexAt codec.fields place).length < entry.1.depth) entry.2 columns
  else columns

end Codec

structure Store (n : Nat) where
  cells : List (Cell n)
  indexes : List (List Nat × Nat)
  names : List (String × Nat)
  properties : List Nat
deriving DecidableEq, Repr

namespace Store

def parent? (store : Store n) (cell : Cell n) : Option (Cell n) :=
  cell.field.parent.bind fun place => store.cells[place]?

def children (store : Store n) (cell : Cell n) : List (Cell n) :=
  cell.children.filterMap fun place => store.cells[place]?

end Store

def Codec.stored (codec : Codec n) (cells : List (Cell n)) : Store n where
  cells := cells
  indexes := codec.fields.zipIdx.foldl Codec.enterIndex []
  names := codec.fields.zipIdx.foldl (Codec.enterName codec.fields) []
  properties := (codec.fields.zipIdx.foldl codec.enterColumn []).mergeSort fun a b =>
    precedes (indexAt codec.fields a) (indexAt codec.fields b)

def storeOf (catalog : Catalog n) (naming : String → String) (record : Fin n) : Store n :=
  let cells := cellsOf catalog naming record
  Codec.stored { record, typeName := (catalog record).typeName, fields := cells.map Cell.field } cells

/-! ## Places and fields in step -/

theorem contend_eq (clashes : Field n → Field n → Bool) (winners : List (Field n)) (field : Field n) :
    Codec.contend clashes winners field = Store.challenge (clashes field) (·.depth < field.depth) field winners := by
  unfold Codec.contend Store.challenge Store.replace
  cases found : winners.find? (clashes field) with
  | none =>
    have nobody : winners.eraseP (clashes field) = winners := List.eraseP_of_forall_not (List.find?_eq_none.mp found)
    simp [nobody]
  | some winner =>
    -- Nothing in front of the winner clashes: to erase the winner is to erase the first that does.
    obtain ⟨clash, before, after, rfl, missed⟩ := List.find?_eq_some_iff_append.mp found
    have absent : winner ∉ before := fun member => by simpa [clash] using missed winner member
    have skipped : ∀ other ∈ before, ¬ clashes field other = true := fun other member => by
      simpa using missed other member
    have erased : (before ++ winner :: after).erase winner = (before ++ winner :: after).eraseP (clashes field) := by
      rw [List.erase_append_right _ absent, List.erase_cons_head, List.eraseP_append_right _ skipped,
        List.eraseP_cons_of_pos clash]
    simp [erased]

section

variable {α : Type} {shows : α → Field n → Prop} {entries : List α} {winners : List (Field n)}

theorem forall₂_find? (step : List.Forall₂ shows entries winners) {accepts : α → Bool} {acceptsField : Field n → Bool}
    (alike : ∀ entry field, shows entry field → accepts entry = acceptsField field) :
    Option.Rel shows (entries.find? accepts) (winners.find? acceptsField) := by
  induction step with
  | nil => exact .none
  | cons shown _ ih =>
    rw [List.find?_cons, List.find?_cons, alike _ _ shown]
    split
    · exact .some shown
    · exact ih

theorem forall₂_eraseP (step : List.Forall₂ shows entries winners) {accepts : α → Bool}
    {acceptsField : Field n → Bool} (alike : ∀ entry field, shows entry field → accepts entry = acceptsField field) :
    List.Forall₂ shows (entries.eraseP accepts) (winners.eraseP acceptsField) := by
  induction step with
  | nil => exact .nil
  | cons shown rest ih =>
    rw [List.eraseP_cons, List.eraseP_cons, alike _ _ shown, cond_eq_ite, cond_eq_ite]
    split
    · exact rest
    · exact .cons shown ih

theorem forall₂_challenge (step : List.Forall₂ shows entries winners) {entry : α} {field : Field n}
    (shown : shows entry field) {clashes higher : α → Bool} {clashesField higherField : Field n → Bool}
    (alike : ∀ other fieldToo, shows other fieldToo → clashes other = clashesField fieldToo)
    (level : ∀ other fieldToo, shows other fieldToo → higher other = higherField fieldToo) :
    List.Forall₂ shows (Store.challenge clashes higher entry entries)
      (Store.challenge clashesField higherField field winners) := by
  have stays : (entries.find? clashes).any higher = (winners.find? clashesField).any higherField := by
    have found := forall₂_find? step alike
    revert found
    generalize entries.find? clashes = holder, winners.find? clashesField = winner
    rintro (found | _)
    · exact level _ _ found
    · rfl
  unfold Store.challenge
  rw [stays]
  split
  · exact step
  · exact List.rel_append (forall₂_eraseP step alike) (.cons shown .nil)

theorem forall₂_foldl {enter : List α → Field n × Nat → List α} {keeps : Field n → Bool}
    {clashes : Field n → Field n → Bool} {numbered : List (Field n × Nat)}
    (each : ∀ entry ∈ numbered, ∀ entries winners, List.Forall₂ shows entries winners →
      List.Forall₂ shows (enter entries entry)
        (if keeps entry.1 then Codec.contend clashes winners entry.1 else winners))
    (step : List.Forall₂ shows entries winners) :
    List.Forall₂ shows (numbered.foldl enter entries)
      (((numbered.map Prod.fst).filter keeps).foldl (Codec.contend clashes) winners) := by
  induction numbered generalizing entries winners with
  | nil => exact step
  | cons entry numbered ih =>
    have first := each entry List.mem_cons_self entries winners step
    have rest := ih (fun other member => each other (List.mem_cons_of_mem _ member)) first
    rw [List.map_cons, List.filter_cons, List.foldl_cons]
    split at rest <;> simp_all

end

namespace Codec

variable (codec : Codec n)

theorem indexAt_of_getElem? {fields : List (Field n)} {place : Nat} {field : Field n}
    (placed : fields[place]? = some field) : indexAt fields place = field.index := by
  rw [indexAt, placed]

theorem forall₂_names :
    List.Forall₂ (fun entry field => codec.fields[entry.2]? = some field ∧ entry.1 = field.path)
      (codec.fields.zipIdx.foldl (enterName codec.fields) [])
      ((codec.fields.filter (·.isNamed)).foldl (contend samePath) []) := by
  conv_rhs => rw [← List.zipIdx_map_fst 0 codec.fields]
  refine forall₂_foldl (fun entry member entries winners step => ?_) .nil
  have placed := List.mem_zipIdx_iff_getElem?.mp member
  unfold enterName
  split
  · rw [contend_eq]
    refine forall₂_challenge step ⟨placed, rfl⟩ ?_ ?_
    · rintro other field ⟨_, path⟩
      rw [samePath, path, Bool.beq_comm]
    · rintro other field ⟨placedToo, _⟩
      rw [indexAt_of_getElem? placedToo]
      rfl
  · exact step

theorem forall₂_columns :
    List.Forall₂ (fun place field => codec.fields[place]? = some field)
      (codec.fields.zipIdx.foldl codec.enterColumn [])
      ((codec.fields.filter fun field => field.isNamed && (codec.columnAncestor? field).isNone).foldl
        (contend sameColumn) []) := by
  conv_rhs => rw [← List.zipIdx_map_fst 0 codec.fields]
  refine forall₂_foldl (fun entry member entries winners step => ?_) .nil
  have placed := List.mem_zipIdx_iff_getElem?.mp member
  unfold enterColumn
  split
  · rw [contend_eq]
    refine forall₂_challenge step placed ?_ ?_
    · intro other field placedToo
      rw [placedToo, Option.any_some]
    · intro other field placedToo
      rw [indexAt_of_getElem? placedToo]
      rfl
  · exact step

/-! ## What the tables hold -/

theorem map_eq_map_of_forall₂ {α β γ : Type} {f : α → γ} {g : β → γ} {entries : List α} {items : List β}
    (step : List.Forall₂ (fun entry item => f entry = g item) entries items) : entries.map f = items.map g := by
  rwa [← List.forall₂_eq_eq_eq, List.forall₂_map_left_iff, List.forall₂_map_right_iff]

theorem foldl_enterIndex {numbered : List (Field n × Nat)} {indexes : List (List Nat × Nat)}
    (distinct : (indexes.map Prod.fst ++ numbered.map (·.1.index)).Nodup) :
    numbered.foldl enterIndex indexes = indexes ++ numbered.map fun entry => (entry.1.index, entry.2) := by
  induction numbered generalizing indexes with
  | nil => simp
  | cons entry numbered ih =>
    have free : ∀ other ∈ indexes, ¬ (other.1 == entry.1.index) = true := by
      intro other member same
      have apart := (List.nodup_append.mp distinct).2.2 other.1 (List.mem_map_of_mem member) entry.1.index (by simp)
      exact apart (beq_iff_eq.mp same)
    have entered : enterIndex indexes entry = indexes ++ [(entry.1.index, entry.2)] := by
      rw [enterIndex, Store.replace, List.eraseP_of_forall_not free]
    rw [List.foldl_cons, entered, ih (by simpa using distinct)]
    simp

theorem indexes_stored (ascending : codec.fields.Pairwise fun field other => field.index < other.index)
    (cells : List (Cell n)) :
    (codec.stored cells).indexes = codec.fields.zipIdx.map fun entry => (entry.1.index, entry.2) := by
  apply foldl_enterIndex
  have indices : codec.fields.zipIdx.map (·.1.index) = codec.fields.map Field.index := by
    conv_rhs => rw [← List.zipIdx_map_fst 0 codec.fields, List.map_map]
    rfl
  rw [List.map_nil, List.nil_append, indices]
  exact nodup_index ascending

theorem perm_names_stored (cells : List (Cell n)) :
    ((codec.stored cells).names.map fun entry => (entry.1, codec.fields[entry.2]?)).Perm
      (codec.named.map fun field => (field.path, some field)) := by
  have step : List.Forall₂ (fun entry field => (entry.1, codec.fields[entry.2]?) = (field.path, some field))
      (codec.fields.zipIdx.foldl (enterName codec.fields) [])
      ((codec.fields.filter (·.isNamed)).foldl (contend samePath) []) :=
    codec.forall₂_names.imp fun _ _ shown => Prod.ext shown.2 shown.1
  rw [stored, map_eq_map_of_forall₂ step]
  exact ((List.mergeSort_perm _ _).map _).symm

theorem map_properties_stored (cells : List (Cell n)) :
    (codec.stored cells).properties.map (fun place => codec.fields[place]?) = codec.properties.map some := by
  let before (field other : Option (Field n)) := precedes (field.elim [] Field.index) (other.elim [] Field.index)
  have indexAt_eq (place : Nat) : indexAt codec.fields place = codec.fields[place]?.elim [] Field.index := by
    rw [indexAt]
    cases codec.fields[place]? <;> rfl
  have same := map_eq_map_of_forall₂ codec.forall₂_columns
  rw [stored, List.map_mergeSort (s := before) (fun a _ b _ => by simp only [before, indexAt_eq]), same, properties,
    winners]
  exact (List.map_mergeSort (s := before) (f := some) fun _ _ _ _ => rfl).symm

end Codec

/-! ## Links of the cells -/

namespace Store

section

variable {store : Store n} {cell : Cell n} {place : Nat}
  (linked : ∀ field ∈ store.cells.map Cell.field, Linked (store.cells.map Cell.field) field)
  (ascending : store.cells.Pairwise fun cell other => cell.field.index < other.field.index)
  (tracked : Tracked store.cells)

include ascending in
theorem place_unique {other : Nat} (shown : store.cells[place]? = some cell)
    (shownToo : store.cells[other]? = some cell) : place = other := by
  have distinct : store.cells.Nodup := ascending.imp fun less same => less.ne (congrArg (·.field.index) same)
  obtain ⟨inside, _⟩ := List.getElem?_eq_some_iff.mp shown
  exact (List.getElem?_inj inside distinct).mp (shown.trans shownToo.symm)

include linked in
theorem index_ne_nil (member : cell ∈ store.cells) : cell.field.index ≠ [] :=
  (linked cell.field (List.mem_map_of_mem member)).1

include linked in
theorem parent_cases (member : cell ∈ store.cells) :
    cell.field.parent = none ∧ cell.field.index.dropLast = [] ∨
      ∃ place parent, cell.field.parent = some place ∧ store.cells[place]? = some parent ∧
        parent.field.index = cell.field.index.dropLast := by
  obtain ⟨_, holds⟩ := linked cell.field (List.mem_map_of_mem member)
  cases above : cell.field.parent with
  | none =>
    rw [above] at holds
    exact .inl ⟨rfl, holds⟩
  | some place =>
    rw [above] at holds
    obtain ⟨_, placed, shown⟩ := holds
    obtain ⟨parent, stored, rfl⟩ := Option.map_eq_some_iff.mp (List.getElem?_map.symm.trans placed)
    exact .inr ⟨place, parent, rfl, stored, shown⟩

include linked in
theorem parent?_eq_none_iff (member : cell ∈ store.cells) :
    store.parent? cell = none ↔ cell.field.index.length = 1 := by
  have single : cell.field.index.length = 1 ↔ cell.field.index.dropLast = [] := by
    have long := List.length_pos_of_ne_nil (index_ne_nil linked member)
    rw [← List.length_eq_zero_iff, List.length_dropLast]
    omega
  rw [single, parent?]
  rcases parent_cases linked member with ⟨above, top⟩ | ⟨place, parent, above, stored, shown⟩
  · simp [above, top]
  · have proper := index_ne_nil linked (List.mem_of_getElem? stored)
    rw [shown] at proper
    simp [above, stored, proper]

include linked ascending in
theorem parent?_eq_some_iff {parent : Cell n} (member : cell ∈ store.cells) :
    store.parent? cell = some parent ↔ parent ∈ store.cells ∧ parent.field.index = cell.field.index.dropLast := by
  rw [parent?]
  rcases parent_cases linked member with ⟨above, top⟩ | ⟨place, other, above, stored, shown⟩
  · rw [above, top, Option.bind_none]
    constructor
    · intro nothing
      cases nothing
    · rintro ⟨parentMember, first⟩
      exact absurd first (index_ne_nil linked parentMember)
  · have otherMember := List.mem_of_getElem? stored
    rw [above, Option.bind_some, stored, Option.some.injEq]
    constructor
    · rintro rfl
      exact ⟨otherMember, shown⟩
    · rintro ⟨parentMember, same⟩
      exact eq_of_index ascending otherMember parentMember (shown.trans same.symm)

theorem filterMap_places {α : Type} (items : List α) (keeps : α → Bool) :
    ((items.zipIdx.filter fun entry => keeps entry.1).map Prod.snd).filterMap (fun place => items[place]?) =
      items.filter keeps := by
  have found : ∀ entry ∈ items.zipIdx.filter fun entry => keeps entry.1, items[entry.2]? = some entry.1 :=
    fun entry member => List.mem_zipIdx_iff_getElem?.mp (List.mem_filter.mp member).1
  rw [List.filterMap_map]
  calc (items.zipIdx.filter fun entry => keeps entry.1).filterMap ((fun place => items[place]?) ∘ Prod.snd)
    _ = (items.zipIdx.filter fun entry => keeps entry.1).filterMap (some ∘ Prod.fst) := List.filterMap_congr found
    _ = (items.zipIdx.map Prod.fst).filter keeps := by
      rw [List.filterMap_eq_map, List.filter_map]
      rfl
    _ = items.filter keeps := by rw [List.zipIdx_map_fst]

include tracked in
theorem children_eq_filter_parent (placed : store.cells[place]? = some cell) :
    store.children cell = store.cells.filter fun child => child.field.parent == some place := by
  have listed : childPlaces (store.cells.map Cell.field) place =
      (store.cells.zipIdx.filter fun entry => entry.1.field.parent == some place).map Prod.snd := by
    rw [childPlaces, List.zipIdx_map, List.filter_map, List.map_map]
    rfl
  rw [children, tracked.children place cell placed, listed]
  exact filterMap_places store.cells fun child => child.field.parent == some place

include linked ascending tracked in
theorem children_eq_filter (member : cell ∈ store.cells) :
    store.children cell = store.cells.filter fun child => store.parent? child == some cell := by
  obtain ⟨place, placed⟩ := List.mem_iff_getElem?.mp member
  rw [children_eq_filter_parent tracked placed]
  apply List.filter_congr
  intro child childMember
  rw [Bool.eq_iff_iff, beq_iff_eq, beq_iff_eq, parent?]
  rcases parent_cases linked childMember with ⟨above, _⟩ | ⟨number, parent, above, stored, _⟩
  · simp [above]
  · rw [above, Option.bind_some, Option.some.injEq]
    constructor
    · rintro rfl
      exact placed
    · intro shown
      exact place_unique ascending shown placed

end

end Store

/-! ## The store of a record type -/

theorem Occurs.declared {chain : List (Fin n)} {stem : List Nat} {position : Nat} {decl : FieldDecl n}
    (occurs : Occurs catalog chain record (stem ++ [position]) decl) :
    ∃ inner, recordAt? catalog record stem = some inner ∧ (catalog inner).fields[position]? = some decl := by
  by_cases top : stem = []
  · subst top
    exact ⟨record, rfl, (occurs_singleton_iff.mp occurs).1⟩
  · obtain ⟨_, inner, _, _, _, reached, below⟩ := occurs.split top (List.cons_ne_nil _ _)
    exact ⟨inner, reached, (occurs_singleton_iff.mp below).1⟩

namespace Store

/-- The parent of a field is the one at its index without the last position, and its children are those whose parent it
is, one after the other as their record type declares them. All places are those of fields. -/
structure HasLinks (catalog : Catalog n) (naming : String → String) (record : Fin n) (store : Store n) : Prop where
  parent : ∀ cell ∈ store.cells, ∀ parent,
    store.parent? cell = some parent ↔ parent ∈ store.cells ∧ parent.field.index = cell.field.index.dropLast
  top : ∀ cell ∈ store.cells, store.parent? cell = none ↔ cell.field.index.length = 1
  children : ∀ cell ∈ store.cells,
    store.children cell = store.cells.filter fun child => store.parent? child == some cell
  ordered : ∀ cell ∈ store.cells,
    (store.children cell).Pairwise fun child other => child.field.index < other.field.index
  declared : ∀ cell ∈ store.cells, ∀ child ∈ store.children cell, ∃ inner position decl,
    recordAt? catalog record cell.field.index = some inner ∧ (catalog inner).fields[position]? = some decl ∧
      child.field.index = cell.field.index ++ [position] ∧ child.field.name = decl.nameBy naming
  inside : ∀ cell ∈ store.cells, (∀ place ∈ cell.field.parent, place < store.cells.length) ∧
    ∀ place ∈ cell.children, place < store.cells.length

structure HasTables (codec : Codec n) (store : Store n) : Prop where
  indexes : ∀ index place, (index, place) ∈ store.indexes ↔
    ∃ cell, store.cells[place]? = some cell ∧ cell.field.index = index
  names : ∀ path place, (path, place) ∈ store.names ↔
    ∃ cell, store.cells[place]? = some cell ∧ cell.field.path = path ∧ cell.field ∈ codec.named
  distinct : (store.names.map Prod.fst).Nodup
  properties : store.properties.map (fun place => store.cells[place]?.map Cell.field) = codec.properties.map some

structure Shows (codec : Codec n) (store : Store n) : Prop where
  fields : store.cells.map Cell.field = codec.fields
  parent : ∀ cell ∈ store.cells, (store.parent? cell).map Cell.field = codec.parent? cell.field
  children : ∀ cell ∈ store.cells, (store.children cell).map Cell.field = codec.children cell.field

theorem storeOf_eq (catalog : Catalog n) (naming : String → String) (record : Fin n) :
    storeOf catalog naming record =
      (Codec.build catalog naming record).stored (cellsOf catalog naming record) := by
  rw [storeOf, map_field_cellsOf]
  rfl

theorem cells_storeOf : (storeOf catalog naming record).cells = cellsOf catalog naming record := rfl

theorem fields_storeOf :
    (storeOf catalog naming record).cells.map Cell.field = (Codec.build catalog naming record).fields :=
  map_field_cellsOf record

theorem linked_storeOf : ∀ field ∈ (storeOf catalog naming record).cells.map Cell.field,
    Linked ((storeOf catalog naming record).cells.map Cell.field) field := by
  rw [fields_storeOf]
  exact fun _ => Codec.linked_build

theorem ascending_storeOf :
    (storeOf catalog naming record).cells.Pairwise fun cell other => cell.field.index < other.field.index := by
  have ascending : (Codec.build catalog naming record).fields.Pairwise fun field other => field.index < other.index :=
    ascending_fieldTree record
  rw [← fields_storeOf, List.pairwise_map] at ascending
  exact ascending

theorem hasLinks_storeOf (catalog : Catalog n) (naming : String → String) (record : Fin n) :
    HasLinks catalog naming record (storeOf catalog naming record) where
  parent _ member _ := parent?_eq_some_iff linked_storeOf ascending_storeOf member
  top _ member := parent?_eq_none_iff linked_storeOf member
  children _ member := children_eq_filter linked_storeOf ascending_storeOf (tracked_cellsOf record) member
  ordered cell member := by
    rw [children_eq_filter linked_storeOf ascending_storeOf (tracked_cellsOf record) member]
    exact ascending_storeOf.filter _
  declared cell member child childMember := by
    rw [children_eq_filter linked_storeOf ascending_storeOf (tracked_cellsOf record) member] at childMember
    obtain ⟨childMember, above⟩ := List.mem_filter.mp childMember
    obtain ⟨_, stem⟩ := (parent?_eq_some_iff linked_storeOf ascending_storeOf childMember).mp (beq_iff_eq.mp above)
    have fieldMember : child.field ∈ (Codec.build catalog naming record).fields :=
      fields_storeOf ▸ List.mem_map_of_mem childMember
    obtain ⟨decl, occurs, name, _⟩ := Codec.exists_decl_of_mem fieldMember
    have whole := List.dropLast_append_getLast occurs.ne_nil
    rw [← stem] at whole
    obtain ⟨inner, reached, declared⟩ := (whole ▸ occurs).declared
    exact ⟨inner, _, decl, reached, declared, whole.symm, name⟩
  inside cell member := by
    have tracked : Tracked (cellsOf catalog naming record) := tracked_cellsOf record
    refine ⟨tracked.parents cell.field (List.mem_map_of_mem member), fun child listed => ?_⟩
    obtain ⟨place, placed⟩ := List.mem_iff_getElem?.mp member
    rw [tracked.children place cell placed] at listed
    obtain ⟨_, childPlaced, _⟩ := mem_childPlaces_iff.mp listed
    rw [cells_storeOf]
    simpa using (List.getElem?_eq_some_iff.mp childPlaced).1

theorem getElem?_fields_storeOf {place : Nat} {field : Field n} :
    (Codec.build catalog naming record).fields[place]? = some field ↔
      ∃ cell, (storeOf catalog naming record).cells[place]? = some cell ∧ cell.field = field := by
  rw [← fields_storeOf, List.getElem?_map, Option.map_eq_some_iff]

theorem hasTables_storeOf (catalog : Catalog n) (naming : String → String) (record : Fin n) :
    HasTables (Codec.build catalog naming record) (storeOf catalog naming record) where
  indexes index place := by
    rw [storeOf_eq, Codec.indexes_stored _ (ascending_fieldTree record), ← storeOf_eq, List.mem_map]
    constructor
    · rintro ⟨⟨field, _⟩, member, entered⟩
      obtain ⟨rfl, rfl⟩ := Prod.mk.inj entered
      obtain ⟨cell, placed, rfl⟩ := getElem?_fields_storeOf.mp (List.mem_zipIdx_iff_getElem?.mp member)
      exact ⟨cell, placed, rfl⟩
    · rintro ⟨cell, placed, rfl⟩
      exact ⟨(cell.field, place),
        List.mem_zipIdx_iff_getElem?.mpr (getElem?_fields_storeOf.mpr ⟨cell, placed, rfl⟩), rfl⟩
  names path place := by
    have perm := (Codec.build catalog naming record).perm_names_stored (cellsOf catalog naming record)
    rw [← storeOf_eq] at perm
    constructor
    · intro member
      obtain ⟨field, won, entered⟩ := List.mem_map.mp (perm.mem_iff.mp (List.mem_map_of_mem member))
      obtain ⟨rfl, shown⟩ := Prod.mk.inj entered
      obtain ⟨cell, placed, rfl⟩ := getElem?_fields_storeOf.mp shown.symm
      exact ⟨cell, placed, rfl, won⟩
    · rintro ⟨cell, placed, rfl, won⟩
      obtain ⟨⟨path, other⟩, member, entered⟩ := List.mem_map.mp (perm.mem_iff.mpr (List.mem_map_of_mem won))
      obtain ⟨rfl, shown⟩ := Prod.mk.inj entered
      obtain ⟨cellToo, placedToo, same⟩ := getElem?_fields_storeOf.mp shown
      obtain rfl := eq_of_index ascending_storeOf (List.mem_of_getElem? placedToo) (List.mem_of_getElem? placed)
        (congrArg Field.index same)
      rwa [place_unique ascending_storeOf placed placedToo]
  distinct := by
    have perm := ((Codec.build catalog naming record).perm_names_stored (cellsOf catalog naming record)).map Prod.fst
    rw [← storeOf_eq, List.map_map, List.map_map] at perm
    have once : (Codec.build catalog naming record).named.Nodup :=
      (Codec.ascending_winners Codec.equivalence_samePath (Codec.ascending_isNamed catalog naming record)).imp
        fun less same => less.ne (congrArg Field.index same)
    have apart : ∀ field ∈ (Codec.build catalog naming record).named,
        ∀ other ∈ (Codec.build catalog naming record).named, field.path = other.path → field = other :=
      fun field member other memberToo =>
        (Codec.mem_named_iff.mp member).unique (Codec.mem_named_iff.mp memberToo)
    exact perm.nodup_iff.mpr (once.map_on apart)
  properties := by
    have places := (Codec.build catalog naming record).map_properties_stored (cellsOf catalog naming record)
    rw [← storeOf_eq, ← fields_storeOf] at places
    simpa only [List.getElem?_map] using places

theorem shows_storeOf (catalog : Catalog n) (naming : String → String) (record : Fin n) :
    Shows (Codec.build catalog naming record) (storeOf catalog naming record) where
  fields := fields_storeOf
  parent cell _ := by
    rw [Codec.parent?, parent?, Option.map_bind, ← fields_storeOf]
    simp only [List.getElem?_map]
    rfl
  children cell member := by
    obtain ⟨place, placed⟩ := List.mem_iff_getElem?.mp member
    have shown : (Codec.build catalog naming record).fields[place]? = some cell.field :=
      getElem?_fields_storeOf.mpr ⟨cell, placed, rfl⟩
    have found : (Codec.build catalog naming record).fields.findIdx (fun other => other.index == cell.field.index) =
        place := by
      obtain ⟨inside, here⟩ := List.getElem?_eq_some_iff.mp shown
      refine (List.findIdx_eq inside).mpr ⟨by rw [here, beq_self_eq_true], fun number before => ?_⟩
      have ascending : (Codec.build catalog naming record).fields.Pairwise
          fun field other => field.index < other.index := ascending_fieldTree record
      have less := List.pairwise_iff_getElem.mp ascending _ _ (before.trans inside) inside before
      rw [here] at less
      exact beq_eq_false_iff_ne.mpr less.ne
    rw [children_eq_filter_parent (tracked_cellsOf record) placed, Codec.children, found, ← fields_storeOf,
      List.filter_map]
    rfl

theorem links_are_consistent (catalog : Catalog n) (naming : String → String) (record : Fin n) :
    HasLinks catalog naming record (storeOf catalog naming record) ∧
      HasTables (Codec.build catalog naming record) (storeOf catalog naming record) ∧
      Shows (Codec.build catalog naming record) (storeOf catalog naming record) :=
  ⟨hasLinks_storeOf catalog naming record, hasTables_storeOf catalog naming record,
    shows_storeOf catalog naming record⟩

end Store

end SqlComposer
