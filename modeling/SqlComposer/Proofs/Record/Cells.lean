import SqlComposer.Proofs.Record.Queue

namespace SqlComposer

variable {n : Nat} {catalog : Catalog n} {naming : String → String}

structure Cell (n : Nat) where
  field : Field n
  children : List Nat := []
deriving DecidableEq, Repr

namespace Cell

def enter (parent : Option Nat) (place : Nat) (cells : List (Cell n)) : List (Cell n) :=
  match parent with
  | none => cells
  | some parent => cells.modify parent fun cell => { cell with children := cell.children ++ [place] }

theorem getElem?_enter (parent : Option Nat) (place : Nat) (cells : List (Cell n)) (number : Nat) :
    (enter parent place cells)[number]? = cells[number]?.map fun cell =>
      if parent = some number then { cell with children := cell.children ++ [place] } else cell := by
  cases parent with
  | none => simp [enter]
  | some parent => simp [enter, List.getElem?_modify]

@[simp] theorem length_enter (parent : Option Nat) (place : Nat) (cells : List (Cell n)) :
    (enter parent place cells).length = cells.length := by
  cases parent <;> simp [enter]

@[simp] theorem map_field_enter (parent : Option Nat) (place : Nat) (cells : List (Cell n)) :
    (enter parent place cells).map Cell.field = cells.map Cell.field := by
  apply List.ext_getElem?
  intro number
  rw [List.getElem?_map, List.getElem?_map, getElem?_enter, Option.map_map]
  congr 1
  funext cell
  simp only [Function.comp_apply]
  split <;> rfl

end Cell

structure Growth (n : Nat) where
  pending : List (Site n)
  cells : List (Cell n) := []

namespace Growth

def start (record : Fin n) : Growth n := { pending := [.root record] }

def add (site : Site n) (growth : Growth n) (field : Field n) : Growth n :=
  let place := growth.cells.length
  { pending := growth.pending ++ (site.below? field place).toList
    cells := Cell.enter site.parent place (growth.cells ++ [{ field }]) }

def turn? (catalog : Catalog n) (naming : String → String) (growth : Growth n) : Option (Growth n) :=
  match growth.pending with
  | [] => none
  | site :: rest => some ((site.fields naming catalog).foldl (add site) { growth with pending := rest })

def queue (growth : Growth n) : Queue n := ⟨growth.pending, growth.cells.map Cell.field⟩

theorem queue_foldl_add (site : Site n) (fields : List (Field n)) (growth : Growth n) :
    (fields.foldl (add site) growth).queue =
      ⟨growth.pending ++ nextSites growth.cells.length (fields.map (site, ·)),
        growth.cells.map Cell.field ++ fields⟩ := by
  induction fields generalizing growth with
  | nil => simp [queue, nextSites]
  | cons field fields ih =>
    have longer : (growth.add site field).cells.length = growth.cells.length + 1 := by simp [add]
    rw [List.foldl_cons, ih, longer, List.map_cons, nextSites_cons]
    simp [add]

theorem map_queue_turn? (growth : Growth n) :
    (growth.turn? catalog naming).map queue = growth.queue.turn? catalog naming := by
  unfold turn? Queue.turn?
  cases pending : growth.pending with
  | nil => simp [queue, pending]
  | cons site rest =>
    have made := queue_foldl_add site (site.fields naming catalog) { growth with pending := rest }
    simpa [queue, pending] using made

theorem turn_of_turn? {growth next : Growth n} (turned : growth.turn? catalog naming = some next) :
    Queue.Turn catalog naming growth.queue next.queue := by
  rw [Queue.Turn, ← map_queue_turn?, turned, Option.map_some]

def finish (catalog : Catalog n) (naming : String → String) (growth : Growth n) : List (Cell n) :=
  match _turned : growth.turn? catalog naming with
  | none => growth.cells
  | some next => finish catalog naming next
termination_by (Queue.wellFounded_turn catalog naming).wrap growth.queue
decreasing_by exact turn_of_turn? _turned

theorem finish_of_turn? {growth next : Growth n} (turned : growth.turn? catalog naming = some next) :
    finish catalog naming growth = finish catalog naming next := by
  rw [finish]
  split
  · next ended => simp [turned] at ended
  · next other turnedToo =>
    obtain rfl := Option.some.inj (turned.symm.trans turnedToo)
    rfl

theorem finish_of_ended {growth : Growth n} (ended : growth.turn? catalog naming = none) :
    finish catalog naming growth = growth.cells := by
  rw [finish]
  split
  · rfl
  · next turned => simp [ended] at turned

theorem map_field_finish {growth : Growth n} {fields : List (Field n)}
    (turns : Queue.Turns catalog naming growth.queue ⟨[], fields⟩) :
    (finish catalog naming growth).map Cell.field = fields := by
  generalize shown : growth.queue = queue at turns
  induction turns using Relation.ReflTransGen.head_induction_on generalizing growth with
  | refl =>
    have ended : growth.turn? catalog naming = none := by simp [turn?, (Queue.mk.inj shown).1]
    rw [finish_of_ended ended]
    exact (Queue.mk.inj shown).2
  | head turn _ ih =>
    rw [Queue.Turn, ← shown, ← map_queue_turn?] at turn
    obtain ⟨next, turned, shownNext⟩ := Option.map_eq_some_iff.mp turn
    rw [finish_of_turn? turned]
    exact ih shownNext

end Growth

def childPlaces (fields : List (Field n)) (place : Nat) : List Nat :=
  (fields.zipIdx.filter fun entry => entry.1.parent == some place).map Prod.snd

theorem mem_childPlaces_iff {fields : List (Field n)} {place child : Nat} :
    child ∈ childPlaces fields place ↔ ∃ field, fields[child]? = some field ∧ field.parent = some place := by
  simp only [childPlaces, List.mem_map, List.mem_filter, beq_iff_eq, Prod.exists, List.mem_zipIdx_iff_getElem?]
  constructor
  · rintro ⟨field, _, ⟨placed, above⟩, rfl⟩
    exact ⟨field, placed, above⟩
  · rintro ⟨field, placed, above⟩
    exact ⟨field, child, ⟨placed, above⟩, rfl⟩

theorem pairwise_childPlaces (fields : List (Field n)) (place : Nat) :
    (childPlaces fields place).Pairwise (· < ·) := by
  have numbers : (fields.zipIdx.map Prod.snd).Pairwise (· < ·) := by
    rw [List.zipIdx_map_snd]
    exact List.pairwise_lt_range'
  exact List.pairwise_map.mpr ((List.pairwise_map.mp numbers).filter _)

theorem childPlaces_concat (fields : List (Field n)) (field : Field n) (place : Nat) :
    childPlaces (fields ++ [field]) place =
      childPlaces fields place ++ if field.parent = some place then [fields.length] else [] := by
  rw [childPlaces, List.zipIdx_append, List.filter_append, List.map_append]
  congr 1
  by_cases above : field.parent = some place <;> simp [above]

theorem childPlaces_eq_nil {fields : List (Field n)} {place : Nat}
    (free : ∀ field ∈ fields, field.parent ≠ some place) : childPlaces fields place = [] := by
  refine List.eq_nil_iff_forall_not_mem.mpr fun child member => ?_
  obtain ⟨field, placed, above⟩ := mem_childPlaces_iff.mp member
  exact free field (List.mem_of_getElem? placed) above

structure Tracked (cells : List (Cell n)) : Prop where
  parents : ∀ field ∈ cells.map Cell.field, ∀ parent ∈ field.parent, parent < cells.length
  children : ∀ place cell, cells[place]? = some cell → cell.children = childPlaces (cells.map Cell.field) place

namespace Growth

structure Tracks (growth : Growth n) : Prop where
  cells : Tracked growth.cells
  pending : ∀ site ∈ growth.pending, ∀ parent ∈ site.parent, parent < growth.cells.length

theorem tracked_add {site : Site n} {growth : Growth n} {field : Field n} (tracked : Tracked growth.cells)
    (placed : ∀ parent ∈ site.parent, parent < growth.cells.length) (below : field.parent = site.parent) :
    Tracked (growth.add site field).cells where
  parents := by
    intro other member parent above
    have longer : (growth.add site field).cells.length = growth.cells.length + 1 := by simp [add]
    rw [longer]
    simp only [add, Cell.map_field_enter, List.map_append, List.mem_append, List.map_cons, List.map_nil,
      List.mem_singleton] at member
    rcases member with old | rfl
    · exact Nat.lt_succ_of_lt (tracked.parents other old parent above)
    · exact Nat.lt_succ_of_lt (placed parent (below ▸ above))
  children := by
    intro place cell shown
    simp only [add, Cell.getElem?_enter, Option.map_eq_some_iff] at shown
    obtain ⟨original, shown, rfl⟩ := shown
    have fields : (growth.add site field).cells.map Cell.field = growth.cells.map Cell.field ++ [field] := by
      simp [add]
    rw [fields, childPlaces_concat, below, List.length_map]
    rw [List.getElem?_append] at shown
    split at shown
    · rw [← tracked.children place original shown]
      split <;> simp
    · next behind =>
      -- The new cell is the last one, and no cell has it as its parent yet.
      obtain ⟨inside, rfl⟩ := List.getElem?_eq_some_iff.mp shown
      have last : place = growth.cells.length := by simp at inside; omega
      have none : childPlaces (growth.cells.map Cell.field) place = [] := by
        apply childPlaces_eq_nil
        intro other member above
        have less := tracked.parents other member place above
        omega
      have apart : site.parent ≠ some place := by
        intro above
        have less := placed place above
        omega
      rw [none, if_neg apart, if_neg apart]
      simp [last]

theorem Tracks.add {site : Site n} {growth : Growth n} {field : Field n} (tracks : growth.Tracks)
    (placed : ∀ parent ∈ site.parent, parent < growth.cells.length) (below : field.parent = site.parent) :
    (growth.add site field).Tracks where
  cells := tracked_add tracks.cells placed below
  pending := by
    have longer : (growth.add site field).cells.length = growth.cells.length + 1 := by simp [Growth.add]
    intro other member parent above
    rw [longer]
    rcases List.mem_append.mp member with waiting | added
    · exact Nat.lt_succ_of_lt (tracks.pending other waiting parent above)
    · obtain ⟨_, _, here, _⟩ := below?_eq_some (Option.mem_toList.mp added)
      obtain rfl := Option.some.inj (here.symm.trans above)
      exact Nat.lt_succ_self _

theorem Tracks.foldl_add {site : Site n} {growth : Growth n} (tracks : growth.Tracks)
    (placed : ∀ parent ∈ site.parent, parent < growth.cells.length) {fields : List (Field n)}
    (below : ∀ field ∈ fields, field.parent = site.parent) : (fields.foldl (Growth.add site) growth).Tracks := by
  induction fields generalizing growth with
  | nil => exact tracks
  | cons field fields ih =>
    have first := tracks.add placed (below field List.mem_cons_self)
    refine ih first (fun parent above => ?_) fun other member => below other (List.mem_cons_of_mem _ member)
    exact Nat.lt_of_lt_of_le (placed parent above) (by simp [Growth.add])

theorem Tracks.turn {growth next : Growth n} (tracks : growth.Tracks)
    (turned : growth.turn? catalog naming = some next) : next.Tracks := by
  unfold turn? at turned
  split at turned
  · cases turned
  · next site rest pending =>
    obtain rfl := Option.some.inj turned
    have waiting : ({ growth with pending := rest } : Growth n).Tracks :=
      ⟨tracks.cells, fun other member => tracks.pending other (pending ▸ List.mem_cons_of_mem site member)⟩
    refine waiting.foldl_add (tracks.pending site (pending ▸ List.mem_cons_self)) fun field member => ?_
    obtain ⟨entry, _, rfl⟩ := List.mem_map.mp member
    rfl

theorem Tracks.finish {growth : Growth n} (tracks : growth.Tracks) :
    Tracked (growth.finish catalog naming) := by
  fun_induction Growth.finish catalog naming growth with
  | case1 growth ended => exact tracks.cells
  | case2 growth next turned ih => exact ih (tracks.turn turned)

theorem tracks_start (record : Fin n) : (start record).Tracks where
  cells := ⟨by simp [start], by simp [start]⟩
  pending := by simp [start, Site.root]

end Growth

def grownCells (catalog : Catalog n) (naming : String → String) (record : Fin n) : List (Cell n) :=
  (Growth.start record).finish catalog naming

theorem map_field_grownCells (record : Fin n) :
    (grownCells catalog naming record).map Cell.field = grow catalog naming n 0 [.root record] :=
  Growth.map_field_finish (Queue.turns_start record)

theorem tracked_grownCells (record : Fin n) : Tracked (grownCells catalog naming record) :=
  (Growth.tracks_start record).finish

end SqlComposer
