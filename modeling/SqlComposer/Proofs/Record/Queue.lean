import Mathlib.Data.Set.Card
import Mathlib.Logic.Hydra
import SqlComposer.Proofs.Record.Growth
/-!
The field tree grown from a queue: each turn takes the first site, adds the fields of its record type, and puts the
sites below them at the end.

One turn may make the queue longer, but every site that it adds has one more record type on its way than the site that
it takes. So the queue runs empty, and no field lies deeper than there are record types to be reached:
`queue_runs_empty`.
-/

namespace SqlComposer

variable {n : Nat}

structure Queue (n : Nat) where
  pending : List (Site n)
  fields : List (Field n) := []

namespace Queue

def start (record : Fin n) : Queue n := { pending := [.root record] }

def turn? (catalog : Catalog n) (naming : String → String) (queue : Queue n) : Option (Queue n) :=
  match queue.pending with
  | [] => none
  | site :: rest =>
    let found := (site.fields naming catalog).map (site, ·)
    some
      { pending := rest ++ nextSites queue.fields.length found
        fields := queue.fields ++ found.map (·.2) }

def Turn (catalog : Catalog n) (naming : String → String) (queue next : Queue n) : Prop :=
  queue.turn? catalog naming = some next

abbrev Turns (catalog : Catalog n) (naming : String → String) : Queue n → Queue n → Prop :=
  Relation.ReflTransGen (Turn catalog naming)

variable {catalog : Catalog n} {naming : String → String} {queue next : Queue n} {record : Fin n}

theorem Turn.cases (turn : Turn catalog naming queue next) :
    ∃ site rest, queue.pending = site :: rest ∧
      next.pending = rest ++ nextSites queue.fields.length ((site.fields naming catalog).map (site, ·)) ∧
      next.fields = queue.fields ++ site.fields naming catalog := by
  unfold Turn turn? at turn
  split at turn
  · cases turn
  · next site rest shown =>
    obtain rfl := Option.some.inj turn
    exact ⟨site, rest, shown, rfl, by simp⟩

theorem exists_of_mem_added {site below : Site n} {start : Nat}
    (member : below ∈ nextSites start ((site.fields naming catalog).map (site, ·))) :
    ∃ field ∈ site.fields naming catalog, ∃ number, site.below? field number = some below := by
  obtain ⟨site, field, number, placed, enters⟩ := exists_of_mem_nextSites member
  obtain ⟨_, declared, same⟩ := List.mem_map.mp (List.fst_mem_of_mem_zipIdx placed)
  obtain ⟨rfl, rfl⟩ := Prod.mk.inj same
  exact ⟨_, declared, number, enters⟩

theorem chain_lt_of_below? {site below : Site n} {field : Field n} {number : Nat}
    (enters : site.below? field number = some below) : site.chain.toFinset < below.chain.toFinset := by
  obtain ⟨free, chain, _⟩ := below?_eq_some enters
  rw [chain, List.toFinset_cons]
  exact Finset.ssubset_insert (by simpa using free)

theorem Turn.cutExpand (turn : Turn catalog naming queue next) :
    Relation.CutExpand (fun below site : Site n => site.chain.toFinset < below.chain.toFinset)
      next.pending queue.pending := by
  obtain ⟨site, rest, pending, pendingNext, _⟩ := turn.cases
  rw [pending, pendingNext]
  refine ⟨nextSites queue.fields.length ((site.fields naming catalog).map (site, ·)), site, ?_, ?_⟩
  · intro below member
    obtain ⟨_, _, _, enters⟩ := exists_of_mem_added (Multiset.mem_coe.mp member)
    exact chain_lt_of_below? enters
  · rw [← Multiset.coe_add, ← Multiset.cons_coe, ← Multiset.singleton_add, add_comm, add_assoc]

theorem wellFounded_turn (catalog : Catalog n) (naming : String → String) :
    WellFounded fun next queue : Queue n => Turn catalog naming queue next := by
  -- There are finitely many record types, so that chains cannot go on getting longer.
  have chains : WellFounded fun below site : Site n => site.chain.toFinset < below.chain.toFinset :=
    InvImage.wf (fun site : Site n => site.chain.toFinset) wellFounded_gt
  have pending := InvImage.wf (fun queue : Queue n => (queue.pending : Multiset (Site n))) chains.cutExpand
  exact Subrelation.wf Turn.cutExpand pending

theorem nextSites_append (start : Nat) (found more : List (Site n × Field n)) :
    nextSites start (found ++ more) = nextSites start found ++ nextSites (start + found.length) more := by
  simp [nextSites, List.zipIdx_append]

theorem turns_level (sites later : List (Site n)) (fields : List (Field n)) :
    Turns catalog naming ⟨sites ++ later, fields⟩
      ⟨later ++ nextSites fields.length (level catalog naming sites),
        fields ++ (level catalog naming sites).map (·.2)⟩ := by
  induction sites generalizing later fields with
  | nil => simpa [level, nextSites] using Relation.ReflTransGen.refl
  | cons site sites ih =>
    let found := (site.fields naming catalog).map (site, ·)
    have first : Turn catalog naming ⟨site :: (sites ++ later), fields⟩
        ⟨sites ++ (later ++ nextSites fields.length found), fields ++ found.map (·.2)⟩ := by
      rw [← List.append_assoc]
      rfl
    have rest := ih (later ++ nextSites fields.length found) (fields ++ found.map (·.2))
    have whole : level catalog naming (site :: sites) = found ++ level catalog naming sites := rfl
    rw [whole, nextSites_append, List.map_append, ← List.append_assoc, ← List.append_assoc]
    rw [List.length_append, List.length_map] at rest
    exact .head first rest

theorem turns_grow {rounds : Nat} {sites : List (Site n)} (fits : ∀ site ∈ sites, site.Fits rounds)
    (fields : List (Field n)) :
    Turns catalog naming ⟨sites, fields⟩ ⟨[], fields ++ grow catalog naming rounds fields.length sites⟩ := by
  induction rounds generalizing sites fields with
  | zero =>
    simpa [eq_nil_of_fits_zero fits, grow] using Relation.ReflTransGen.refl
  | succ rounds ih =>
    let found := level catalog naming sites
    have fitsNext : ∀ site ∈ nextSites fields.length found, site.Fits rounds := fits_nextSites fits fields.length
    have here : Turns catalog naming ⟨sites ++ [], fields⟩
        ⟨nextSites fields.length found, fields ++ found.map (·.2)⟩ := turns_level sites [] fields
    rw [List.append_nil] at here
    have below := ih fitsNext (fields ++ found.map (·.2))
    rw [List.length_append, List.length_map, List.append_assoc] at below
    exact here.trans below

def Refers (catalog : Catalog n) (record inner : Fin n) : Prop :=
  ∃ decl ∈ (catalog record).fields, decl.isKept = true ∧ decl.type.base.record? = some inner

def reachable (catalog : Catalog n) (record : Fin n) : Set (Fin n) :=
  {inner | Relation.ReflTransGen (Refers catalog) record inner}

structure Descends (catalog : Catalog n) (root : Fin n) (site : Site n) : Prop where
  distinct : site.chain.Nodup
  reached : ∀ inner ∈ site.chain, inner ∈ reachable catalog root
  last : site.record ∈ site.chain
  long : site.chain.length = site.index.length + 1

theorem descends_root (record : Fin n) : Descends catalog record (.root record) where
  distinct := List.nodup_singleton record
  reached := by
    intro inner member
    obtain rfl := List.mem_singleton.mp member
    exact Relation.ReflTransGen.refl
  last := List.mem_singleton_self record
  long := rfl

section

variable {root : Fin n} {site : Site n} (descends : Descends catalog root site) {field : Field n}
  (member : field ∈ site.fields naming catalog)

include descends

theorem Descends.length_le : site.chain.length ≤ (reachable catalog root).ncard := by
  rw [← List.toFinset_card_of_nodup descends.distinct, ← Set.ncard_coe_finset]
  apply Set.ncard_le_ncard _ (Set.toFinite _)
  intro inner inChain
  exact descends.reached inner (by simpa using inChain)

include member

theorem Descends.depth_le : field.depth ≤ (reachable catalog root).ncard := by
  obtain ⟨entry, _, rfl⟩ := List.mem_map.mp member
  have depth : (site.field naming entry.2 entry.1).depth = site.chain.length := by
    rw [descends.long, Field.depth, Site.field, List.length_append, List.length_singleton]
  exact depth ▸ descends.length_le

theorem Descends.below {below : Site n} {number : Nat} (enters : site.below? field number = some below) :
    Descends catalog root below := by
  obtain ⟨inner, leads, free, rfl⟩ := below?_made enters
  obtain ⟨⟨decl, position⟩, kept, rfl⟩ := List.mem_map.mp member
  obtain ⟨declared, isKept⟩ := mem_keptFields.mp kept
  have refers : Refers catalog site.record inner := ⟨decl, List.mem_of_getElem? declared, isKept, leads⟩
  constructor
  · exact List.nodup_cons.mpr ⟨free, descends.distinct⟩
  · intro other inChain
    rcases List.mem_cons.mp inChain with rfl | before
    · exact (descends.reached site.record descends.last).tail refers
    · exact descends.reached other before
  · exact List.mem_cons_self
  · simp [Site.field, descends.long]

end

structure Shallow (catalog : Catalog n) (root : Fin n) (queue : Queue n) : Prop where
  pending : ∀ site ∈ queue.pending, Descends catalog root site
  found : ∀ field ∈ queue.fields, field.depth ≤ (reachable catalog root).ncard

theorem shallow_start (record : Fin n) : Shallow catalog record (start record) where
  pending := by simpa [start] using descends_root record
  found := by simp [start]

theorem Shallow.turn {root : Fin n} (shallow : Shallow catalog root queue) (turn : Turn catalog naming queue next) :
    Shallow catalog root next := by
  obtain ⟨site, rest, pending, pendingNext, fieldsNext⟩ := turn.cases
  have descends : Descends catalog root site := shallow.pending site (pending ▸ List.mem_cons_self)
  constructor
  · intro below member
    rcases List.mem_append.mp (pendingNext ▸ member) with waiting | added
    · exact shallow.pending below (pending ▸ List.mem_cons_of_mem site waiting)
    · obtain ⟨field, declared, _, enters⟩ := exists_of_mem_added added
      exact descends.below declared enters
  · intro field member
    rcases List.mem_append.mp (fieldsNext ▸ member) with before | here
    · exact shallow.found field before
    · exact descends.depth_le here

theorem Shallow.turns {root : Fin n} (shallow : Shallow catalog root queue)
    (turns : Turns catalog naming queue next) : Shallow catalog root next := by
  induction turns with
  | refl => exact shallow
  | tail _ turn ih => exact ih.turn turn

/-- From the root no run goes on forever. The fields found when the queue is empty are those of the codec, and none
that is found on the way lies deeper than there are record types to be reached. -/
structure RunsEmpty (catalog : Catalog n) (naming : String → String) (record : Fin n) : Prop where
  ends : Acc (fun next queue => Turn catalog naming queue next) (start record)
  found : ∃ last, Turns catalog naming (start record) last ∧ last.pending = [] ∧
    (Codec.build catalog naming record).fields = inOrder last.fields
  shallow : ∀ queue, Turns catalog naming (start record) queue →
    ∀ field ∈ queue.fields, field.index.length ≤ (reachable catalog record).ncard
  codec : ∀ field ∈ (Codec.build catalog naming record).fields,
    field.index.length ≤ (reachable catalog record).ncard

theorem turns_start (record : Fin n) :
    Turns catalog naming (start record) ⟨[], grow catalog naming n 0 [.root record]⟩ := by
  have fits : ∀ site ∈ [Site.root record], site.Fits n := by simpa using fits_root record
  exact turns_grow fits []

theorem queue_runs_empty (catalog : Catalog n) (naming : String → String) (record : Fin n) :
    RunsEmpty catalog naming record where
  ends := (wellFounded_turn catalog naming).apply (start record)
  found := ⟨_, turns_start record, rfl, rfl⟩
  shallow queue turns field member := ((shallow_start record).turns turns).found field member
  codec := by
    intro field member
    obtain ⟨original, grown, same⟩ := exists_of_mem_inOrder member
    rw [← same]
    exact ((shallow_start record).turns (turns_start record)).found original grown

end Queue

end SqlComposer
