import SqlComposer.Proofs.Record.Preorder
import SqlComposer.Record.Codec
/-!
The fields of a codec are the preorder listing of its record type.

Level by level the tree grows to a permutation of the listing, and sorting by index gives its order.
-/

namespace SqlComposer

variable {n : Nat}

structure Outline (n : Nat) where
  index : List Nat
  name : String
  type : Ty n
  tag : Tag
  embedded : Bool

def Field.outline (field : Field n) : Outline n :=
  ⟨field.index, field.name, field.type, field.tag, field.embedded⟩

def Entry.outline (naming : String → String) (entry : Entry n) : Outline n where
  index := entry.index
  name := if entry.decl.parsedTag.name = "" then naming entry.decl.name else entry.decl.parsedTag.name
  type := entry.decl.type
  tag := entry.decl.parsedTag
  embedded := entry.decl.embedded && entry.decl.type.base.record?.isSome

variable {catalog : Catalog n} {naming : String → String}

theorem below?_made {site below : Site n} {field : Field n} {number : Nat}
    (enters : site.below? field number = some below) :
    ∃ inner, field.type.base.record? = some inner ∧ inner ∉ site.chain ∧
      below = ⟨inner, some number, field.index, if field.promotes then site.stem else field.path, field.nullable,
        inner :: site.chain⟩ := by
  unfold Site.below? at enters
  cases leads : field.type.base.record? with
  | none => simp [leads] at enters
  | some inner =>
    by_cases entered : inner ∈ site.chain
    · simp [leads, entered] at enters
    · simp only [leads, entered, if_false, Option.some.injEq] at enters
      exact ⟨inner, rfl, entered, enters.symm⟩

theorem below?_eq_some {site below : Site n} {field : Field n} {number : Nat}
    (enters : site.below? field number = some below) :
    below.record ∉ site.chain ∧ below.chain = below.record :: site.chain ∧ below.parent = some number ∧
      below.index = field.index := by
  obtain ⟨_, _, free, rfl⟩ := below?_made enters
  exact ⟨free, rfl, rfl, rfl⟩

theorem mem_level_iff {sites : List (Site n)} {site : Site n} {field : Field n} :
    (site, field) ∈ level catalog naming sites ↔ site ∈ sites ∧ field ∈ site.fields naming catalog := by
  simp only [level, List.mem_flatMap, List.mem_map, Prod.mk.injEq]
  constructor
  · rintro ⟨_, siteMember, _, fieldMember, rfl, rfl⟩
    exact ⟨siteMember, fieldMember⟩
  · rintro ⟨siteMember, fieldMember⟩
    exact ⟨site, siteMember, field, fieldMember, rfl, rfl⟩

theorem exists_of_mem_nextSites {start : Nat} {found : List (Site n × Field n)} {below : Site n}
    (member : below ∈ nextSites start found) :
    ∃ site field number, ((site, field), number) ∈ found.zipIdx start ∧ site.below? field number = some below := by
  obtain ⟨⟨⟨site, field⟩, number⟩, placed, enters⟩ := List.mem_filterMap.mp member
  exact ⟨site, field, number, placed, enters⟩

def Site.outlines (catalog : Catalog n) (naming : String → String) (site : Site n) : List (Outline n) :=
  (listing catalog site.chain site.index site.record).map (Entry.outline naming)

def Site.outlinesBelow (catalog : Catalog n) (naming : String → String) (found : Site n × Field n) :
    List (Outline n) :=
  (listingBelow catalog found.1.chain found.2.index found.2.type).map (Entry.outline naming)

theorem outlines_eq (site : Site n) :
    site.outlines catalog naming = (site.fields naming catalog).flatMap fun field =>
      field.outline :: Site.outlinesBelow catalog naming (site, field) := by
  rw [Site.outlines, listing_eq, List.map_flatMap, Site.fields, ← keptFields, List.flatMap_map]
  rfl

theorem outlines_below? (site : Site n) (field : Field n) (number : Nat) :
    (site.below? field number).toList.flatMap (Site.outlines catalog naming) =
      Site.outlinesBelow catalog naming (site, field) := by
  unfold Site.below? Site.outlinesBelow listingBelow
  cases leads : field.type.base.record? with
  | none => rfl
  | some inner => by_cases entered : inner ∈ site.chain <;> simp [entered, Site.outlines]

theorem nextSites_cons (start : Nat) (site : Site n) (field : Field n) (found : List (Site n × Field n)) :
    nextSites start ((site, field) :: found) = (site.below? field start).toList ++ nextSites (start + 1) found := by
  cases enters : site.below? field start <;> simp [nextSites, enters]

theorem outlines_nextSites (start : Nat) (found : List (Site n × Field n)) :
    (nextSites start found).flatMap (Site.outlines catalog naming) =
      found.flatMap (Site.outlinesBelow catalog naming) := by
  induction found generalizing start with
  | nil => rfl
  | cons head found ih =>
    obtain ⟨site, field⟩ := head
    rw [nextSites_cons, List.flatMap_append, outlines_below?, ih, List.flatMap_cons]

def Site.Fits (rounds : Nat) (site : Site n) : Prop := site.chain.Nodup ∧ n < site.chain.length + rounds

theorem not_fits_zero (site : Site n) : ¬ site.Fits 0 := by
  rintro ⟨distinct, long⟩
  have short : site.chain.length ≤ n := by simpa using distinct.length_le_card
  omega

theorem fits_below? {rounds number : Nat} {site below : Site n} {field : Field n} (fits : site.Fits (rounds + 1))
    (enters : site.below? field number = some below) : below.Fits rounds := by
  obtain ⟨distinct, long⟩ := fits
  obtain ⟨free, chain, _, _⟩ := below?_eq_some enters
  unfold Site.Fits
  rw [chain]
  refine ⟨List.nodup_cons.mpr ⟨free, distinct⟩, ?_⟩
  simp only [List.length_cons]
  omega

theorem eq_nil_of_fits_zero {sites : List (Site n)} (fits : ∀ site ∈ sites, site.Fits 0) : sites = [] :=
  List.eq_nil_iff_forall_not_mem.mpr fun site member => not_fits_zero site (fits site member)

theorem fits_nextSites {rounds : Nat} {sites : List (Site n)} (fits : ∀ site ∈ sites, site.Fits (rounds + 1))
    (start : Nat) : ∀ below ∈ nextSites start (level catalog naming sites), below.Fits rounds := by
  intro below member
  obtain ⟨site, field, number, placed, enters⟩ := exists_of_mem_nextSites member
  have siteMember := (mem_level_iff.mp (List.fst_mem_of_mem_zipIdx placed)).1
  exact fits_below? (fits site siteMember) enters

theorem outlines_grow {rounds : Nat} {sites : List (Site n)} (fits : ∀ site ∈ sites, site.Fits rounds)
    (start : Nat) :
    ((grow catalog naming rounds start sites).map Field.outline).Perm
      (sites.flatMap (Site.outlines catalog naming)) := by
  induction rounds generalizing start sites with
  | zero =>
    -- No site is left when the rounds run out, so nothing is cut off.
    simp [eq_nil_of_fits_zero fits, grow]
  | succ rounds ih =>
    let found := level catalog naming sites
    have fitsNext : ∀ site ∈ nextSites start found, site.Fits rounds := fits_nextSites fits start
    have rest := ih fitsNext (start + found.length)
    rw [outlines_nextSites] at rest
    have whole : sites.flatMap (Site.outlines catalog naming) =
        found.flatMap fun entry => entry.2.outline :: Site.outlinesBelow catalog naming entry := by
      rw [List.flatMap_congr fun site _ => outlines_eq site]
      simp only [found, level, List.flatMap_assoc, List.flatMap_map]
    rw [whole, grow, List.map_append, List.map_map]
    exact (rest.append_left _).trans (List.map_append_flatMap_perm found _ _)

theorem outline_inOrder (fields : List (Field n)) :
    ((inOrder fields).map Field.outline).Perm (fields.map Field.outline) := by
  have shown : fields.map Field.outline = fields.zipIdx.map fun entry => entry.1.outline := by
    conv_lhs => rw [← List.zipIdx_map_fst 0 fields]
    exact List.map_map
  rw [inOrder, List.map_map, shown]
  exact (List.mergeSort_perm _ _).map _

theorem pairwise_inOrder (fields : List (Field n)) :
    (inOrder fields).Pairwise fun field other => field.index ≤ other.index := by
  rw [inOrder, List.pairwise_map]
  exact pairwise_sortedByIndex (fun entry : Field n × Nat => entry.1.index) fields.zipIdx

theorem exists_of_mem_inOrder {fields : List (Field n)} {field : Field n} (member : field ∈ inOrder fields) :
    ∃ original ∈ fields, { original with parent := field.parent } = field := by
  obtain ⟨⟨original, _⟩, sorted, rfl⟩ := List.mem_map.mp member
  exact ⟨original, List.fst_mem_of_mem_zipIdx ((List.mergeSort_perm _ _).mem_iff.mp sorted), rfl⟩

theorem fits_root (record : Fin n) : (Site.root record).Fits n := ⟨List.nodup_singleton record, by simp [Site.root]⟩

theorem outline_fieldTree (record : Fin n) :
    (fieldTree catalog naming record).map Field.outline =
      (listing catalog [record] [] record).map (Entry.outline naming) := by
  have perm : ((fieldTree catalog naming record).map Field.outline).Perm
      ((listing catalog [record] [] record).map (Entry.outline naming)) := by
    have fits : ∀ site ∈ [Site.root record], site.Fits n := by simpa using fits_root record
    have grown : ((grow catalog naming n 0 [.root record]).map Field.outline).Perm
        ([Site.root record].flatMap (Site.outlines catalog naming)) := outlines_grow fits 0
    rw [List.flatMap_singleton] at grown
    exact (outline_inOrder _).trans grown
  have ascending : ((listing catalog [record] [] record).map (Entry.outline naming)).Pairwise
      fun outline other => outline.index < other.index :=
    List.pairwise_map.mpr (pairwise_index_listing [record] [] record)
  have sorted : ((fieldTree catalog naming record).map Field.outline).Pairwise
      fun outline other => outline.index ≤ other.index :=
    List.pairwise_map.mpr (pairwise_inOrder _)
  apply List.Perm.eq_of_pairwise _ sorted (ascending.imp le_of_lt) perm
  intro outline other member memberToo before after
  exact eq_of_index ascending (perm.mem_iff.mp member) memberToo (le_antisymm before after)

theorem ascending_fieldTree (record : Fin n) :
    (fieldTree catalog naming record).Pairwise fun field other => field.index < other.index := by
  have outlines : ((fieldTree catalog naming record).map Field.outline).Pairwise
      fun outline other => outline.index < other.index := by
    rw [outline_fieldTree]
    exact List.pairwise_map.mpr (pairwise_index_listing [record] [] record)
  rwa [List.pairwise_map] at outlines

namespace Codec

/-- The fields of the codec are the nodes of its record type's tree in preorder, each once and with its own index. -/
structure InPreorder (catalog : Catalog n) (naming : String → String) (codec : Codec n) : Prop where
  listed : codec.fields.map Field.outline =
    (listing catalog [codec.record] [] codec.record).map (Entry.outline naming)
  occurring : ∀ outline, outline ∈ codec.fields.map Field.outline ↔
    ∃ decl, Occurs catalog [codec.record] codec.record outline.index decl ∧
      outline = Entry.outline naming ⟨outline.index, decl⟩
  distinct : (codec.fields.map Field.index).Nodup
  ascending : codec.fields.Pairwise fun field other => field.index < other.index
  found : ∀ index field, codec.fieldAt? index = some field ↔ field ∈ codec.fields ∧ field.index = index
  siblings : ∀ first ∈ codec.fields, ∀ second ∈ codec.fields, ∀ stem i j,
    first.index = stem ++ [i] → second.index = stem ++ [j] →
    first.type.base.record? = second.type.base.record? →
    ∀ rest ≠ [], (codec.fieldAt? (stem ++ i :: rest)).map (fun field => (field.name, field.type)) =
      (codec.fieldAt? (stem ++ j :: rest)).map fun field => (field.name, field.type)

theorem fieldAt?_eq_some_iff {codec : Codec n}
    (ascending : codec.fields.Pairwise fun field other => field.index < other.index) (index : List Nat)
    (field : Field n) : codec.fieldAt? index = some field ↔ field ∈ codec.fields ∧ field.index = index := by
  constructor
  · intro found
    exact ⟨List.mem_of_find?_eq_some found, by simpa using List.find?_some found⟩
  · rintro ⟨member, rfl⟩
    cases found : codec.fieldAt? field.index with
    | none => simpa using List.find?_eq_none.mp found field member
    | some other =>
      have same : other.index = field.index := by simpa using List.find?_some found
      rw [eq_of_index ascending (List.mem_of_find?_eq_some found) member same]

variable {catalog : Catalog n} {naming : String → String} {record : Fin n}

theorem build_eq_insertionSort (catalog : Catalog n) (naming : String → String) (record : Fin n) :
    build catalog naming record =
      let fields := grow catalog naming n 0 [.root record]
      let sorted := fields.zipIdx.insertionSort fun a b => precedes a.1.index b.1.index = true
      { record
        typeName := (catalog record).typeName
        fields := sorted.map fun (field, _) => { field with
          parent := field.parent.map fun number => sorted.findIdx fun entry => entry.2 == number } } := by
  rw [build, fieldTree, inOrder, sortedByIndex_eq_insertionSort fun entry : Field n × Nat => entry.1.index]

theorem mem_outlines_iff {outline : Outline n} :
    outline ∈ (build catalog naming record).fields.map Field.outline ↔
      ∃ decl, Occurs catalog [record] record outline.index decl ∧
        outline = Entry.outline naming ⟨outline.index, decl⟩ := by
  rw [build, outline_fieldTree]
  constructor
  · intro member
    obtain ⟨entry, listed, rfl⟩ := List.mem_map.mp member
    obtain ⟨rest, shown, occurs⟩ := mem_listing_iff.mp listed
    obtain rfl : entry.index = rest := shown
    exact ⟨entry.decl, occurs, rfl⟩
  · rintro ⟨decl, occurs, shown⟩
    rw [shown]
    exact List.mem_map_of_mem (mem_listing_iff.mpr ⟨outline.index, rfl, occurs⟩)

theorem occurs_of_mem {field : Field n} (member : field ∈ (build catalog naming record).fields) :
    ∃ decl, Occurs catalog [record] record field.index decl ∧
      field.outline = Entry.outline naming ⟨field.index, decl⟩ :=
  mem_outlines_iff.mp (List.mem_map_of_mem member)

theorem found_iff {index : List Nat} {field : Field n} :
    (build catalog naming record).fieldAt? index = some field ↔
      field ∈ (build catalog naming record).fields ∧ field.index = index :=
  fieldAt?_eq_some_iff (ascending_fieldTree record) index field

theorem found_below_sibling {first second field : Field n} {stem rest : List Nat} {i j : Nat}
    (member : first ∈ (build catalog naming record).fields) (shown : first.index = stem ++ [i])
    (memberToo : second ∈ (build catalog naming record).fields) (shownToo : second.index = stem ++ [j])
    (same : first.type.base.record? = second.type.base.record?) (proper : rest ≠ [])
    (found : (build catalog naming record).fieldAt? (stem ++ i :: rest) = some field) :
    ∃ other, (build catalog naming record).fieldAt? (stem ++ j :: rest) = some other ∧
      other.name = field.name ∧ other.type = field.type := by
  obtain ⟨decl, occurs, made⟩ := occurs_of_mem member
  obtain ⟨declToo, occursToo, madeToo⟩ := occurs_of_mem memberToo
  obtain ⟨fieldMember, fieldIndex⟩ := found_iff.mp found
  obtain ⟨target, occursTarget, fieldMade⟩ := occurs_of_mem fieldMember
  rw [shown] at occurs
  rw [shownToo] at occursToo
  rw [fieldIndex] at occursTarget
  have type : first.type = decl.type := congrArg Outline.type made
  have typeToo : second.type = declToo.type := congrArg Outline.type madeToo
  have below := occurs.sibling occursToo (type ▸ typeToo ▸ same) proper occursTarget
  have listed : Entry.outline naming ⟨stem ++ j :: rest, target⟩ ∈
      (build catalog naming record).fields.map Field.outline := mem_outlines_iff.mpr ⟨target, below, rfl⟩
  obtain ⟨other, otherMember, otherMade⟩ := List.mem_map.mp listed
  refine ⟨other, found_iff.mpr ⟨otherMember, congrArg Outline.index otherMade⟩, ?_, ?_⟩
  · exact (congrArg Outline.name otherMade).trans (congrArg Outline.name fieldMade).symm
  · exact (congrArg Outline.type otherMade).trans (congrArg Outline.type fieldMade).symm

theorem build_inPreorder (catalog : Catalog n) (naming : String → String) (record : Fin n) :
    (build catalog naming record).InPreorder catalog naming where
  listed := outline_fieldTree record
  occurring _ := mem_outlines_iff
  distinct := nodup_index (ascending_fieldTree record)
  ascending := ascending_fieldTree record
  found _ _ := found_iff
  siblings := by
    intro first member second memberToo stem i j shown shownToo same rest proper
    cases found : (build catalog naming record).fieldAt? (stem ++ i :: rest) with
    | some field =>
      obtain ⟨other, foundToo, name, type⟩ :=
        found_below_sibling member shown memberToo shownToo same proper found
      simp [foundToo, name, type]
    | none =>
      cases foundToo : (build catalog naming record).fieldAt? (stem ++ j :: rest) with
      | none => rfl
      | some other =>
        obtain ⟨field, contrary, _⟩ :=
          found_below_sibling memberToo shownToo member shown same.symm proper foundToo
        simp [found] at contrary

end Codec

end SqlComposer
