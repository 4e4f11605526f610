import SqlComposer.Proofs.Record.LookUp

namespace SqlComposer

variable {n : Nat}

/-! ## Layers -/

namespace Ty

inductive Wraps : Ty n → Ty n → Prop
  | same (type : Ty n) : Wraps type type
  | intoOption {inner outer : Ty n} : Wraps inner outer → Wraps inner (.option outer)
  | intoBox {inner outer : Ty n} : Wraps inner outer → Wraps inner (.boxed outer)
  | belowOption {inner outer : Ty n} : Wraps inner outer → Wraps (.option inner) (.option outer)
  | belowBox {inner outer : Ty n} : Wraps inner outer → Wraps (.boxed inner) (.boxed outer)

def optionLayers : Ty n → Nat
  | .option inner => inner.optionLayers + 1
  | .boxed inner => inner.optionLayers
  | _ => 0

theorem Wraps.base_eq {inner outer : Ty n} (wraps : inner.Wraps outer) : outer.base = inner.base := by
  induction wraps with
  | same => rfl
  | intoOption _ ih | intoBox _ ih | belowOption _ ih | belowBox _ ih => exact ih

theorem Wraps.optionLayers_le {inner outer : Ty n} (wraps : inner.Wraps outer) :
    inner.optionLayers ≤ outer.optionLayers := by
  induction wraps with
  | same => rfl
  | intoOption _ ih => exact Nat.le_succ_of_le ih
  | belowOption _ ih => exact Nat.succ_le_succ ih
  | intoBox _ ih | belowBox _ ih => exact ih

theorem isNullable_kind_iff (type : Ty n) :
    type.kind.isNullable = true ↔ 0 < type.optionLayers ∨ type.base.kind.isNullable = true := by
  induction type with
  | option inner => simp [kind, Kind.isNullable, optionLayers]
  | boxed inner ih => exact ih
  | _ => simp [optionLayers, base]

theorem Wraps.isNullable_iff {inner outer : Ty n} (wraps : inner.Wraps outer) :
    outer.kind.isNullable = true ↔ inner.kind.isNullable = true ∨ inner.optionLayers < outer.optionLayers := by
  have fewer := wraps.optionLayers_le
  rw [isNullable_kind_iff outer, isNullable_kind_iff inner, wraps.base_eq]
  rcases Nat.lt_or_ge inner.optionLayers outer.optionLayers with more | rest
  · exact iff_of_true (.inl (by omega)) (.inr more)
  · simp [Nat.le_antisymm fewer rest]

end Ty

structure FieldDecl.Wraps (decl other : FieldDecl n) : Prop where
  type : decl.type.Wraps other.type
  rest : { other with type := decl.type } = decl

structure Catalog.Wraps (catalog other : Catalog n) : Prop where
  typeName : ∀ record, (other record).typeName = (catalog record).typeName
  fields : ∀ record, List.Forall₂ FieldDecl.Wraps (catalog record).fields (other record).fields

/-! ## Without layers -/

def FieldDecl.bare (decl : FieldDecl n) : FieldDecl n := { decl with type := decl.type.base }

def Catalog.bare (catalog : Catalog n) : Catalog n := fun record =>
  { catalog record with fields := (catalog record).fields.map FieldDecl.bare }

def Field.bare (field : Field n) : Field n := { field with type := field.type.base, nullable := false }

def Site.bare (site : Site n) : Site n := { site with nullable := false }

@[simp] theorem Site.bare_bare (site : Site n) : site.bare.bare = site.bare := rfl

theorem FieldDecl.Wraps.bare_eq {decl other : FieldDecl n} (wraps : decl.Wraps other) : decl.bare = other.bare := by
  rw [← wraps.rest]
  simp only [bare, wraps.type.base_eq]

theorem Catalog.Wraps.bare_eq {catalog other : Catalog n} (wraps : catalog.Wraps other) :
    catalog.bare = other.bare := by
  funext record
  have fields : (catalog record).fields.map FieldDecl.bare = (other record).fields.map FieldDecl.bare := by
    rw [← List.forall₂_eq_eq_eq, List.forall₂_map_left_iff, List.forall₂_map_right_iff]
    exact (wraps.fields record).imp fun _ _ => FieldDecl.Wraps.bare_eq
  rw [bare, bare, fields, wraps.typeName]

variable {catalog other : Catalog n} {naming : String → String}

theorem isKept_bare (decl : FieldDecl n) : decl.bare.isKept = decl.isKept := rfl

theorem bare_field (site : Site n) (position : Nat) (decl : FieldDecl n) :
    (site.bare.field naming position decl.bare).bare = (site.field naming position decl).bare := by
  simp only [Site.field, FieldDecl.bare, Field.bare, Ty.base_base]
  rfl

theorem bare_fields (site : Site n) :
    (site.bare.fields naming catalog.bare).map Field.bare = (site.fields naming catalog).map Field.bare := by
  have entries : (catalog.bare site.record).fields.zipIdx.filter (fun entry => entry.1.isKept) =
      ((catalog site.record).fields.zipIdx.filter fun entry => entry.1.isKept).map (Prod.map FieldDecl.bare id) := by
    rw [Catalog.bare, List.zipIdx_map, List.filter_map]
    rfl
  simp only [Site.fields]
  rw [show site.bare.record = site.record from rfl, entries]
  simp only [List.map_map]
  exact List.map_congr_left fun entry _ => bare_field site entry.2 entry.1

theorem below?_bare (site : Site n) (field : Field n) (number : Nat) :
    site.bare.below? field.bare number = (site.below? field number).map Site.bare := by
  have base : field.bare.type.base.record? = field.type.base.record? := by simp [Field.bare]
  simp only [Site.below?, base]
  cases field.type.base.record? with
  | none => rfl
  | some inner =>
    by_cases entered : inner ∈ site.chain
    · simp only [Site.bare, entered, if_true, Option.map_none]
    · simp only [Site.bare, entered, if_false, Option.map_some]
      rfl

/-! ## Growth -/

abbrev bareEntry : Site n × Field n → Site n × Field n := Prod.map Site.bare Field.bare

theorem bare_level (sites : List (Site n)) :
    (level catalog.bare naming (sites.map Site.bare)).map bareEntry = (level catalog naming sites).map bareEntry := by
  simp only [level, List.flatMap_map, List.map_flatMap, List.map_map]
  refine List.flatMap_congr fun site _ => ?_
  have fields : (site.bare.fields naming catalog.bare).map Field.bare =
      (site.fields naming catalog).map Field.bare := bare_fields site
  simpa [Function.comp_def] using congrArg (List.map (Prod.mk site.bare)) fields

theorem bare_nextSites (start : Nat) (found : List (Site n × Field n)) :
    (nextSites start found).map Site.bare = nextSites start (found.map bareEntry) := by
  induction found generalizing start with
  | nil => rfl
  | cons head found ih =>
    obtain ⟨site, field⟩ := head
    rw [List.map_cons, nextSites_cons, show bareEntry (site, field) = (site.bare, field.bare) from rfl, nextSites_cons,
      below?_bare, List.map_append, ih]
    cases site.below? field start <;> rfl

theorem bare_grow (alike : catalog.bare = other.bare) {rounds start : Nat} {sites sitesToo : List (Site n)}
    (same : sites.map Site.bare = sitesToo.map Site.bare) :
    (grow catalog naming rounds start sites).map Field.bare =
      (grow other naming rounds start sitesToo).map Field.bare := by
  -- The sites that wait in a round differ in nullability only, so their fields do and the next sites do again.
  induction rounds generalizing start sites sitesToo with
  | zero => rfl
  | succ rounds ih =>
    let found := level catalog naming sites
    let foundToo := level other naming sitesToo
    have entries : found.map bareEntry = foundToo.map bareEntry := calc
      _ = (level catalog.bare naming (sites.map Site.bare)).map bareEntry := (bare_level sites).symm
      _ = (level other.bare naming (sitesToo.map Site.bare)).map bareEntry := by rw [alike, same]
      _ = _ := bare_level sitesToo
    have fields : (found.map (·.2)).map Field.bare = (foundToo.map (·.2)).map Field.bare := by
      simpa [Function.comp_def] using congrArg (List.map Prod.snd) entries
    have count : found.length = foundToo.length := by simpa using congrArg List.length entries
    have next : (nextSites start found).map Site.bare = (nextSites start foundToo).map Site.bare := by
      rw [bare_nextSites, bare_nextSites, entries]
    rw [grow, grow, List.map_append, List.map_append, fields, ← count, ih next]

theorem bare_inOrder (fields : List (Field n)) :
    (inOrder fields).map Field.bare = inOrder (fields.map Field.bare) := by
  let before (a b : Field n × Nat) : Bool := precedes a.1.index b.1.index
  have sorted : (fields.zipIdx.mergeSort before).map (Prod.map Field.bare id) =
      (fields.map Field.bare).zipIdx.mergeSort before := by
    rw [List.zipIdx_map]
    exact List.map_mergeSort fun _ _ _ _ => rfl
  simp only [inOrder]
  rw [← sorted]
  simp only [List.map_map, List.findIdx_map]
  rfl

/-! ## What is read off a codec -/

namespace Codec

def bare (codec : Codec n) : Codec n := { codec with fields := codec.fields.map Field.bare }

variable (codec : Codec n) (field : Field n)

theorem fieldAt?_bare (index : List Nat) : codec.bare.fieldAt? index = (codec.fieldAt? index).map Field.bare := by
  simp only [fieldAt?, bare, List.find?_map]
  rfl

theorem parent?_bare : codec.bare.parent? field.bare = (codec.parent? field).map Field.bare := by
  unfold parent?
  rw [show field.bare.parent = field.parent from rfl]
  cases field.parent with
  | none => rfl
  | some place => simp [bare]

theorem children_bare : codec.bare.children field.bare = (codec.children field).map Field.bare := by
  simp only [children, bare, List.findIdx_map, List.filter_map]
  rfl

theorem ancestorsWithin_bare (bound : Nat) :
    codec.bare.ancestorsWithin bound field.bare = (codec.ancestorsWithin bound field).map Field.bare := by
  induction bound generalizing field with
  | zero => rfl
  | succ bound ih =>
    rw [ancestorsWithin, ancestorsWithin, parent?_bare]
    cases codec.parent? field with
    | none => rfl
    | some parent => exact congrArg (parent.bare :: ·) (ih parent)

theorem ancestors_bare : codec.bare.ancestors field.bare = (codec.ancestors field).map Field.bare :=
  ancestorsWithin_bare codec field field.depth

theorem holders_bare : codec.bare.holders field.bare = (codec.holders field).map Field.bare := by
  rw [holders, ancestors_bare, List.filter_map]
  rfl

theorem columnAncestor?_bare :
    codec.bare.columnAncestor? field.bare = (codec.columnAncestor? field).map Field.bare := by
  rw [columnAncestor?, holders_bare, List.head?_map]
  rfl

theorem columnRoot?_bare : codec.bare.columnRoot? field.bare = (codec.columnRoot? field).map Field.bare := by
  rw [columnRoot?, holders_bare, List.getLast?_map]
  rfl

section Winners

variable {clashes : Field n → Field n → Bool} (alike : ∀ a b, clashes a.bare b.bare = clashes a b)

include alike

theorem erase_bare {field winner : Field n} {winners : List (Field n)}
    (found : winners.find? (clashes field) = some winner) :
    (winners.map Field.bare).erase winner.bare = (winners.erase winner).map Field.bare := by
  have clash := List.find?_some found
  induction winners with
  | nil => cases found
  | cons first rest ih =>
    by_cases same : clashes field first = true
    · rw [List.find?_cons_of_pos same] at found
      obtain rfl := Option.some.inj found
      simp
    · rw [List.find?_cons_of_neg same] at found
      -- A field that does not clash is another one than the winner, also without its layers.
      have different : first ≠ winner := fun same' => same (same' ▸ clash)
      have differentBare : first.bare ≠ winner.bare := fun same' => same (by rw [← alike, same', alike]; exact clash)
      rw [List.map_cons, List.erase_cons_tail (by simpa using differentBare), ih found,
        List.erase_cons_tail (by simpa using different), List.map_cons]

theorem contend_bare (winners : List (Field n)) (field : Field n) :
    contend clashes (winners.map Field.bare) field.bare = (contend clashes winners field).map Field.bare := by
  have found : (winners.map Field.bare).find? (clashes field.bare) =
      (winners.find? (clashes field)).map Field.bare := by
    rw [List.find?_map]
    exact congrArg (fun test => (winners.find? test).map Field.bare) (funext fun other => alike field other)
  simp only [contend, found]
  cases shown : winners.find? (clashes field) with
  | none => simp
  | some winner =>
    have depth (field : Field n) : field.bare.depth = field.depth := rfl
    simp only [Option.map_some, depth, erase_bare alike shown]
    split <;> simp

theorem winners_bare (fields : List (Field n)) :
    winners clashes (fields.map Field.bare) = (winners clashes fields).map Field.bare := by
  have run (start : List (Field n)) : (fields.map Field.bare).foldl (contend clashes) (start.map Field.bare) =
      (fields.foldl (contend clashes) start).map Field.bare := by
    induction fields generalizing start with
    | nil => rfl
    | cons field fields ih => rw [List.map_cons, List.foldl_cons, contend_bare alike, ih, List.foldl_cons]
  have whole := run []
  rw [List.map_nil] at whole
  have sorted (found : List (Field n)) :
      (found.mergeSort fun a b => precedes a.index b.index).map Field.bare =
        (found.map Field.bare).mergeSort fun a b => precedes a.index b.index := List.map_mergeSort fun _ _ _ _ => rfl
  rw [winners, whole, winners, sorted]

end Winners

theorem named_bare : codec.bare.named = codec.named.map Field.bare := by
  rw [named, named, ← winners_bare fun _ _ => rfl, bare, List.filter_map]
  rfl

theorem properties_bare : codec.bare.properties = codec.properties.map Field.bare := by
  rw [properties, properties, ← winners_bare fun _ _ => rfl]
  have kept : codec.bare.fields.filter (fun field => field.isNamed && (codec.bare.columnAncestor? field).isNone) =
      (codec.fields.filter fun field => field.isNamed && (codec.columnAncestor? field).isNone).map Field.bare := by
    rw [show codec.bare.fields = codec.fields.map Field.bare from rfl, List.filter_map]
    refine congrArg (List.map Field.bare) (List.filter_congr fun field _ => ?_)
    simp only [Function.comp_apply, columnAncestor?_bare, Option.isNone_map]
    rfl
  rw [kept]

theorem lookUp?_bare (path : String) : codec.bare.lookUp? path = (codec.lookUp? path).map Field.bare := by
  have finds (test : Field n → Bool) (blind : ∀ field, test field.bare = test field) :
      codec.bare.named.find? test = (codec.named.find? test).map Field.bare := by
    rw [named_bare, List.find?_map]
    exact congrArg (fun test => (codec.named.find? test).map Field.bare) (funext blind)
  simp only [lookUp?]
  rw [finds (fun field => field.path == path) fun _ => rfl,
    finds (fun field => Text.sameName field.path path) fun _ => rfl]
  cases codec.named.find? fun field => field.path == path <;> rfl

end Codec

/-! ## Options on the way -/

theorem getElem?_wraps (wraps : catalog.Wraps other) {record : Fin n} {position : Nat} {decl : FieldDecl n}
    (declared : (catalog record).fields[position]? = some decl) :
    ∃ outer, (other record).fields[position]? = some outer ∧ decl.Wraps outer := by
  obtain ⟨inside, shown⟩ := List.getElem?_eq_some_iff.mp declared
  have insideToo : position < (other record).fields.length := (wraps.fields record).length_eq ▸ inside
  have related := (wraps.fields record).get inside insideToo
  rw [List.get_eq_getElem, List.get_eq_getElem, shown] at related
  exact ⟨_, List.getElem?_eq_getElem insideToo, related⟩

theorem FieldDecl.Wraps.isKept_eq {decl outer : FieldDecl n} (wraps : decl.Wraps outer) :
    outer.isKept = decl.isKept := by
  rw [← isKept_bare, ← wraps.bare_eq, isKept_bare]

theorem Occurs.wraps (wraps : catalog.Wraps other) {chain : List (Fin n)} {record : Fin n} {index : List Nat}
    {decl : FieldDecl n} (occurs : Occurs catalog chain record index decl) :
    ∃ outer, Occurs other chain record index outer ∧ decl.Wraps outer := by
  induction occurs with
  | here declared kept =>
    obtain ⟨outer, declaredToo, wrapped⟩ := getElem?_wraps wraps declared
    exact ⟨outer, .here declaredToo (wrapped.isKept_eq.trans kept), wrapped⟩
  | deeper declared kept leads free _ ih =>
    obtain ⟨outer, declaredToo, wrapped⟩ := getElem?_wraps wraps declared
    obtain ⟨target, occurs, wrappedTarget⟩ := ih
    rw [← wrapped.type.base_eq] at leads
    exact ⟨target, .deeper declaredToo (wrapped.isKept_eq.trans kept) leads free occurs, wrappedTarget⟩

namespace Codec

variable {record : Fin n} {field above : Field n}

theorem mem_cons_ancestors_iff (member : field ∈ (build catalog naming record).fields) :
    above ∈ field :: (build catalog naming record).ancestors field ↔
      above ∈ (build catalog naming record).fields ∧ above.index <+: field.index := by
  rw [List.mem_cons, mem_ancestors_iff member]
  constructor
  · rintro (rfl | ⟨aboveMember, starts, _⟩)
    · exact ⟨member, List.prefix_rfl⟩
    · exact ⟨aboveMember, starts⟩
  · rintro ⟨aboveMember, starts⟩
    by_cases same : above.index = field.index
    · exact .inl (eq_of_index (ascending_fieldTree record) aboveMember member same)
    · exact .inr ⟨aboveMember, starts, same⟩

theorem nullable_iff (member : field ∈ (build catalog naming record).fields) :
    field.nullable = true ↔ ∃ above ∈ (build catalog naming record).fields,
      above.index <+: field.index ∧ above.type.kind.isNullable = true := by
  obtain ⟨decl, occurs, _, _, _⟩ := exists_decl_of_mem member
  rw [(routed_build member).nullable, mayBeNull, List.any_eq_true]
  constructor
  · rintro ⟨step, onRoute, nullable⟩
    obtain ⟨stem, starts, occursStep⟩ := occurs.of_mem_route onRoute
    obtain ⟨above, aboveMember, index, _, type, _⟩ := exists_mem_of_occurs naming occursStep
    exact ⟨above, aboveMember, index ▸ starts, type ▸ nullable⟩
  · rintro ⟨above, aboveMember, starts, nullable⟩
    obtain ⟨step, occursStep, _, type, _⟩ := exists_decl_of_mem aboveMember
    refine ⟨step, ?_, type ▸ nullable⟩
    rw [occurs.route_eq, List.mem_append, List.mem_singleton]
    by_cases same : above.index = field.index
    · exact .inr ((same ▸ occursStep).unique occurs)
    · exact .inl (occurs.mem_route_dropLast occursStep starts same)

section

variable (wraps : catalog.Wraps other)

include wraps

theorem bare_build : (build catalog naming record).bare = (build other naming record).bare := by
  have fields : (fieldTree catalog naming record).map Field.bare = (fieldTree other naming record).map Field.bare := by
    rw [fieldTree, fieldTree, bare_inOrder, bare_inOrder, bare_grow wraps.bare_eq rfl]
  rw [bare, bare, build, build, wraps.typeName, fields]

theorem exists_wrapped (member : field ∈ (build catalog naming record).fields) :
    ∃ outer ∈ (build other naming record).fields, outer.index = field.index ∧ field.type.Wraps outer.type := by
  obtain ⟨decl, occurs, _, type, _⟩ := exists_decl_of_mem member
  obtain ⟨outerDecl, occursToo, wrapped⟩ := occurs.wraps wraps
  obtain ⟨outer, outerMember, index, _, typeToo, _⟩ := exists_mem_of_occurs naming occursToo
  exact ⟨outer, outerMember, index, type ▸ typeToo ▸ wrapped.type⟩

theorem exists_unwrapped {outer : Field n} (member : outer ∈ (build other naming record).fields) :
    ∃ field ∈ (build catalog naming record).fields, field.index = outer.index ∧ field.type.Wraps outer.type := by
  have fields : (build catalog naming record).fields.map Field.bare =
      (build other naming record).fields.map Field.bare := congrArg Codec.fields (bare_build wraps)
  obtain ⟨field, fieldMember, same⟩ := List.mem_map.mp (fields ▸ List.mem_map_of_mem member)
  have index : field.bare.index = outer.bare.index := congrArg Field.index same
  obtain ⟨wrapped, wrappedMember, indexToo, wrapping⟩ := exists_wrapped wraps fieldMember
  obtain rfl := eq_of_index (ascending_fieldTree record) wrappedMember member (indexToo.trans index)
  exact ⟨field, fieldMember, index, wrapping⟩

theorem nullable_wrapped_iff {outer : Field n} (member : field ∈ (build catalog naming record).fields)
    (memberToo : outer ∈ (build other naming record).fields) (same : outer.index = field.index) :
    outer.nullable = true ↔ ∃ above ∈ field :: (build catalog naming record).ancestors field,
      above.nullable = true ∨ ∃ wrapped, (build other naming record).fieldAt? above.index = some wrapped ∧
        above.type.optionLayers < wrapped.type.optionLayers := by
  simp only [mem_cons_ancestors_iff member, nullable_iff memberToo, found_iff, same]
  constructor
  · rintro ⟨wrapped, wrappedMember, starts, nullable⟩
    obtain ⟨above, aboveMember, index, wrapping⟩ := exists_unwrapped wraps wrappedMember
    refine ⟨above, ⟨aboveMember, index ▸ starts⟩, ?_⟩
    rcases wrapping.isNullable_iff.mp nullable with before | more
    · exact .inl ((nullable_iff aboveMember).mpr ⟨above, aboveMember, List.prefix_rfl, before⟩)
    · exact .inr ⟨wrapped, ⟨wrappedMember, index.symm⟩, more⟩
  · rintro ⟨above, ⟨aboveMember, starts⟩, nullable | ⟨wrapped, ⟨wrappedMember, index⟩, more⟩⟩
    · obtain ⟨top, topMember, startsToo, nullable⟩ := (nullable_iff aboveMember).mp nullable
      obtain ⟨wrapped, wrappedMember, index, wrapping⟩ := exists_wrapped wraps topMember
      exact ⟨wrapped, wrappedMember, index ▸ startsToo.trans starts, wrapping.isNullable_iff.mpr (.inl nullable)⟩
    · obtain ⟨aboveToo, aboveTooMember, indexToo, wrapping⟩ := exists_unwrapped wraps wrappedMember
      obtain rfl := eq_of_index (ascending_fieldTree record) aboveTooMember aboveMember (indexToo.trans index)
      exact ⟨wrapped, wrappedMember, index ▸ starts, wrapping.isNullable_iff.mpr (.inr more)⟩

end

structure SameLinks (codec outer : Codec n) (field wrapped : Field n) : Prop where
  parent : (outer.parent? wrapped).map Field.bare = (codec.parent? field).map Field.bare
  children : (outer.children wrapped).map Field.bare = (codec.children field).map Field.bare
  ancestors : (outer.ancestors wrapped).map Field.bare = (codec.ancestors field).map Field.bare
  columnAncestor : (outer.columnAncestor? wrapped).map Field.bare = (codec.columnAncestor? field).map Field.bare
  columnRoot : (outer.columnRoot? wrapped).map Field.bare = (codec.columnRoot? field).map Field.bare

theorem sameLinks {codec outer : Codec n} (same : codec.bare = outer.bare) {wrapped : Field n}
    (sameField : field.bare = wrapped.bare) : SameLinks codec outer field wrapped where
  parent := by rw [← parent?_bare, ← parent?_bare, same, sameField]
  children := by rw [← children_bare, ← children_bare, same, sameField]
  ancestors := by rw [← ancestors_bare, ← ancestors_bare, same, sameField]
  columnAncestor := by rw [← columnAncestor?_bare, ← columnAncestor?_bare, same, sameField]
  columnRoot := by rw [← columnRoot?_bare, ← columnRoot?_bare, same, sameField]

/-- The second codec has the same fields with the same links, columns and names. At each place its field may be NULL
just where the field of the first may be, or where a type on the way to it has gained an option. -/
structure SameButNullable (codec outer : Codec n) : Prop where
  typeName : outer.typeName = codec.typeName
  fields : outer.fields.map Field.bare = codec.fields.map Field.bare
  links : ∀ (place : Nat) field wrapped, codec.fields[place]? = some field → outer.fields[place]? = some wrapped →
    SameLinks codec outer field wrapped
  found : ∀ index, (outer.fieldAt? index).map Field.bare = (codec.fieldAt? index).map Field.bare
  properties : outer.properties.map Field.bare = codec.properties.map Field.bare
  named : outer.named.map Field.bare = codec.named.map Field.bare
  lookedUp : ∀ path, (outer.lookUp? path).map Field.bare = (codec.lookUp? path).map Field.bare
  nullable : ∀ (place : Nat) field wrapped, codec.fields[place]? = some field →
    outer.fields[place]? = some wrapped →
      (wrapped.nullable = true ↔ ∃ above ∈ field :: codec.ancestors field, above.nullable = true ∨
        ∃ wrappedAbove, outer.fieldAt? above.index = some wrappedAbove ∧
          above.type.optionLayers < wrappedAbove.type.optionLayers)

theorem bare_eq_of_places {codec outer : Codec n} (same : codec.bare = outer.bare) {place : Nat} {wrapped : Field n}
    (placed : codec.fields[place]? = some field) (placedToo : outer.fields[place]? = some wrapped) :
    field.bare = wrapped.bare := by
  have fields : codec.fields.map Field.bare = outer.fields.map Field.bare := congrArg Codec.fields same
  have there := congrArg (·[place]?) fields
  simpa [placed, placedToo] using there

theorem wrapping_changes_nullability_only (wraps : catalog.Wraps other) (naming : String → String) (record : Fin n) :
    SameButNullable (build catalog naming record) (build other naming record) := by
  have same : (build catalog naming record).bare = (build other naming record).bare := bare_build wraps
  exact {
    typeName := wraps.typeName record
    fields := (congrArg Codec.fields same).symm
    links := fun _ _ _ placed placedToo => sameLinks same (bare_eq_of_places same placed placedToo)
    found := fun _ => by rw [← fieldAt?_bare, ← fieldAt?_bare, same]
    properties := by rw [← properties_bare, ← properties_bare, same]
    named := by rw [← named_bare, ← named_bare, same]
    lookedUp := fun _ => by rw [← lookUp?_bare, ← lookUp?_bare, same]
    nullable := by
      intro place field wrapped placed placedToo
      have index : wrapped.index = field.index :=
        (congrArg Field.index (bare_eq_of_places same placed placedToo) : field.bare.index = wrapped.bare.index).symm
      exact nullable_wrapped_iff wraps (List.mem_of_getElem? placed) (List.mem_of_getElem? placedToo) index }

def guests (home host : Ty 2) : Catalog 2 :=
  List.get
    [⟨"Guest",
      [{ name := "name", type := .scalar .string },
       { name := "home", type := home, embedded := true },
       { name := "host", type := host, embedded := true }]⟩,
     ⟨"Home", [{ name := "city", type := .scalar .string }]⟩]

def plainGuests : Catalog 2 :=
  guests (.record (Fin.last 1)) (.option (.boxed (.record ⟨0, Nat.two_pos⟩)))

def wrappedGuests : Catalog 2 :=
  guests (.boxed (.option (.record (Fin.last 1)))) (.option (.boxed (.option (.record ⟨0, Nat.two_pos⟩))))

theorem plainGuests_wraps : plainGuests.Wraps wrappedGuests where
  typeName := by decide
  fields := by
    have home : (Ty.record 1 : Ty 2).Wraps (.boxed (.option (.record 1))) := .intoBox (.intoOption (.same _))
    have host : (Ty.option (.boxed (.record 0)) : Ty 2).Wraps (.option (.boxed (.option (.record 0)))) :=
      .belowOption (.belowBox (.intoOption (.same _)))
    rw [Fin.forall_fin_two]
    constructor
    · exact .cons ⟨.same _, rfl⟩ (.cons ⟨home, rfl⟩ (.cons ⟨host, rfl⟩ .nil))
    · exact .cons ⟨.same _, rfl⟩ .nil

theorem homes_of_guests_become_nullable :
    plainGuests.Wraps wrappedGuests ∧ SameButNullable (build plainGuests id 0) (build wrappedGuests id 0) ∧
      (build plainGuests id 0).fields.map (fun field => (field.path, field.nullable)) =
        [("name", false), ("home", false), ("city", false), ("host", true)] ∧
      (build wrappedGuests id 0).fields.map (fun field => (field.path, field.nullable)) =
        [("name", false), ("home", true), ("city", true), ("host", true)] := by
  refine ⟨plainGuests_wraps, wrapping_changes_nullability_only plainGuests_wraps id 0, ?_, ?_⟩
  all_goals
    rw [build_eq_insertionSort]
    decide

end Codec

end SqlComposer
