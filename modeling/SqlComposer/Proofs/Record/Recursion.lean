import SqlComposer.Proofs.Record.LookUp

namespace SqlComposer

variable {n : Nat} {catalog : Catalog n} {naming : String → String}

def Ty.records : Ty n → List (Fin n)
  | .scalar _ | .named _ _ => []
  | .record id => [id]
  | .option inner | .boxed inner | .list inner | .array inner _ => inner.records
  | .map key value => key.records ++ value.records

theorem Ty.records_of_base {type : Ty n} {inner : Fin n} (leads : type.base.record? = some inner) :
    type.records = [inner] := by
  induction type with
  | option _ ih | boxed _ ih => exact ih leads
  | record id => rw [Ty.records, Option.some.inj leads]
  | _ => cases leads

def recordsTo (catalog : Catalog n) (record : Fin n) (index : List Nat) : List (Fin n) :=
  record :: (route catalog record index.dropLast).filterMap (·.type.base.record?)

theorem recordsTo_cons {record inner : Fin n} {position : Nat} {decl : FieldDecl n} {rest : List Nat}
    (declared : (catalog record).fields[position]? = some decl) (leads : decl.type.base.record? = some inner)
    (proper : rest ≠ []) :
    recordsTo catalog record (position :: rest) = record :: recordsTo catalog inner rest := by
  rw [recordsTo, List.dropLast_cons_of_ne_nil proper, route_cons declared leads]
  simp [recordsTo, leads]

theorem Occurs.cut {chain : List (Fin n)} {record inner : Fin n} {index rest : List Nat} {decl target : FieldDecl n}
    (occurs : Occurs catalog chain record index decl) (entered : record ∈ chain)
    (leads : decl.type.base.record? = some inner) (back : inner ∈ chain ∨ inner ∈ recordsTo catalog record index)
    (proper : rest ≠ []) : ¬Occurs catalog chain record (index ++ rest) target := by
  induction occurs with
  | here declared _ =>
    intro below
    obtain ⟨other, stop, declaredToo, _, leadsToo, free, _⟩ := (occurs_cons_iff proper).mp below
    obtain rfl := Option.some.inj (declared.symm.trans declaredToo)
    obtain rfl := Option.some.inj (leads.symm.trans leadsToo)
    rcases back with onChain | onWay
    · exact free onChain
    · exact free (List.mem_singleton.mp onWay ▸ entered)
  | deeper declared _ enters _ occurs ih =>
    -- The record entered here is on the chain further down, as it is on the way.
    intro below
    obtain ⟨other, stop, declaredToo, _, entersToo, _, below⟩ := (occurs_cons_iff (by simp [proper])).mp below
    obtain rfl := Option.some.inj (declared.symm.trans declaredToo)
    obtain rfl := Option.some.inj (enters.symm.trans entersToo)
    refine ih List.mem_cons_self leads ?_ below
    rw [recordsTo_cons declared enters occurs.ne_nil, List.mem_cons] at back
    rcases back with onChain | rfl | onWay
    · exact .inl (List.mem_cons_of_mem _ onChain)
    · exact .inl (List.mem_cons_of_mem _ entered)
    · exact .inr onWay

theorem Occurs.leaf_of_no_record {chain : List (Fin n)} {record : Fin n} {index rest : List Nat}
    {decl target : FieldDecl n} (occurs : Occurs catalog chain record index decl)
    (ends : decl.type.base.record? = none) (proper : rest ≠ []) :
    ¬Occurs catalog chain record (index ++ rest) target := by
  intro below
  obtain ⟨above, inner, _, occursAbove, leads, _⟩ := below.split occurs.ne_nil proper
  obtain rfl := occurs.unique occursAbove
  rw [ends] at leads
  cases leads

namespace Codec

variable {record : Fin n} {field : Field n}

theorem index_of_mem_children {child : Field n} (member : child ∈ (build catalog naming record).children field) :
    child ∈ (build catalog naming record).fields ∧ child.index.dropLast = field.index := by
  obtain ⟨childMember, linked⟩ := List.mem_filter.mp member
  obtain ⟨_, holds⟩ := linked_build childMember
  rw [beq_iff_eq.mp linked] at holds
  obtain ⟨parent, placed, shown⟩ := holds
  obtain ⟨inside, rfl⟩ := List.getElem?_eq_some_iff.mp placed
  have found := List.findIdx_getElem (w := inside)
  exact ⟨childMember, shown.symm.trans (beq_iff_eq.mp found)⟩

def LeadsBack (catalog : Catalog n) (record : Fin n) (field : Field n) : Prop :=
  ∃ id ∈ field.type.records, id ∈ recordsTo catalog record field.index

theorem leaf_of_leadsBack (member : field ∈ (build catalog naming record).fields)
    (back : LeadsBack catalog record field) {other : Field n}
    (otherMember : other ∈ (build catalog naming record).fields) (starts : field.index <+: other.index) :
    other = field := by
  obtain ⟨decl, occurs, _, type, _⟩ := exists_decl_of_mem member
  obtain ⟨target, occursBelow, _⟩ := exists_decl_of_mem otherMember
  obtain ⟨rest, whole⟩ := starts
  by_cases proper : rest = []
  · rw [proper, List.append_nil] at whole
    exact eq_of_index (ascending_fieldTree record) otherMember member whole.symm
  · rw [← whole] at occursBelow
    cases leads : decl.type.base.record? with
    | none => exact absurd occursBelow (occurs.leaf_of_no_record leads proper)
    | some inner =>
      obtain ⟨id, mentioned, onWay⟩ := back
      rw [type, Ty.records_of_base leads, List.mem_singleton] at mentioned
      exact absurd occursBelow (occurs.cut List.mem_cons_self leads (.inr (mentioned ▸ onWay)) proper)

theorem winsPath_of_lookUp? {spelling : String} (found : (build catalog naming record).lookUp? spelling = some field) :
    (build catalog naming record).WinsPath field :=
  mem_named_iff.mp (mem_named_of_lookUp? found)

/-- Nothing is below the field, and it is read by its index. With a name, and not promoting, it is found by its path
unless another field of that path beats it, and without an ancestor of its own it is a column unless another one of
that name, in any case, beats it. A promoting field is neither found nor a column. -/
structure KeepsLeaf (codec : Codec n) (field : Field n) : Prop where
  leaf : ∀ other ∈ codec.fields, field.index <+: other.index → other = field
  childless : codec.children field = []
  read : codec.fieldAt? field.index = some field
  found : field.isNamed = true → (codec.lookUp? field.path = some field ↔
    ∀ other ∈ codec.fields, other.isNamed = true → field.path = other.path → field.Beats other)
  shadowed : field.isNamed = true → ∃ winner, codec.lookUp? field.path = some winner ∧ winner.path = field.path ∧
    winner.Beats field
  column : field.isNamed = true → codec.columnAncestor? field = none → (field ∈ codec.properties ↔
    ∀ other, codec.IsCandidate other → sameColumn field other = true → field.Beats other)
  carrier : field.promotes = true → field ∉ codec.properties ∧ ∀ spelling, codec.lookUp? spelling ≠ some field

theorem recursive_fields_are_kept (member : field ∈ (build catalog naming record).fields)
    (back : LeadsBack catalog record field) : (build catalog naming record).KeepsLeaf field where
  leaf _ := leaf_of_leadsBack member back
  childless := by
    refine List.eq_nil_iff_forall_not_mem.mpr fun child isChild => ?_
    obtain ⟨childMember, above⟩ := index_of_mem_children isChild
    have same := leaf_of_leadsBack member back childMember (above ▸ List.dropLast_prefix _)
    have shorter := congrArg List.length (same ▸ above)
    have proper := List.length_pos_iff.mpr (linked_build member).1
    rw [List.length_dropLast] at shorter
    omega
  read := found_iff.mpr ⟨member, rfl⟩
  found := by
    intro named
    constructor
    · exact fun found => (winsPath_of_lookUp? found).2.2
    · exact fun beats => lookUp?_of_winsPath ⟨member, named, beats⟩
  shadowed := by
    intro named
    obtain ⟨winner, found, path, wins⟩ := (build_findsWinners catalog naming record).paths field member named
    exact ⟨winner, found, path, wins.2.2 field member named path⟩
  column := by
    intro named top
    have candidate : (build catalog naming record).IsCandidate field :=
      isCandidate_iff.mpr (List.mem_filter.mpr ⟨member, by simp [named, top]⟩)
    rw [(build_hasColumns catalog naming record).winning, and_iff_right candidate]
  carrier := by
    intro promotes
    refine ⟨fun column => ?_, fun spelling found => ?_⟩
    · have own := (isCandidate_of_mem_properties column).2.2.1
      rw [promotes] at own
      cases own
    · have named := (winsPath_of_lookUp? found).2.1
      simp [Field.isNamed, promotes] at named

def knots (embedded : Bool) : Catalog 1 := fun _ =>
  { typeName := "Knot"
    fields := [{ name := "v", type := .scalar (.signed .w64) },
      { name := "next", type := .option (.boxed (.record 0)), embedded }] }

def nextKnot (embedded : Bool) : Field 1 where
  name := "next"
  path := "next"
  type := .option (.boxed (.record 0))
  index := [1]
  tag := .parse ""
  nullable := true
  embedded := embedded
  parent := none

theorem build_knots (embedded : Bool) :
    build (knots embedded) id 0 =
      { record := 0, typeName := "Knot", fields := grow (knots embedded) id 1 0 [.root 0] } := by
  rw [build_eq_insertionSort]
  cases embedded <;> decide

theorem nextKnot_leadsBack (embedded : Bool) : LeadsBack (knots embedded) 0 (nextKnot embedded) :=
  ⟨0, List.mem_cons_self, List.mem_cons_self⟩

theorem next_knot_is_kept :
    nextKnot false ∈ (build (knots false) id 0).fields ∧ LeadsBack (knots false) 0 (nextKnot false) ∧
      (build (knots false) id 0).KeepsLeaf (nextKnot false) := by
  have listed : (build (knots false) id 0).fields[1]? = some (nextKnot false) := by
    rw [build_knots]
    decide
  have member := List.mem_of_getElem? listed
  exact ⟨member, nextKnot_leadsBack false, recursive_fields_are_kept member (nextKnot_leadsBack false)⟩

theorem embedded_knot_is_lost :
    nextKnot true ∈ (build (knots true) id 0).fields ∧ LeadsBack (knots true) 0 (nextKnot true) ∧
      (nextKnot true).name ≠ "" ∧
      (∀ other ∈ (build (knots true) id 0).fields, other.path = (nextKnot true).path → other = nextKnot true) ∧
      (build (knots true) id 0).columnAncestor? (nextKnot true) = none ∧
      (build (knots true) id 0).lookUp? (nextKnot true).path = none ∧
      nextKnot true ∉ (build (knots true) id 0).properties := by
  have listed : (build (knots true) id 0).fields[1]? = some (nextKnot true) := by
    rw [build_knots]
    decide
  have member := List.mem_of_getElem? listed
  have paths : (build (knots true) id 0).fields.map (fun field => (field.path, field.index)) =
      [("v", [0]), ("next", [1])] := by
    rw [build_knots]
    decide
  have columns : (build (knots true) id 0).properties.map Field.index = [[0]] := by
    rw [build_knots, properties, winners_eq_insertionSort]
    decide
  have apart : (build (knots true) id 0).columnAncestor? (nextKnot true) = none := by
    rw [build_knots]
    decide
  have lost : (build (knots true) id 0).lookUp? (nextKnot true).path = none := by
    rw [build_knots, lookUp?, named, winners_eq_insertionSort]
    decide
  refine ⟨member, nextKnot_leadsBack true, by decide, ?_, apart, lost, ?_⟩
  · intro other otherMember same
    have entry := paths ▸ List.mem_map_of_mem (f := fun field : Field 1 => (field.path, field.index)) otherMember
    rw [same] at entry
    exact eq_of_index (ascending_fieldTree 0) otherMember member (by simpa [nextKnot] using entry)
  · intro column
    have entry := columns ▸ List.mem_map_of_mem (f := Field.index) column
    simp [nextKnot] at entry

end Codec

end SqlComposer
