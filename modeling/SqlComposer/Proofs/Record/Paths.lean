import SqlComposer.Proofs.Schema.Generated

namespace SqlComposer

variable {n : Nat} {catalog : Catalog n} {naming : String → String}

namespace Codec

def carriers (codec : Codec n) (field : Field n) : List (Field n) :=
  codec.fields.filter fun ancestor =>
    ancestor.index.isPrefixOf field.index && ancestor.index != field.index && !ancestor.promotes

variable {record : Fin n} {field parent : Field n}

theorem holders_of_top {codec : Codec n} (top : codec.parent? field = none) : codec.holders field = [] := by
  rw [holders, ancestors]
  cases field.depth with
  | zero => rfl
  | succ bound => rw [ancestorsWithin, top, List.filter_nil]

theorem holders_of_parent (member : field ∈ (build catalog naming record).fields)
    (above : (build catalog naming record).parent? field = some parent) :
    (build catalog naming record).holders field =
      if parent.promotes then (build catalog naming record).holders parent
      else parent :: (build catalog naming record).holders parent := by
  obtain ⟨_, shown⟩ := found_iff.mp ((parent?_eq_fieldAt? member).symm.trans above)
  have deeper : field.depth = parent.depth + 1 := by
    have long := List.length_pos_of_ne_nil (linked_build member).1
    rw [Field.depth, Field.depth, shown, List.length_dropLast]
    omega
  rw [holders, ancestors, deeper, ancestorsWithin, above]
  cases promoting : parent.promotes <;> simp [holders, ancestors, promoting]

theorem mem_holders_iff {ancestor : Field n} (member : field ∈ (build catalog naming record).fields) :
    ancestor ∈ (build catalog naming record).holders field ↔
      ancestor ∈ (build catalog naming record).carriers field := by
  simp only [holders, carriers, List.mem_filter, mem_ancestors_iff member, List.isPrefixOf_iff_prefix, Bool.and_eq_true,
    bne_iff_ne]
  tauto

theorem index_lt_of_depth_lt {outer inner : Field n} (starts : outer.index <+: field.index)
    (startsToo : inner.index <+: field.index) (less : outer.depth < inner.depth) : outer.index < inner.index := by
  obtain ⟨rest, whole⟩ := List.prefix_of_prefix_length_le starts startsToo (Nat.le_of_lt less)
  have proper : rest ≠ [] := by
    rintro rfl
    have lengths := congrArg List.length whole
    simp only [List.append_nil] at lengths
    exact Nat.ne_of_lt less lengths
  exact whole ▸ index_lt_below proper

theorem reverse_holders (member : field ∈ (build catalog naming record).fields) :
    ((build catalog naming record).holders field).reverse = (build catalog naming record).carriers field := by
  have starts : ∀ ancestor ∈ (build catalog naming record).holders field, ancestor.index <+: field.index :=
    fun ancestor isHolder => ((mem_ancestors_iff member).mp (List.mem_of_mem_filter isHolder)).2.1
  have ascending : ((build catalog naming record).holders field).reverse.Pairwise
      fun outer inner => outer.index < inner.index := by
    rw [List.pairwise_reverse]
    apply ((pairwise_ancestors member).filter _).imp_of_mem
    intro near far isNear isFar less
    exact index_lt_of_depth_lt (starts far isFar) (starts near isNear) less
  have ascendingToo : ((build catalog naming record).carriers field).Pairwise
      fun outer inner => outer.index < inner.index := (ascending_fieldTree record).filter _
  have perm : ((build catalog naming record).holders field).reverse.Perm
      ((build catalog naming record).carriers field) := by
    refine (List.perm_ext_iff_of_nodup (ascending.imp ?_) (ascendingToo.imp ?_)).mpr fun ancestor => ?_
    · exact fun less same => less.ne (congrArg Field.index same)
    · exact fun less same => less.ne (congrArg Field.index same)
    · rw [List.mem_reverse, mem_holders_iff member]
  exact perm.eq_of_pairwise (fun _ _ _ _ less greater => absurd less (lt_asymm greater)) ascending ascendingToo

theorem stemOf_eq (member : field ∈ (build catalog naming record).fields) :
    stemOf naming (route catalog record field.index.dropLast) =
      (((build catalog naming record).holders field).reverse.map Field.name).foldl under "" := by
  -- One level is what one step of the climb passes, so that the induction is on the depth.
  induction depth : field.depth generalizing field with
  | zero => exact absurd (List.length_eq_zero_iff.mp depth) (linked_build member).1
  | succ depth ih =>
    cases above : (build catalog naming record).parent? field with
    | none =>
      rw [holders_of_top above, index_of_parent?_eq_none member above]
      rfl
    | some parent =>
      obtain ⟨parentMember, shown⟩ := found_iff.mp ((parent?_eq_fieldAt? member).symm.trans above)
      obtain ⟨decl, occurs, name, _, promotes⟩ := exists_decl_of_mem parentMember
      have handed := ih parentMember (by
        rw [Field.depth, shown, List.length_dropLast, ← Field.depth, depth, Nat.add_sub_cancel])
      rw [← shown, occurs.route_eq, stemOf_concat, handed, holders_of_parent member above, ← promotes, ← name]
      cases promoting : parent.promotes <;> simp [List.foldl_append]

theorem path_eq_carriers (named : ∀ field ∈ (build catalog naming record).fields, field.name ≠ "")
    (member : field ∈ (build catalog naming record).fields) :
    field.path = Text.joined "."
      (((build catalog naming record).carriers field).map Field.name ++ [field.name]) := by
  have proper : ∀ key ∈ ((build catalog naming record).carriers field).map Field.name ++ [field.name], key ≠ "" := by
    intro key listed
    rcases List.mem_append.mp listed with above | own
    · obtain ⟨ancestor, carries, rfl⟩ := List.mem_map.mp above
      exact named ancestor (List.mem_of_mem_filter carries)
    · exact List.mem_singleton.mp own ▸ named field member
  rw [(routed_build member).path, stemOf_eq member, reverse_holders member, ← foldl_under_empty proper,
    List.foldl_append]
  rfl

theorem carriers_of_isRoot {root : Field n} (isRoot : (build catalog naming record).IsRoot root field) :
    (build catalog naming record).carriers root = [] := by
  refine List.eq_nil_iff_forall_not_mem.mpr fun ancestor carries => ?_
  simp only [carriers, List.mem_filter, List.isPrefixOf_iff_prefix, Bool.and_eq_true, bne_iff_ne, Bool.not_eq_true']
    at carries
  obtain ⟨member, ⟨starts, different⟩, own⟩ := carries
  exact absurd (isRoot.outermost ancestor member starts different) (by simp [own])

theorem columnAncestor?_eq (member : field ∈ (build catalog naming record).fields) :
    (build catalog naming record).columnAncestor? field = ((build catalog naming record).carriers field).getLast? := by
  rw [columnAncestor?, ← reverse_holders member, List.getLast?_reverse]

theorem columnRoot?_eq (member : field ∈ (build catalog naming record).fields) :
    (build catalog naming record).columnRoot? field = ((build catalog naming record).carriers field).head? := by
  rw [columnRoot?, ← reverse_holders member, List.head?_reverse]

structure RunsBelow (catalog : Catalog n) (codec : Codec n) (root field : Field n) (keys : List String) : Prop where
  path : field.path = root.path ++ "." ++ Text.joined "." keys
  stripped : root.path.toList.isPrefixOf? field.path.toList = some ('.' :: (Text.joined "." keys).toList)
  relative : Schema.documentPath root field = Text.joined "." keys
  text : ∀ builder definition,
    Schema.generatedDefinition builder catalog codec field = .ok (some definition) →
      ∃ sqlType storage, definition.text = Sql.quote definition.name ++ " " ++ sqlType ++ " AS (" ++
        Sql.quote root.name ++ "->>" ++ Schema.literal ("$." ++ Text.joined "." keys) ++ ") " ++ storage

/-- Paths are made of the names of the carriers and the field's own. The column that a field lies in is the first of its
carriers, the nearest ancestor with a value of its own the last, and below the column the path goes on by the other
names. -/
structure HasPaths (catalog : Catalog n) (codec : Codec n) : Prop where
  path : ∀ field ∈ codec.fields,
    field.path = Text.joined "." ((codec.carriers field).map Field.name ++ [field.name])
  nearest : ∀ field ∈ codec.fields, codec.columnAncestor? field = (codec.carriers field).getLast?
  outermost : ∀ field ∈ codec.fields, codec.columnRoot? field = (codec.carriers field).head?
  absent : ∀ field ∈ codec.fields, (codec.columnAncestor? field = none ↔ codec.carriers field = []) ∧
    (codec.columnRoot? field = none ↔ codec.carriers field = [])
  below : ∀ field ∈ codec.fields, ∀ root inner, codec.carriers field = root :: inner →
    RunsBelow catalog codec root field (inner.map Field.name ++ [field.name])

theorem runsBelow (named : ∀ field ∈ (build catalog naming record).fields, field.name ≠ "")
    (member : field ∈ (build catalog naming record).fields) {root : Field n} {inner : List (Field n)}
    (carried : (build catalog naming record).carriers field = root :: inner) :
    RunsBelow catalog (build catalog naming record) root field (inner.map Field.name ++ [field.name]) := by
  have rooted : (build catalog naming record).columnRoot? field = some root := by
    rw [columnRoot?_eq member, carried, List.head?_cons]
  have isRoot := isRoot_of_columnRoot? member rooted
  have rootPath : root.path = root.name := by
    rw [path_eq_carriers named isRoot.member, carriers_of_isRoot isRoot, List.map_nil, List.nil_append,
      Text.joined_singleton]
  have whole : field.path = Text.joined "." (root.name :: (inner.map Field.name ++ [field.name])) := by
    rw [path_eq_carriers named member, carried, List.map_cons, List.cons_append]
  obtain ⟨next, rest, keys⟩ := List.exists_cons_of_ne_nil
    (List.append_ne_nil_of_right_ne_nil (inner.map Field.name) (List.cons_ne_nil field.name []))
  have path : field.path = root.path ++ "." ++ Text.joined "." (inner.map Field.name ++ [field.name]) := by
    rw [whole, rootPath, keys, Text.joined_cons_cons]
  have relative : Schema.documentPath root field = Text.joined "." (inner.map Field.name ++ [field.name]) :=
    Schema.documentPath_eq (by simp) rootPath whole
  refine ⟨path, ?_, relative, ?_⟩
  · rw [List.isPrefixOf?_eq_some_iff_append_eq, path]
    simp [String.toList_append]
  · intro builder definition made
    obtain ⟨column, storage, _, shown⟩ := Schema.generatedDefinition_eq_ok rooted made
    exact ⟨column.sqlType, storage, by rw [shown, Schema.generatedText, relative]⟩

theorem paths_name_carriers (named : ∀ field ∈ (build catalog naming record).fields, field.name ≠ "") :
    HasPaths catalog (build catalog naming record) where
  path _ member := path_eq_carriers named member
  nearest _ member := columnAncestor?_eq member
  outermost _ member := columnRoot?_eq member
  absent field member := by
    rw [columnAncestor?_eq member, columnRoot?_eq member, List.getLast?_eq_none_iff, List.head?_eq_none_iff]
    exact ⟨Iff.rfl, Iff.rfl⟩
  below _ member _ _ carried := runsBelow named member carried

def parcels : Catalog 5 :=
  List.get
    [⟨"Parcel",
      [{ name := "id", type := .scalar (.signed .w64) },
       { name := "label", type := .record 1, embedded := true }]⟩,
     ⟨"Label", [{ name := "sender", type := .option (.record 2) }]⟩,
     ⟨"Person", [{ name := "address", type := .record 3, embedded := true }]⟩,
     ⟨"Address", [{ name := "place", type := .record 4 }]⟩,
     ⟨"Place", [{ name := "city", tag := "city,virtual_column=town", type := .scalar .string }]⟩]

theorem build_parcels :
    build parcels id 0 = { record := 0, typeName := "Parcel", fields := grow parcels id 5 0 [.root 0] } := by
  rw [build_eq_insertionSort]
  decide

theorem paths_of_parcels_name_carriers :
    (∀ field ∈ (build parcels id 0).fields, field.name ≠ "") ∧ HasPaths parcels (build parcels id 0) ∧
      (build parcels id 0).fields.map (fun field =>
          (field.path, ((build parcels id 0).carriers field).map Field.path)) =
        [("id", []), ("label", []), ("sender", []), ("sender.address", ["sender"]), ("sender.place", ["sender"]),
          ("sender.place.city", ["sender", "sender.place"])] := by
  have named : ∀ field ∈ (build parcels id 0).fields, field.name ≠ "" := by
    rw [build_parcels]
    decide
  refine ⟨named, paths_name_carriers named, ?_⟩
  rw [build_parcels]
  decide

end Codec

end SqlComposer
