import SqlComposer.Proofs.Record.Documents
import SqlComposer.Proofs.Record.Promotion
import SqlComposer.Proofs.Schema.Definitions
/-!
Columns that the database computes from the documents of other columns.

The path that a computed column follows is taken from the field tree, the document from the value. Both name the
same field.
-/

namespace SqlComposer

variable {n : Nat} {catalog : Catalog n} {record : Fin n}

theorem Text.parts_joined {keys : List String} (proper : keys ≠ []) (plain : ∀ key ∈ keys, '.' ∉ key.toList) :
    (Text.parts '.' (Text.joined "." keys).toList).map String.ofList = keys := by
  induction keys with
  | nil => contradiction
  | cons key keys ih =>
    have plainKey := plain key List.mem_cons_self
    cases keys with
    | nil => rw [Text.joined_singleton, Text.parts_eq_singleton plainKey, List.map_singleton, String.ofList_toList]
    | cons next keys =>
      have rest := ih (List.cons_ne_nil _ _) fun other member => plain other (List.mem_cons_of_mem _ member)
      have dotted : (Text.joined "." (key :: next :: keys)).toList =
          key.toList ++ '.' :: (Text.joined "." (next :: keys)).toList := by
        rw [Text.joined_cons_cons]
        simp [String.toList_append]
      rw [dotted, Text.parts_append plainKey, List.map_cons, rest, String.ofList_toList]

namespace Schema

theorem documentPath_eq {root field : Field n} {key : String} {keys : List String} (proper : keys ≠ [])
    (rootPath : root.path = key) (path : field.path = Text.joined "." (key :: keys)) :
    documentPath root field = Text.joined "." keys := by
  obtain ⟨next, rest, rfl⟩ := List.exists_cons_of_ne_nil proper
  have starts : root.path.toList.isPrefixOf? field.path.toList =
      some ('.' :: (Text.joined "." (next :: rest)).toList) := by
    rw [List.isPrefixOf?_eq_some_iff_append_eq, rootPath, path, Text.joined_cons_cons]
    simp [String.toList_append]
  rw [documentPath, starts]
  exact String.ofList_toList

def documentKeys (root field : Field n) : List String :=
  (Text.parts '.' (documentPath root field).toList).map String.ofList

theorem documentKeys_ne_nil (root field : Field n) : documentKeys root field ≠ [] := by
  simp [documentKeys, Text.parts_ne_nil]

theorem generatedDefinition_eq_ok {builder : Builder n} {codec : Codec n} {root field : Field n}
    (rooted : codec.columnRoot? field = some root) {definition : Definition}
    (made : generatedDefinition builder catalog codec field = .ok (some definition)) :
    ∃ column storage, builder.column catalog field = .ok column ∧
      definition.text = generatedText root field definition.name column.sqlType storage := by
  unfold generatedDefinition at made
  split at made
  · next storage given other _ found =>
    obtain rfl := Option.some.inj (rooted.symm.trans found)
    obtain ⟨column, shown, rest⟩ := bind_eq_ok_iff.mp made
    obtain rfl := Option.some.inj (pure_eq_ok_iff.mp rest)
    exact ⟨column, storage, shown, rfl⟩
  · cases made

end Schema

namespace Codec

/-- The fields of the record are told apart by their paths, made of names that are neither empty nor dotted, and what
is embedded without a name is entered. -/
structure HasPlainPaths (catalog : Catalog n) (codec : Codec n) : Prop where
  named : ∀ field ∈ codec.fields, field.name ≠ ""
  undotted : ∀ field ∈ codec.fields, '.' ∉ field.name.toList
  distinct : (codec.fields.map Field.path).Nodup
  expanded : ∀ field ∈ codec.fields, ∀ decl ∈ (route catalog codec.record field.index).getLast?,
    decl.embedded = true → decl.parsedTag.name = "" → ∃ inner ∈ decl.type.base.record?,
      ∀ entry ∈ keptFields catalog inner, (codec.fieldAt? (field.index ++ [entry.2])).isSome

theorem separated_of_plainPaths (plain : (build catalog id record).HasPlainPaths catalog) :
    Separated catalog [record] record where
  distinct := by
    intro index other decl otherDecl occurs occursToo same
    obtain ⟨field, member, rfl, _⟩ := exists_mem_of_occurs id occurs
    obtain ⟨fieldToo, memberToo, rfl, _⟩ := exists_mem_of_occurs id occursToo
    have paths : field.path = fieldToo.path := by
      rw [path_eq_joined plain.named member, path_eq_joined plain.named memberToo, same]
    exact congrArg Field.index (List.inj_on_of_nodup_map plain.distinct member memberToo paths)
  expanded := by
    intro index decl occurs embedded untagged
    obtain ⟨field, member, rfl, _⟩ := exists_mem_of_occurs id occurs
    have last : (route catalog record field.index).getLast? = some decl := by
      rw [occurs.route_eq, List.getLast?_concat]
    obtain ⟨inner, leads, entered⟩ := plain.expanded field member decl last embedded untagged
    refine ⟨inner, leads, fun position below declared kept => ?_⟩
    obtain ⟨reached, found⟩ := Option.isSome_iff_exists.mp
      (entered (below, position) (mem_keptFields.mpr ⟨declared, kept⟩))
    obtain ⟨reachedMember, shown⟩ := found_iff.mp found
    obtain ⟨target, occursBelow, _⟩ := exists_decl_of_mem reachedMember
    rw [shown] at occursBelow
    obtain ⟨above, innerToo, inside, occursAbove, leadsToo, _, single⟩ :=
      occursBelow.split occurs.ne_nil (List.cons_ne_nil _ _)
    obtain rfl := occurs.unique occursAbove
    obtain rfl := Option.some.inj (leads.symm.trans leadsToo)
    obtain rfl := Option.some.inj (declared.symm.trans (occurs_singleton_iff.mp single).1)
    exact occursBelow

section Rooted

variable {naming : String → String} {root field : Field n} (isRoot : (build catalog naming record).IsRoot root field)

include isRoot

theorem keysOf_route_root : keysOf naming (route catalog record root.index) = [root.name] := by
  obtain ⟨decl, promoted, name, _⟩ := exists_promoted isRoot.member isRoot.own isRoot.outermost
  rw [promoted.occurs.route_eq, keysOf_append, keysOf_above promoted, keysOf_cons, promoted.own,
    if_neg Bool.false_ne_true, ← name]
  rfl

theorem pathKeys_route_root : pathKeys naming (route catalog record root.index) = [root.name] := by
  obtain ⟨decl, occurs, name, _, own⟩ := exists_decl_of_mem isRoot.member
  have keys := keysOf_route_root isRoot
  rw [occurs.route_eq, keysOf_append, keysOf_cons, ← own, isRoot.own, if_neg Bool.false_ne_true] at keys
  rw [occurs.route_eq, pathKeys_concat]
  exact keys

theorem exists_keysBelow (member : field ∈ (build catalog naming record).fields) :
    root.type.base.record?.isSome ∧ ∃ keys, keys ≠ [] ∧
      pathKeys naming (route catalog record field.index) = root.name :: keys ∧
      ∀ key ∈ keys, ∃ other ∈ (build catalog naming record).fields, other.name = key := by
  obtain ⟨decl, occurs, _⟩ := exists_decl_of_mem member
  obtain ⟨rootDecl, occursRoot, _, rootType, _⟩ := exists_decl_of_mem isRoot.member
  obtain ⟨rest, split⟩ := isRoot.above
  have proper : rest ≠ [] := by
    rintro rfl
    exact isRoot.proper (by simpa using split)
  rw [← split] at occurs ⊢
  obtain ⟨above, inner, inside, occursAbove, leads, reached, below⟩ := occurs.split occursRoot.ne_nil proper
  obtain rfl := occursRoot.unique occursAbove
  refine ⟨by simp [rootType, leads], pathKeys naming (route catalog inner rest), pathKeys_ne_nil below.route_ne_nil,
    ?_, ?_⟩
  · rw [route_append reached, pathKeys_append _ below.route_ne_nil, keysOf_route_root isRoot, List.singleton_append]
  · intro key keyMember
    obtain ⟨other, onRoute, rfl⟩ := exists_of_mem_pathKeys keyMember
    have onWhole : other ∈ route catalog record (root.index ++ rest) := by
      rw [route_append reached]
      exact List.mem_append_right _ onRoute
    obtain ⟨stem, _, occursOther⟩ := occurs.of_mem_route onWhole
    obtain ⟨reachedField, reachedMember, _, name, _⟩ := exists_mem_of_occurs naming occursOther
    exact ⟨reachedField, reachedMember, name⟩

end Rooted

theorem documentKeys_eq {naming : String → String} (plain : (build catalog naming record).HasPlainPaths catalog)
    {root field : Field n} (isRoot : (build catalog naming record).IsRoot root field)
    (member : field ∈ (build catalog naming record).fields) :
    pathKeys naming (route catalog record field.index) = root.name :: Schema.documentKeys root field ∧
      Schema.documentPath root field = Text.joined "." (Schema.documentKeys root field) := by
  obtain ⟨_, keys, proper, shown, names⟩ := exists_keysBelow isRoot member
  have rootPath : root.path = root.name := by
    rw [path_eq_joined plain.named isRoot.member, pathKeys_route_root isRoot, Text.joined_singleton]
  have path : field.path = Text.joined "." (root.name :: keys) := by
    rw [path_eq_joined plain.named member, shown]
  have undotted : ∀ key ∈ keys, '.' ∉ key.toList := by
    intro key keyMember
    obtain ⟨other, otherMember, rfl⟩ := names key keyMember
    exact plain.undotted other otherMember
  rw [shown, Schema.documentKeys, Schema.documentPath_eq proper rootPath path, Text.parts_joined proper undotted]
  exact ⟨rfl, rfl⟩

theorem follow?_eq (plain : (build catalog id record).HasPlainPaths catalog) {field : Field n}
    (member : field ∈ (build catalog id record).fields) (own : field.promotes = false) {value : Datum}
    (fits : value.fits catalog (.record record) = true) :
    Json.follow? (pathKeys id (route catalog record field.index)) (value.toJson catalog (.record record)) =
      (value.below? field.index).map (Datum.toJson catalog field.type) := by
  obtain ⟨decl, occurs, _, type, promotes⟩ := exists_decl_of_mem member
  obtain ⟨values, opens⟩ := Datum.exists_opens fits
  rw [opens.document, (separated_of_plainPaths plain).follow?_eq occurs (promotes ▸ own) opens.valuesFit, type,
    opens.below?_eq occurs.ne_nil]

/-- The keys lead from the document of the column to the value of the field, and nowhere if an option above the
field is absent. -/
structure ReadsField (catalog : Catalog n) (value : Datum) (column : SqlValue) (root field : Field n) : Prop where
  present : ¬ value.AbsentAbove field.index → ∃ part, value.below? field.index = some part ∧
    Json.follow? (Schema.documentKeys root field) column.document = some (part.toJson catalog field.type)
  absent : value.AbsentAbove field.index →
    Json.follow? (Schema.documentKeys root field) column.document = none

theorem exists_column (plain : (build catalog id record).HasPlainPaths catalog) {root field : Field n}
    (isRoot : (build catalog id record).IsRoot root field) (member : field ∈ (build catalog id record).fields)
    (own : field.promotes = false) {value : Datum} (fits : value.fits catalog (.record record) = true) :
    ∃ column, value.valueAt catalog (.record record) root.index = some column ∧
      Json.follow? (Schema.documentKeys root field) column.document =
        (value.below? field.index).map (Datum.toJson catalog field.type) := by
  have whole := follow?_eq plain member own fits
  have rootWhole := follow?_eq plain isRoot.member isRoot.own fits
  rw [(documentKeys_eq plain isRoot member).1, ← List.singleton_append, Json.follow?_append,
    ← pathKeys_route_root isRoot, rootWhole] at whole
  rcases reads_of_mem isRoot.member fits with ⟨part, found, fitsPart, read⟩ | ⟨absent, _, read⟩
  · obtain ⟨inner, leads⟩ := Option.isSome_iff_exists.mp (exists_keysBelow isRoot member).1
    rw [found, Option.map_some, Option.bind_some, ← Datum.document_encode leads fitsPart] at whole
    exact ⟨_, read, whole⟩
  · rw [Datum.below?_of_absentAbove absent, Option.map_none, Option.bind_none] at whole
    refine ⟨_, read, ?_⟩
    rw [← whole]
    exact Json.follow?_null (Schema.documentKeys_ne_nil root field)

theorem readsField (plain : (build catalog id record).HasPlainPaths catalog) {root field : Field n}
    (isRoot : (build catalog id record).IsRoot root field) (member : field ∈ (build catalog id record).fields)
    (own : field.promotes = false) {value : Datum} (fits : value.fits catalog (.record record) = true) :
    ∃ column, value.valueAt catalog (.record record) root.index = some column ∧
      ReadsField catalog value column root field := by
  obtain ⟨column, read, followed⟩ := exists_column plain isRoot member own fits
  refine ⟨column, read, ?_, ?_⟩
  · intro there
    rcases reads_of_mem member fits with ⟨part, found, _⟩ | ⟨absent, _⟩
    · exact ⟨part, found, by rw [followed, found, Option.map_some]⟩
    · exact absurd absent there
  · intro absent
    rw [followed, Datum.below?_of_absentAbove absent, Option.map_none]

structure IsReadFrom (catalog : Catalog n) (codec : Codec n) (root field : Field n) : Prop where
  reads : ∀ value : Datum, value.fits catalog (.record codec.record) = true →
    ∃ column, value.valueAt catalog (.record codec.record) root.index = some column ∧
      ReadsField catalog value column root field
  text : ∀ builder definition,
    Schema.generatedDefinition builder catalog codec field = .ok (some definition) →
      ∃ sqlType storage, definition.text = Sql.quote definition.name ++ " " ++ sqlType ++ " AS (" ++
        Sql.quote root.name ++ "->>" ++
        Schema.literal ("$." ++ Text.joined "." (Schema.documentKeys root field)) ++ ") " ++ storage

theorem computed_columns_read_their_fields (plain : (build catalog id record).HasPlainPaths catalog)
    {field root : Field n} (member : field ∈ (build catalog id record).fields) (own : field.promotes = false)
    (rooted : (build catalog id record).columnRoot? field = some root) :
    IsReadFrom catalog (build catalog id record) root field where
  reads _ fits := readsField plain (isRoot_of_columnRoot? member rooted) member own fits
  text := by
    intro builder definition made
    obtain ⟨column, storage, _, shown⟩ := Schema.generatedDefinition_eq_ok rooted made
    refine ⟨column.sqlType, storage, ?_⟩
    rw [shown, Schema.generatedText, ← (documentKeys_eq plain (isRoot_of_columnRoot? member rooted) member).2]

def shop : Catalog 3
  | 0 => ⟨"Order",
    [{ name := "id", tag := "id,primary_key", type := .scalar (.signed .w64) },
     { name := "customer", type := .option (.record 1) }]⟩
  | 1 => ⟨"Customer",
    [{ name := "name", type := .scalar .string },
     { name := "address", type := .option (.record 2), embedded := true }]⟩
  | 2 => ⟨"Address",
    [{ name := "city", tag := "city,virtual_column=town", type := .scalar .string }]⟩

def customer : Field 3 where
  name := "customer"
  path := "customer"
  type := .option (.record 1)
  index := [1]
  tag := .parse ""
  nullable := true
  embedded := false
  parent := none

def town : Field 3 where
  name := "city"
  path := "customer.city"
  type := .scalar .string
  index := [1, 1, 0]
  tag := .parse "city,virtual_column=town"
  nullable := true
  embedded := false
  parent := some 3

theorem build_shop : build shop id 0 = { record := 0, typeName := "Order", fields := grow shop id 3 0 [.root 0] } := by
  rw [build_eq_insertionSort]
  decide

theorem town_is_read_from_customer :
    (build shop id 0).HasPlainPaths shop ∧ town ∈ (build shop id 0).fields ∧ town.promotes = false ∧
      (build shop id 0).columnRoot? town = some customer ∧ IsReadFrom shop (build shop id 0) customer town := by
  have plain : (build shop id 0).HasPlainPaths shop := by
    rw [build_shop]
    constructor <;> decide
  have member : town ∈ (build shop id 0).fields := by
    rw [build_shop]
    decide
  have own : town.promotes = false := by decide
  have rooted : (build shop id 0).columnRoot? town = some customer := by
    rw [build_shop]
    decide
  exact ⟨plain, member, own, rooted, computed_columns_read_their_fields plain member own rooted⟩

end Codec

end SqlComposer
