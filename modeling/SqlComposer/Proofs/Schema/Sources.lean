import SqlComposer.Proofs.Schema.Alteration
import SqlComposer.Proofs.Schema.Generated

namespace SqlComposer

variable {n : Nat} {catalog : Catalog n} {naming : String → String} {record : Fin n}

theorem Ty.kind_of_record? {type : Ty n} (leads : type.record?.isSome) : type.kind = .record := by
  induction type with
  | record id => rfl
  | boxed inner ih => exact ih leads
  | _ => simp [Ty.record?] at leads

namespace Schema

theorem column_of_record (config : Config) {field : Field n} (leads : field.type.base.record?.isSome)
    (unknown : Category.mysqlNames.lookup (field.type.base.name catalog) = none) :
    ∃ column, (Builder.mysql config).column catalog field = .ok column ∧ column.sqlType = "JSON" := by
  have category : (Builder.mysql config).category? catalog field.type = some .json := by
    simp only [Builder.category?, Builder.mysql, Category.lookUp?, unknown, Category.ofKind?,
      Ty.kind_of_record? leads]
  refine ⟨{ plainColumn field with dataType := "JSON", sqlType := "JSON" }, ?_, rfl⟩
  simp only [Builder.column, category, Option.bind_some]
  rfl

theorem exists_root_of_generated {builder : Builder n} {codec : Codec n} {field : Field n} {definition : Definition}
    (made : generatedDefinition builder catalog codec field = .ok (some definition)) :
    ∃ root, codec.columnRoot? field = some root := by
  have named := name_generatedDefinition made
  unfold computedName? at named
  cases rooted : codec.columnRoot? field with
  | some root => exact ⟨root, rfl⟩
  | none => simp [rooted] at named

end Schema

namespace Codec

def WritesColumn (catalog : Catalog n) (codec : Codec n) (field : Field n) : Prop :=
  ∀ values : List Datum, (∀ value ∈ values, value.fits catalog (.record codec.record) = true) →
    ∀ insert : Sql.Insert, field.name ∉ insert.omitted →
      ∃ (written : Sql.Insert) (place : Nat),
        codec.insertRecords catalog (.record codec.record) values insert = (written, .ok ()) ∧
        written.columns[place]? = some field.name ∧
        ∀ (i : Nat) value, values[i]? = some value →
          value.valueAt catalog (.record codec.record) field.index = some (entryOf catalog field value) ∧
            (written.rows[insert.rows.length + i]?.bind (·[place]?)) =
              some (Sql.Expr.value (entryOf catalog field value))

theorem writesColumn_of_mem_properties {field : Field n} (member : field ∈ (build catalog naming record).properties) :
    WritesColumn catalog (build catalog naming record) field := by
  intro values fit insert kept
  have unomittedMember : field ∈ (build catalog naming record).unomitted insert.omitted :=
    List.mem_filter.mpr ⟨member, by simpa using kept⟩
  obtain ⟨place, placed⟩ := List.mem_iff_getElem?.mp unomittedMember
  have fit : ∀ value ∈ values, value.fits catalog (.record record) = true := fit
  refine ⟨_, place, insertRecords_eq fit insert, ?_, ?_⟩
  · rw [List.getElem?_map, placed, Option.map_some]
  · intro i value held
    refine ⟨valueAt_eq_entryOf (isField_of_unomitted unomittedMember) (fit value (List.mem_of_getElem? held)), ?_⟩
    rw [List.getElem?_append_right (Nat.le_add_right _ _), Nat.add_sub_cancel_left, List.getElem?_map, held,
      Option.map_some, Option.bind_some, rowOf, List.getElem?_map, placed, Option.map_some]

structure HoldsColumn (config : Schema.Config) (catalog : Catalog n) (codec : Codec n)
    (all : List Schema.Definition) (field : Field n) : Prop where
  member : field ∈ codec.properties
  defined : ∃ column, (Schema.Builder.mysql config).column catalog field = .ok column ∧ column.IsFor field ∧
    column.asDefinition ∈ all
  written : WritesColumn catalog codec field

/-- The column named by the root is that of the one field that wins the name, which is the root itself just if nothing
beats it. The root's own column holds documents unless its type is known by name. -/
structure ReadsWinner (config : Schema.Config) (catalog : Catalog n) (codec : Codec n)
    (all : List Schema.Definition) (root : Field n) : Prop where
  own : HoldsColumn config catalog codec all root ↔
    root.name ≠ "" ∧ ∀ other, codec.IsCandidate other → sameColumn root other = true → root.Beats other
  won : root.name ≠ "" → ∃ winner, HoldsColumn config catalog codec all winner ∧ sameColumn root winner = true ∧
    ∀ other ∈ codec.properties, sameColumn root other = true → other = winner
  document : Schema.Category.mysqlNames.lookup (root.type.base.name catalog) = none →
    ∃ column, (Schema.Builder.mysql config).column catalog root = .ok column ∧ column.sqlType = "JSON"

theorem holdsColumn {config : Schema.Config} {all : List Schema.Definition} {field : Field n}
    (made : Schema.definitions (.mysql config) catalog (build catalog naming record) = .ok all)
    (member : field ∈ (build catalog naming record).properties) :
    HoldsColumn config catalog (build catalog naming record) all field := by
  obtain ⟨columns, _, found, _, rfl⟩ := Schema.definitions_eq_ok_iff.mp made
  obtain ⟨column, columnMember, shown⟩ := Schema.exists_of_mem_left found member
  have listed := List.mem_map_of_mem (f := Schema.Column.asDefinition) columnMember
  exact ⟨member, ⟨column, shown, Schema.isFor_of_column shown, List.mem_append_left _ listed⟩,
    writesColumn_of_mem_properties member⟩

theorem IsRoot.isCandidate {codec : Codec n} {root field : Field n} (isRoot : codec.IsRoot root field)
    (named : root.name ≠ "") : codec.IsCandidate root := ⟨isRoot.member, named, isRoot.own, isRoot.outermost⟩

theorem readsWinner {config : Schema.Config} {all : List Schema.Definition}
    (made : Schema.definitions (.mysql config) catalog (build catalog naming record) = .ok all) {root field : Field n}
    (member : field ∈ (build catalog naming record).fields) (isRoot : (build catalog naming record).IsRoot root field) :
    ReadsWinner config catalog (build catalog naming record) all root := by
  have hasColumns := build_hasColumns catalog naming record
  refine ⟨⟨?_, ?_⟩, ?_, ?_⟩
  · intro holds
    obtain ⟨candidate, unbeaten⟩ := (hasColumns.winning root).mp holds.member
    exact ⟨candidate.2.1, unbeaten⟩
  · rintro ⟨named, unbeaten⟩
    exact holdsColumn made ((hasColumns.winning root).mpr ⟨isRoot.isCandidate named, unbeaten⟩)
  · intro named
    obtain ⟨winner, ⟨winnerMember, same⟩, unique⟩ := hasColumns.one root (isRoot.isCandidate named)
    exact ⟨winner, holdsColumn made winnerMember, same, fun other otherMember sameToo =>
      unique other ⟨otherMember, sameToo⟩⟩
  · exact Schema.column_of_record config (exists_keysBelow isRoot member).1

structure ComputesFromWinners (config : Schema.Config) (catalog : Catalog n) (codec : Codec n)
    (all : List Schema.Definition) (columns : List Schema.Column) (computed : List Schema.Definition) : Prop where
  created : ∀ database name key, ∃ more options, Schema.createTable (.mysql config) catalog codec database name key =
    .ok (Schema.TableText.render
      { table := Sql.quoteTable database name, definitions := all.map (·.text) ++ more, options })
  altered : ∀ database name key hasKey existing,
    Schema.alterTable (.mysql config) catalog codec database name key hasKey existing =
      .ok ("ALTER TABLE " ++ Sql.quoteTable database name ++ " " ++ Text.joined ", "
        ((Schema.changes existing none all).map Schema.Change.text ++ Schema.keyClauses codec key hasKey))
  split : all = columns.map Schema.Column.asDefinition ++ computed
  plain : Schema.AreColumns (.mysql config) catalog codec.properties columns
  computed : ∀ definition ∈ computed, ∃ field ∈ codec.fields, ∃ root, codec.columnRoot? field = some root ∧
    codec.IsRoot root field ∧
    (∃ sqlType storage,
      definition.text = Schema.generatedText root field definition.name sqlType storage) ∧
    ReadsWinner config catalog codec all root

theorem computed_columns_read_winners {config : Schema.Config} {all : List Schema.Definition}
    (made : Schema.definitions (.mysql config) catalog (build catalog naming record) = .ok all) :
    ∃ columns computed, ComputesFromWinners config catalog (build catalog naming record) all columns computed := by
  obtain ⟨columns, computed, found, generated, split⟩ := Schema.definitions_eq_ok_iff.mp made
  refine ⟨columns, computed, ?_, Schema.alterTable_eq_ok made, split, found, ?_⟩
  · intro database name key
    obtain ⟨more, created⟩ := Schema.createTable_of_definitions made database name key
    exact ⟨more, _, created⟩
  · intro definition member
    obtain ⟨field, fieldMember, shown⟩ := Schema.exists_of_mem_generatedDefinitions generated member
    obtain ⟨root, rooted⟩ := Schema.exists_root_of_generated shown
    have isRoot := isRoot_of_columnRoot? fieldMember rooted
    obtain ⟨column, storage, _, text⟩ := Schema.generatedDefinition_eq_ok rooted shown
    exact ⟨field, fieldMember, root, rooted, isRoot, ⟨_, _, text⟩, readsWinner made fieldMember isRoot⟩

def cars : Catalog 3 :=
  List.get
    [⟨"Car",
      [{ name := "base", type := .record ⟨1, by decide⟩, embedded := true },
       { name := "meta", type := .scalar (.signed .w64) }]⟩,
     ⟨"Base", [{ name := "meta", type := .record (Fin.last 2) }]⟩,
     ⟨"Meta", [{ name := "color", tag := ",virtual_column", type := .scalar .string }]⟩]

def carColumns : List Schema.Definition :=
  [⟨"meta", "\x60meta\x60 BIGINT NOT NULL DEFAULT 0"⟩,
   ⟨"color", "\x60color\x60 VARCHAR(191) AS (\x60meta\x60->>'$.color') VIRTUAL"⟩]

theorem definitions_cars : Schema.definitions (.mysql {}) cars (.build cars id 0) = .ok carColumns := by
  simp only [Schema.definitions, properties, winners_eq_insertionSort, build_eq_insertionSort]
  rfl

theorem color_of_cars_is_computed :
    Schema.definitions (.mysql {}) cars (.build cars id 0) = .ok carColumns ∧
      ∃ columns computed, ComputesFromWinners {} cars (.build cars id 0) carColumns columns computed :=
  ⟨definitions_cars, computed_columns_read_winners definitions_cars⟩

theorem color_is_read_from_number :
    Schema.definitions (.mysql {}) cars (.build cars id 0) = .ok carColumns ∧
      (build cars id 0).properties.map Field.index = [[1]] ∧
      ∃ field root, (build cars id 0).fieldAt? [0, 0, 0] = some field ∧
        Schema.generatedDefinition (.mysql {}) cars (build cars id 0) field = .ok carColumns[1]? ∧
        (build cars id 0).columnRoot? field = some root ∧ root.index = [0, 0] ∧
        root ∉ (build cars id 0).properties := by
  have columns : (build cars id 0).properties.map Field.index = [[1]] := by
    simp only [properties, winners_eq_insertionSort, build_eq_insertionSort]
    decide
  have computed : ∃ field root, (build cars id 0).fieldAt? [0, 0, 0] = some field ∧
      Schema.generatedDefinition (.mysql {}) cars (build cars id 0) field = .ok carColumns[1]? ∧
      (build cars id 0).columnRoot? field = some root ∧ root.index = [0, 0] := by
    simp only [build_eq_insertionSort]
    exact ⟨_, _, rfl, rfl, rfl, rfl⟩
  obtain ⟨field, root, read, generated, rooted, index⟩ := computed
  refine ⟨definitions_cars, columns, field, root, read, generated, rooted, index, ?_⟩
  intro member
  have listed := List.mem_map_of_mem (f := Field.index) member
  simp [columns, index] at listed

end Codec

end SqlComposer
