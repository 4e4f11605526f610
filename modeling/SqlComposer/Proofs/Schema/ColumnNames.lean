import SqlComposer.Proofs.Record.Rows

namespace SqlComposer

variable {n : Nat}

def Text.Unlike (names : List String) : Prop := names.Pairwise fun a b => Text.sameName a b = false

instance (names : List String) : Decidable (Text.Unlike names) := inferInstanceAs (Decidable (List.Pairwise _ names))

theorem Text.unlike_iff {names : List String} : Text.Unlike names ↔ (names.map Text.lowerAscii).Nodup := by
  rw [Text.Unlike, List.Nodup, List.pairwise_map]
  simp only [Text.sameName, beq_eq_false_iff_ne]

theorem Text.unlike_append {names more : List String} :
    Text.Unlike (names ++ more) ↔ Text.Unlike names ∧ Text.Unlike more ∧
      ∀ name ∈ names, ∀ other ∈ more, Text.sameName name other = false :=
  List.pairwise_append

namespace Schema

def computedName? (codec : Codec n) (field : Field n) : Option String :=
  match generatedOption? field.tag, codec.columnRoot? field with
  | some (_, given), some _ => some (if given = "" then field.name else given)
  | _, _ => none

def computedNames (codec : Codec n) : List String := codec.fields.filterMap (computedName? codec)

section Names

variable {builder : Builder n} {catalog : Catalog n} {codec : Codec n}

theorem name_generatedDefinition {field : Field n} {made : Option Definition}
    (shown : generatedDefinition builder catalog codec field = .ok made) :
    made.map (·.name) = computedName? codec field := by
  unfold generatedDefinition at shown
  unfold computedName?
  cases tagged : generatedOption? field.tag with
  | none =>
    rw [tagged] at shown
    obtain rfl := pure_eq_ok_iff.mp shown
    rfl
  | some option => cases rooted : codec.columnRoot? field with
    | none =>
      rw [tagged, rooted] at shown
      obtain rfl := pure_eq_ok_iff.mp shown
      rfl
    | some root =>
      rw [tagged, rooted] at shown
      obtain ⟨column, _, shown⟩ := bind_eq_ok_iff.mp shown
      obtain rfl := pure_eq_ok_iff.mp shown
      rfl

theorem generatedDefinitions_eq_ok_iff {generated : List Definition} :
    generatedDefinitions builder catalog codec = .ok generated ↔
      ∃ outcomes, List.Forall₂ (fun field outcome => generatedDefinition builder catalog codec field = .ok outcome)
        codec.fields outcomes ∧ generated = outcomes.reduceOption := filterMapM_eq_ok_iff

theorem exists_of_mem_generatedDefinitions {generated : List Definition}
    (made : generatedDefinitions builder catalog codec = .ok generated) {definition : Definition}
    (member : definition ∈ generated) :
    ∃ field ∈ codec.fields, generatedDefinition builder catalog codec field = .ok (some definition) := by
  obtain ⟨outcomes, found, rfl⟩ := generatedDefinitions_eq_ok_iff.mp made
  exact exists_of_mem_right found (List.reduceOption_mem_iff.mp member)

theorem names_generatedDefinitions {generated : List Definition}
    (made : generatedDefinitions builder catalog codec = .ok generated) :
    generated.map (·.name) = computedNames codec := by
  obtain ⟨outcomes, found, rfl⟩ := generatedDefinitions_eq_ok_iff.mp made
  have names : codec.fields.map (computedName? codec) = outcomes.map (Option.map (·.name)) := by
    rw [← List.forall₂_eq_eq_eq, List.forall₂_map_left_iff, List.forall₂_map_right_iff]
    exact found.imp fun _ _ shown => (name_generatedDefinition shown).symm
  rw [← List.reduceOption_map, ← names, List.reduceOption, List.filterMap_map]
  rfl

theorem names_columns {config : Config} {fields : List (Field n)} {columns : List Column}
    (found : AreColumns (.mysql config) catalog fields columns) :
    (columns.map Column.asDefinition).map (·.name) = fields.map (·.name) := by
  induction found with
  | nil => rfl
  | cons first _ ih =>
    rw [List.map_cons, List.map_cons, List.map_cons, ih, Column.asDefinition, (isFor_of_column first).name]

theorem names_definitions {config : Config} {all : List Definition}
    (made : definitions (.mysql config) catalog codec = .ok all) :
    all.map (·.name) = codec.properties.map (·.name) ++ computedNames codec := by
  obtain ⟨columns, generated, found, computed, rfl⟩ := definitions_eq_ok_iff.mp made
  rw [List.map_append, names_columns found, names_generatedDefinitions computed]

def Definition.BeginsWithName (definition : Definition) : Prop :=
  ∃ rest, definition.text = Sql.quote definition.name ++ " " ++ rest

theorem beginsWithName_asDefinition (column : Column) : column.asDefinition.BeginsWithName := by
  simp only [Definition.BeginsWithName, Column.asDefinition, Column.definition, String.append_assoc]
  exact ⟨_, rfl⟩

theorem beginsWithName_generatedDefinition {field : Field n} {definition : Definition}
    (made : generatedDefinition builder catalog codec field = .ok (some definition)) : definition.BeginsWithName := by
  unfold generatedDefinition at made
  split at made
  · obtain ⟨column, _, made⟩ := bind_eq_ok_iff.mp made
    obtain rfl := Option.some.inj (pure_eq_ok_iff.mp made)
    simp only [Definition.BeginsWithName, generatedText, String.append_assoc]
    exact ⟨_, rfl⟩
  · cases made

theorem beginsWithName_of_definitions {all : List Definition}
    (made : definitions builder catalog codec = .ok all) : ∀ definition ∈ all, definition.BeginsWithName := by
  obtain ⟨columns, generated, _, computed, rfl⟩ := definitions_eq_ok_iff.mp made
  intro definition member
  rcases List.mem_append.mp member with own | member
  · obtain ⟨column, _, rfl⟩ := List.mem_map.mp own
    exact beginsWithName_asDefinition column
  · obtain ⟨field, _, shown⟩ := exists_of_mem_generatedDefinitions computed member
    exact beginsWithName_generatedDefinition shown

theorem unlike_properties (catalog : Catalog n) (naming : String → String) (record : Fin n) :
    Text.Unlike ((Codec.build catalog naming record).properties.map (·.name)) :=
  List.pairwise_map.mpr (Codec.build_hasColumns catalog naming record).distinct

theorem columns_insertRecords (codec : Codec n) (type : Ty n) (values : List Datum) (insert : Sql.Insert) :
    (codec.insertRecords catalog type values insert).1.columns = (codec.filled insert).map (·.name) := by
  unfold Codec.insertRecords
  split
  · rfl
  · split <;> rfl

structure NamesColumns (codec : Codec n) (definitions : List Definition) : Prop where
  names : definitions.map (·.name) = codec.properties.map (·.name) ++ computedNames codec
  written : ∀ definition ∈ definitions, definition.BeginsWithName
  plain : Text.Unlike (codec.properties.map (·.name))
  inserted : ∀ catalog type values insert,
    (codec.insertRecords catalog type values insert).1.columns.Sublist (codec.properties.map (·.name))
  unlike_iff : Text.Unlike (definitions.map (·.name)) ↔ Text.Unlike (computedNames codec) ∧
    ∀ property ∈ codec.properties, ∀ name ∈ computedNames codec, Text.sameName property.name name = false

theorem columns_are_named (catalog : Catalog n) (naming : String → String) (record : Fin n) {config : Config}
    {database table sql : String} {key : Option String}
    (created : createTable (.mysql config) catalog (.build catalog naming record) database table key = .ok sql) :
    ∃ definitions more options,
      Schema.definitions (.mysql config) catalog (.build catalog naming record) = .ok definitions ∧
      sql = TableText.render
        { table := Sql.quoteTable database table, definitions := definitions.map (·.text) ++ more, options } ∧
      NamesColumns (.build catalog naming record) definitions := by
  obtain ⟨definitions, made, _⟩ := bind_eq_ok_iff.mp created
  obtain ⟨more, shown⟩ := createTable_of_definitions made database table key
  have names := names_definitions made
  have plain := unlike_properties catalog naming record
  refine ⟨definitions, more, _, made, Except.ok.inj (created.symm.trans shown), names,
    beginsWithName_of_definitions made, plain, ?_, ?_⟩
  · intro other type values insert
    rw [columns_insertRecords]
    exact List.filter_sublist.map _
  · rw [names, Text.unlike_append]
    simp only [plain, true_and, List.forall_mem_map]

def people (numberTag : String) : Catalog 2 :=
  List.get
    [⟨"Person",
      [{ name := "id", type := .scalar (.signed .w64) },
       { name := "paper", type := .record (Fin.last 1) }]⟩,
     ⟨"Paper", [{ name := "id", tag := numberTag, type := .scalar (.signed .w64) }]⟩]

theorem columns_of_people_are_named :
    ∃ sql, createTable (.mysql {}) (people ",virtual_column=number") (.build (people ",virtual_column=number") id 0)
        "" "person" none = .ok sql ∧
      ∃ definitions more options, Schema.definitions (.mysql {}) (people ",virtual_column=number")
          (.build (people ",virtual_column=number") id 0) = .ok definitions ∧
        sql = TableText.render
          { table := Sql.quoteTable "" "person", definitions := definitions.map (·.text) ++ more, options } ∧
        NamesColumns (.build (people ",virtual_column=number") id 0) definitions := by
  have made : ∃ definitions, Schema.definitions (.mysql {}) (people ",virtual_column=number")
      (.build (people ",virtual_column=number") id 0) = .ok definitions := by
    simp only [definitions, Codec.properties, Codec.winners_eq_insertionSort, Codec.build_eq_insertionSort]
    exact ⟨_, rfl⟩
  obtain ⟨definitions, made⟩ := made
  obtain ⟨more, created⟩ := createTable_of_definitions made "" "person" none
  exact ⟨_, created, columns_are_named (people ",virtual_column=number") id 0 created⟩

theorem id_is_defined_twice :
    Schema.definitions (.mysql {}) (people ",virtual_column") (.build (people ",virtual_column") id 0) = .ok
        [⟨"id", "\x60id\x60 BIGINT NOT NULL DEFAULT 0"⟩, ⟨"paper", "\x60paper\x60 JSON NOT NULL"⟩,
         ⟨"id", "\x60id\x60 BIGINT AS (\x60paper\x60->>'$.id') VIRTUAL"⟩] ∧
      (∃ sql, createTable (.mysql {}) (people ",virtual_column") (.build (people ",virtual_column") id 0)
        "" "person" none = .ok sql) ∧
      ¬ Text.Unlike ["id", "paper", "id"] := by
  have made : Schema.definitions (.mysql {}) (people ",virtual_column") (.build (people ",virtual_column") id 0) = .ok
      [⟨"id", "\x60id\x60 BIGINT NOT NULL DEFAULT 0"⟩, ⟨"paper", "\x60paper\x60 JSON NOT NULL"⟩,
       ⟨"id", "\x60id\x60 BIGINT AS (\x60paper\x60->>'$.id') VIRTUAL"⟩] := by
    simp only [definitions, Codec.properties, Codec.winners_eq_insertionSort, Codec.build_eq_insertionSort]
    rfl
  obtain ⟨more, created⟩ := createTable_of_definitions made "" "person" none
  exact ⟨made, ⟨_, created⟩, by decide⟩

end Names

end Schema

end SqlComposer
