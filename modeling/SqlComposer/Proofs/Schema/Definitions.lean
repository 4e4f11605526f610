import Mathlib.Data.List.Forall2
import Mathlib.Data.List.ReduceOption
import SqlComposer.Schema.Table

namespace SqlComposer.Schema

open Sql

variable {n : Nat}

section Outcomes

variable {ε α β : Type}

theorem bind_eq_ok_iff {outcome : Except ε α} {next : α → Except ε β} {result : β} :
    outcome >>= next = .ok result ↔ ∃ value, outcome = .ok value ∧ next value = .ok result := by
  cases outcome <;> simp [bind, Except.bind]

theorem pure_eq_ok_iff {value result : α} : (pure value : Except ε α) = .ok result ↔ value = result := by
  simp [pure, Except.pure]

theorem mapM_eq_ok_iff {step : α → Except ε β} {items : List α} {results : List β} :
    items.mapM step = .ok results ↔ List.Forall₂ (fun item result => step item = .ok result) items results := by
  induction items generalizing results with
  | nil => rw [List.mapM_nil, pure_eq_ok_iff, List.forall₂_nil_left_iff, eq_comm]
  | cons item items ih =>
    simp only [List.mapM_cons, bind_eq_ok_iff, pure_eq_ok_iff, ih, List.forall₂_cons_left_iff]
    constructor
    · rintro ⟨result, made, others, rest, rfl⟩
      exact ⟨result, others, made, rest, rfl⟩
    · rintro ⟨result, others, made, rest, rfl⟩
      exact ⟨result, made, others, rest, rfl⟩

theorem filterMapM_eq_ok_iff {step : α → Except ε (Option β)} {items : List α} {results : List β} :
    items.filterMapM step = .ok results ↔
      ∃ outcomes, List.Forall₂ (fun item outcome => step item = .ok outcome) items outcomes ∧
        results = outcomes.reduceOption := by
  induction items generalizing results with
  | nil =>
    rw [List.filterMapM_nil, pure_eq_ok_iff]
    simp [List.reduceOption, eq_comm]
  | cons item items ih =>
    simp only [List.filterMapM_cons, bind_eq_ok_iff, List.forall₂_cons_left_iff]
    constructor
    · rintro ⟨outcome, made, rest⟩
      cases outcome with
      | none =>
        obtain ⟨outcomes, others, rfl⟩ := ih.mp rest
        exact ⟨none :: outcomes, ⟨none, outcomes, made, others, rfl⟩, rfl⟩
      | some result =>
        obtain ⟨results, shown, same⟩ := bind_eq_ok_iff.mp rest
        obtain rfl := pure_eq_ok_iff.mp same
        obtain ⟨outcomes, others, rfl⟩ := ih.mp shown
        exact ⟨some result :: outcomes, ⟨some result, outcomes, made, others, rfl⟩, rfl⟩
    · rintro ⟨_, ⟨outcome, outcomes, made, others, rfl⟩, rfl⟩
      refine ⟨outcome, made, ?_⟩
      have rest := ih.mpr ⟨outcomes, others, rfl⟩
      cases outcome with
      | none => exact rest
      | some result => exact bind_eq_ok_iff.mpr ⟨_, rest, rfl⟩

theorem exists_of_mem_right {related : α → β → Prop} {items : List α} {results : List β}
    (matched : List.Forall₂ related items results) {result : β} (member : result ∈ results) :
    ∃ item ∈ items, related item result := by
  induction matched with
  | nil => cases member
  | cons first _ ih =>
    rcases List.mem_cons.mp member with rfl | later
    · exact ⟨_, List.mem_cons_self, first⟩
    · obtain ⟨item, itemMember, holds⟩ := ih later
      exact ⟨item, List.mem_cons_of_mem _ itemMember, holds⟩

theorem exists_of_mem_left {related : α → β → Prop} {items : List α} {results : List β}
    (matched : List.Forall₂ related items results) {item : α} (member : item ∈ items) :
    ∃ result ∈ results, related item result := exists_of_mem_right (List.Forall₂.flip matched) member

end Outcomes

namespace Column

def typeText (column : Column) : String :=
  quote column.name ++ " " ++ column.sqlType ++
  (match column.charset with
    | none => ""
    | some charset => " CHARACTER SET " ++ charset) ++
  (match column.collation with
    | none => ""
    | some collation => " COLLATE " ++ collation)

def defaultText (column : Column) : String :=
  (match column.defaultValue with
    | none => ""
    | some v => " DEFAULT " ++ (if column.hasLiteralDefault then literal v else v)) ++
  (if column.extra = "" then "" else " " ++ column.extra)

theorem definition_eq (column : Column) :
    column.definition = column.typeText ++ (if column.nullable then "" else " NOT NULL") ++ column.defaultText := by
  unfold definition typeText defaultText
  cases column.charset <;> cases column.collation <;> cases column.defaultValue <;>
    simp only [String.append_assoc]

theorem definition_ne_empty (column : Column) : column.definition ≠ "" := by
  simp [definition_eq, typeText, quote]

end Column

structure Column.IsFor (column : Column) (field : Field n) : Prop where
  name : column.name = field.name
  nullable : column.nullable = field.nullable

theorem isFor_sizedTextColumn (config : Config) (field : Field n) (dataType : String) (size : Nat) :
    (sizedTextColumn config field dataType size).IsFor field := ⟨rfl, rfl⟩

theorem isFor_enumColumn {config : Config} {field : Field n} {raw : String} {column : Column}
    (made : enumColumn config field raw = .ok column) : column.IsFor field := by
  unfold enumColumn at made
  split at made
  · cases made
  · obtain rfl := Except.ok.inj made
    exact ⟨rfl, rfl⟩

theorem isFor_charColumn {config : Config} {field : Field n} {raw : String} {column : Column}
    (made : charColumn config field raw = .ok column) : column.IsFor field := by
  unfold charColumn at made
  split at made
  · cases made
  · obtain rfl := Except.ok.inj made
    exact isFor_sizedTextColumn config field _ _

theorem isFor_stringColumn {config : Config} {field : Field n} {column : Column}
    (made : stringColumn config field = .ok column) : column.IsFor field := by
  unfold stringColumn at made
  split at made
  · exact isFor_enumColumn made
  · exact isFor_charColumn made
  · split at made
    all_goals
      obtain rfl := Except.ok.inj made
      exact ⟨rfl, rfl⟩

theorem isFor_of_mysqlRule {category : Category} {config : Config} {field : Field n} {column : Column}
    (made : mysqlRule category config field = .ok column) : column.IsFor field := by
  cases category with
  | string => exact isFor_stringColumn made
  | _ =>
    obtain rfl := Except.ok.inj made
    exact ⟨rfl, rfl⟩

theorem isFor_of_column {catalog : Catalog n} {config : Config} {field : Field n} {column : Column}
    (made : (Builder.mysql config).column catalog field = .ok column) : column.IsFor field := by
  unfold Builder.column at made
  split at made
  · next rule found =>
    obtain ⟨category, _, given⟩ := Option.bind_eq_some_iff.mp found
    obtain rfl : mysqlRule category = rule := Option.some.inj given
    exact isFor_of_mysqlRule made
  · cases made

def Column.asDefinition (column : Column) : Definition := ⟨column.name, column.definition⟩

section Tables

variable {builder : Builder n} {catalog : Catalog n} {codec : Codec n}

abbrev AreColumns (builder : Builder n) (catalog : Catalog n) : List (Field n) → List Column → Prop :=
  List.Forall₂ fun field column => builder.column catalog field = .ok column

theorem plainDefinition_eq_ok_iff {field : Field n} {definition : Definition} :
    plainDefinition builder catalog field = .ok definition ↔
      ∃ column, builder.column catalog field = .ok column ∧ definition = column.asDefinition := by
  rw [plainDefinition, bind_eq_ok_iff]
  simp only [pure_eq_ok_iff, Column.asDefinition, eq_comm (a := definition)]

theorem plainDefinitions_eq_ok_iff {fields : List (Field n)} {plain : List Definition} :
    fields.mapM (plainDefinition builder catalog) = .ok plain ↔
      ∃ columns, AreColumns builder catalog fields columns ∧ plain = columns.map Column.asDefinition := by
  rw [mapM_eq_ok_iff]
  constructor
  · intro made
    induction made with
    | nil => exact ⟨[], .nil, rfl⟩
    | cons first _ ih =>
      obtain ⟨column, found, rfl⟩ := plainDefinition_eq_ok_iff.mp first
      obtain ⟨columns, rest, rfl⟩ := ih
      exact ⟨column :: columns, .cons found rest, rfl⟩
  · rintro ⟨columns, found, rfl⟩
    rw [List.forall₂_map_right_iff]
    exact found.imp fun _ column found => plainDefinition_eq_ok_iff.mpr ⟨column, found, rfl⟩

theorem definitions_eq_ok_iff {all : List Definition} :
    definitions builder catalog codec = .ok all ↔
      ∃ columns generated, AreColumns builder catalog codec.properties columns ∧
        generatedDefinitions builder catalog codec = .ok generated ∧
        all = columns.map Column.asDefinition ++ generated := by
  simp only [definitions, bind_eq_ok_iff, pure_eq_ok_iff, plainDefinitions_eq_ok_iff]
  constructor
  · rintro ⟨_, ⟨columns, found, rfl⟩, generated, made, rfl⟩
    exact ⟨columns, generated, found, made, rfl⟩
  · rintro ⟨columns, generated, found, made, rfl⟩
    exact ⟨_, ⟨columns, found, rfl⟩, generated, made, rfl⟩

theorem render_eq {table : String} {own more options : List String} (proper : own ≠ [])
    (written : ∀ text ∈ own ++ options, text ≠ "") :
    TableText.render { table, definitions := own ++ more, options } =
      "CREATE TABLE " ++ table ++ " (" ++ Text.joined ", " (own ++ more.filter (· != "")) ++
        (if options.isEmpty then ")" else ") " ++ Text.joined " " options) := by
  have ownKept : own.filter (· != "") = own := by
    simp only [List.filter_eq_self, bne_iff_ne]
    exact fun text member => written text (List.mem_append_left _ member)
  have optionsKept : options.filter (· != "") = options := by
    simp only [List.filter_eq_self, bne_iff_ne]
    exact fun text member => written text (List.mem_append_right _ member)
  have some : (own ++ more).isEmpty = false := by simp [proper]
  have closed (text : String) : ")" ++ (" " ++ text) = ") " ++ text := by rw [← String.append_assoc]; rfl
  cases options <;>
    simp [TableText.render, List.filter_append, ownKept, optionsKept, some, String.append_assoc, closed]

def Config.optionsText (config : Config) : String :=
  Text.joined " " ["ENGINE=" ++ config.engine, "DEFAULT CHARSET=" ++ config.charset, "COLLATE=" ++ config.collation]

theorem createTable_of_definitions {all : List Definition} (made : definitions builder catalog codec = .ok all)
    (database table : String) (key : Option String) :
    ∃ more, createTable builder catalog codec database table key = .ok (TableText.render
      { table := quoteTable database table
        definitions := all.map (·.text) ++ more
        options := ["ENGINE=" ++ builder.config.engine, "DEFAULT CHARSET=" ++ builder.config.charset,
          "COLLATE=" ++ builder.config.collation] }) := by
  rw [createTable, made]
  exact ⟨_, congrArg (fun texts => Except.ok (TableText.render ⟨_, _, _, texts, _⟩)) (List.append_assoc ..)⟩

theorem createTable_eq_ok {database table sql : String} {key : Option String}
    (created : createTable builder catalog codec database table key = .ok sql) (filled : codec.properties ≠ []) :
    ∃ columns more, AreColumns builder catalog codec.properties columns ∧
      sql = "CREATE TABLE " ++ quoteTable database table ++
        " (" ++ Text.joined ", " (columns.map Column.definition ++ more) ++
        ") " ++ builder.config.optionsText := by
  unfold createTable at created
  obtain ⟨_, made, shown⟩ := bind_eq_ok_iff.mp created
  obtain ⟨columns, generated, found, _, rfl⟩ := definitions_eq_ok_iff.mp made
  have own : (columns.map Column.asDefinition ++ generated).map (·.text) =
      columns.map Column.definition ++ generated.map (·.text) := by
    simp [Column.asDefinition]
  have proper : columns.map Column.definition ≠ [] := by
    rintro none
    obtain rfl := List.map_eq_nil_iff.mp none
    exact filled (List.forall₂_nil_right_iff.mp found)
  have shown := pure_eq_ok_iff.mp shown
  rw [own, List.append_assoc, List.append_assoc, render_eq proper] at shown
  · generalize List.filter (· != "") _ = more at shown
    refine ⟨columns, more, found, ?_⟩
    rw [String.append_assoc]
    exact shown.symm
  · simp only [List.mem_append, List.mem_map, List.mem_cons, List.not_mem_nil, or_false]
    rintro _ (⟨column, _, rfl⟩ | rfl | rfl | rfl)
    · exact column.definition_ne_empty
    all_goals simp

def DefinesNullable (config : Config) (catalog : Catalog n) (codec : Codec n) (database table : String)
    (field : Field n) (sql : String) : Prop :=
  ∃ (place : Nat) (texts : List String) (column : Column), codec.properties[place]? = some field ∧
    (Builder.mysql config).column catalog field = .ok column ∧ column.IsFor field ∧
    texts[place]? = some (column.typeText ++ column.defaultText) ∧
    sql = "CREATE TABLE " ++ quoteTable database table ++ " (" ++ Text.joined ", " texts ++ ") " ++ config.optionsText

theorem definesNullable_of_createTable {config : Config} {database table sql : String} {key : Option String}
    (created : createTable (.mysql config) catalog codec database table key = .ok sql) {field : Field n}
    (member : field ∈ codec.properties) (nullable : field.nullable = true) :
    DefinesNullable config catalog codec database table field sql := by
  obtain ⟨columns, more, found, shown⟩ := createTable_eq_ok created (List.ne_nil_of_mem member)
  obtain ⟨place, placed⟩ := List.mem_iff_getElem?.mp member
  obtain ⟨inside, atPlace⟩ := List.getElem?_eq_some_iff.mp placed
  have insideToo : place < columns.length := found.length_eq ▸ inside
  have made := found.get inside insideToo
  rw [List.get_eq_getElem, List.get_eq_getElem, atPlace] at made
  have own := isFor_of_column made
  refine ⟨place, _, columns[place], placed, made, own, ?_, shown⟩
  rw [List.getElem?_append_left (by simpa using insideToo), List.getElem?_map, List.getElem?_eq_getElem insideToo,
    Option.map_some, Column.definition_eq, own.nullable, nullable, if_pos rfl, String.append_empty]

end Tables

end SqlComposer.Schema
