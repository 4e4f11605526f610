import SqlComposer.Proofs.Record.Columns
import SqlComposer.Proofs.Record.Values
import SqlComposer.Proofs.Schema.Definitions
import SqlComposer.Record.Insertion

namespace SqlComposer

variable {n : Nat} {catalog : Catalog n} {naming : String → String}

namespace Codec

variable {record : Fin n} {field : Field n} {value : Datum}

def entryOf (catalog : Catalog n) (field : Field n) (value : Datum) : SqlValue :=
  .ofOption ((value.below? field.index).map (Datum.encode catalog field.type))

theorem valueAt_eq_entryOf (member : field ∈ (build catalog naming record).fields)
    (fits : value.fits catalog (.record record) = true) :
    value.valueAt catalog (.record record) field.index = some (entryOf catalog field value) := by
  rcases reads_of_mem member fits with ⟨part, found, _, read⟩ | ⟨absent, _, read⟩
  · rw [read, entryOf, found]
    rfl
  · rw [read, entryOf, Datum.below?_of_absentAbove absent]
    rfl

theorem nullable_of_entryOf (member : field ∈ (build catalog naming record).fields)
    (fits : value.fits catalog (.record record) = true) (missing : entryOf catalog field value = .null) :
    field.nullable = true := by
  rcases reads_of_mem member fits with ⟨part, found, fitsPart, _⟩ | ⟨_, nullable, _⟩
  · rw [entryOf, found] at missing
    have kind := Datum.kind_of_absent fitsPart (Datum.encode_eq_null_iff.mp missing)
    obtain ⟨decl, occurs, _, type, _⟩ := exists_decl_of_mem member
    rw [type] at kind
    rw [(routed_build member).nullable, mayBeNull, occurs.route_eq, List.any_append]
    simp [kind, Kind.isNullable]
  · exact nullable

def unomitted (codec : Codec n) (omitted : List String) : List (Field n) :=
  codec.properties.filter fun field => field.name ∉ omitted

theorem filled_eq (codec : Codec n) (insert : Sql.Insert) : codec.filled insert = codec.unomitted insert.omitted := by
  simp [filled, unomitted]

def rowOf (catalog : Catalog n) (fields : List (Field n)) (value : Datum) : List Sql.Expr :=
  fields.map fun field => .value (entryOf catalog field value)

theorem isField_of_unomitted {omitted : List String}
    (member : field ∈ (build catalog naming record).unomitted omitted) :
    field ∈ (build catalog naming record).fields :=
  (isCandidate_of_mem_properties (List.mem_of_mem_filter member)).1

theorem insertRecords_eq {values : List Datum} (fit : ∀ value ∈ values, value.fits catalog (.record record) = true)
    (insert : Sql.Insert) :
    (build catalog naming record).insertRecords catalog (.record record) values insert =
      let kept := (build catalog naming record).unomitted insert.omitted
      ({ insert with columns := kept.map (·.name), rows := insert.rows ++ values.map (rowOf catalog kept) },
        .ok ()) := by
  have own : Ty.record record = .record (build catalog naming record).record := rfl
  have rows : (values.map fun value =>
      (value.columnValues catalog ((build catalog naming record).unomitted insert.omitted) (.record record)).map
        Sql.Expr.value) = values.map (rowOf catalog ((build catalog naming record).unomitted insert.omitted)) := by
    apply List.map_congr_left
    intro value member
    rw [Datum.columnValues, rowOf, List.map_map]
    apply List.map_congr_left
    intro field fieldMember
    rw [Function.comp_apply, valueAt_eq_entryOf (isField_of_unomitted fieldMember) (fit value member)]
    rfl
  simp only [insertRecords, filled_eq, if_pos own, rows]

structure FillsRows (catalog : Catalog n) (codec : Codec n) (values : List Datum) (insert : Sql.Insert) : Prop where
  columns : insert.columns = (codec.unomitted insert.omitted).map (·.name)
  height : insert.rows.length = values.length
  width : ∀ row ∈ insert.rows, row.length = insert.columns.length
  entries : ∀ (i : Nat) value, values[i]? = some value → ∀ (j : Nat) field,
    (codec.unomitted insert.omitted)[j]? = some field →
      value.valueAt catalog (.record codec.record) field.index = some (entryOf catalog field value) ∧
        (insert.rows[i]?.bind (·[j]?)) = some (Sql.Expr.value (entryOf catalog field value))
  parts : ∀ value ∈ values, ∀ field ∈ codec.unomitted insert.omitted,
    value.below? field.index = none ↔ value.AbsentAbove field.index
  nullable : ∀ value ∈ values, ∀ field ∈ codec.unomitted insert.omitted, entryOf catalog field value = .null →
    ∀ config database table key sql, Schema.createTable (.mysql config) catalog codec database table key = .ok sql →
      Schema.DefinesNullable config catalog codec database table field sql

theorem fillsRows {values : List Datum} (fit : ∀ value ∈ values, value.fits catalog (.record record) = true)
    {insert : Sql.Insert}
    (columns : insert.columns = ((build catalog naming record).unomitted insert.omitted).map (·.name))
    (rows : insert.rows = values.map (rowOf catalog ((build catalog naming record).unomitted insert.omitted))) :
    FillsRows catalog (build catalog naming record) values insert where
  columns := columns
  height := by rw [rows, List.length_map]
  width := by
    rw [rows, columns]
    intro row member
    obtain ⟨value, _, rfl⟩ := List.mem_map.mp member
    rw [rowOf, List.length_map, List.length_map]
  entries := by
    intro i value held j field placed
    have isField := isField_of_unomitted (List.mem_of_getElem? placed)
    refine ⟨valueAt_eq_entryOf isField (fit value (List.mem_of_getElem? held)), ?_⟩
    rw [rows, List.getElem?_map, held, Option.map_some, Option.bind_some, rowOf, List.getElem?_map, placed]
    rfl
  parts := by
    intro value member field fieldMember
    constructor
    · intro missing
      have isField := isField_of_unomitted fieldMember
      rcases reads_of_mem isField (fit value member) with ⟨part, found, _⟩ | ⟨absent, _⟩
      · rw [found] at missing
        cases missing
      · exact absent
    · exact Datum.below?_of_absentAbove
  nullable := by
    intro value member field fieldMember missing config database table key sql created
    have nullable := nullable_of_entryOf (isField_of_unomitted fieldMember) (fit value member) missing
    exact Schema.definesNullable_of_createTable created (List.mem_of_mem_filter fieldMember) nullable

theorem records_fill_rows (catalog : Catalog n) (naming : String → String) (record : Fin n) {insert : Sql.Insert}
    (fresh : insert.rows = []) {values : List Datum}
    (fit : ∀ value ∈ values, value.fits catalog (.record record) = true) :
    ∃ columns rows, (build catalog naming record).insertRecords catalog (.record record) values insert =
        ({ insert with columns, rows }, .ok ()) ∧
      FillsRows catalog (build catalog naming record) values { insert with columns, rows } := by
  refine ⟨_, _, insertRecords_eq fit insert, fillsRows fit rfl ?_⟩
  rw [fresh, List.nil_append]

def staff : Catalog 2
  | 0 => ⟨"Employee",
    [{ name := "id", tag := "id,primary_key", type := .scalar (.signed .w64) },
     { name := "name", type := .scalar .string },
     { name := "address", type := .option (.record 1), embedded := true },
     { name := "boss", type := .option (.boxed (.record 0)) }]⟩
  | 1 => ⟨"Address",
    [{ name := "city", type := .scalar .string },
     { name := "zip", type := .option (.scalar .string) }]⟩

def ada : Datum := .record [.signed 1, .string "Ada", .absent, .absent]

def bert : Datum :=
  .record [.signed 2, .string "Bert", .present (.record [.string "Ulm", .absent]), .present ada]

theorem staff_fill_rows :
    (∀ value ∈ [ada, bert], value.fits staff (.record 0) = true) ∧
      ∃ columns rows, (build staff id 0).insertRecords staff (.record 0) [ada, bert] { omitted := ["id"] } =
          ({ omitted := ["id"], columns, rows }, .ok ()) ∧
        FillsRows staff (build staff id 0) [ada, bert] { omitted := ["id"], columns, rows } := by
  have fit : ∀ value ∈ [ada, bert], value.fits staff (.record 0) = true := by
    simp only [List.forall_mem_cons]
    decide
  exact ⟨fit, records_fill_rows staff id 0 rfl fit⟩

end Codec

end SqlComposer
