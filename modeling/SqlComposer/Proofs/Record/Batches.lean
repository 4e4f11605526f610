import SqlComposer.Proofs.Record.Rows

namespace SqlComposer

variable {n : Nat} {catalog : Catalog n} {naming : String → String}

namespace Codec

inductive Filling
  | omitting (names : List String)
  | adding (values : List Datum)

structure Batch where
  omitted : List String
  values : List Datum

variable {codec : Codec n}

namespace Batch

def fields (codec : Codec n) (batch : Batch) : List (Field n) := codec.unomitted batch.omitted

def rows (catalog : Catalog n) (codec : Codec n) (batch : Batch) : List (List Sql.Expr) :=
  batch.values.map (rowOf catalog (batch.fields codec))

end Batch

def apply (catalog : Catalog n) (codec : Codec n) (insert : Sql.Insert) : Filling → Except Misuse Sql.Insert
  | .omitting names => .ok { insert with omitted := names }
  | .adding values =>
    let (filled, outcome) := codec.insertRecords catalog (.record codec.record) values insert
    outcome.map fun _ => filled

def fill (catalog : Catalog n) (codec : Codec n) (insert : Sql.Insert) (calls : List Filling) :
    Except Misuse Sql.Insert :=
  calls.foldlM (apply catalog codec) insert

def batches (omitted : List String) : List Filling → List Batch
  | [] => []
  | .omitting names :: calls => batches names calls
  | .adding values :: calls => ⟨omitted, values⟩ :: batches omitted calls

def lastFields (codec : Codec n) (batches : List Batch) : List (Field n) :=
  (batches.getLast?.map (Batch.fields codec)).getD []

theorem exists_call_of_mem_batches {batch : Batch} {omitted : List String} {calls : List Filling}
    (member : batch ∈ batches omitted calls) : Filling.adding batch.values ∈ calls := by
  induction calls generalizing omitted with
  | nil => cases member
  | cons call calls ih =>
    cases call with
    | omitting names => exact List.mem_cons_of_mem _ (ih member)
    | adding values =>
      rcases List.mem_cons.mp member with rfl | later
      · exact List.mem_cons_self
      · exact List.mem_cons_of_mem _ (ih later)

structure AppendsBatches (catalog : Catalog n) (codec : Codec n) (before after : Sql.Insert) (batches : List Batch) :
    Prop where
  rows : after.rows = before.rows ++ batches.flatMap (Batch.rows catalog codec)
  columns : after.columns =
    (batches.getLast?.map fun last => (last.fields codec).map (·.name)).getD before.columns
  rest : ∃ columns rows omitted, after = { before with columns, rows, omitted }

theorem AppendsBatches.refl (insert : Sql.Insert) : AppendsBatches catalog codec insert insert [] :=
  ⟨(List.append_nil _).symm, rfl, ⟨_, _, _, rfl⟩⟩

theorem AppendsBatches.trans {before middle after : Sql.Insert} {former later : List Batch}
    (first : AppendsBatches catalog codec before middle former)
    (second : AppendsBatches catalog codec middle after later) :
    AppendsBatches catalog codec before after (former ++ later) where
  rows := by rw [second.rows, first.rows, List.flatMap_append, List.append_assoc]
  columns := by
    rw [second.columns, first.columns, List.getLast?_append]
    cases later.getLast? <;> rfl
  rest := by
    obtain ⟨_, _, _, shown⟩ := first.rest
    obtain ⟨_, _, _, rfl⟩ := second.rest
    exact ⟨_, _, _, by rw [shown]⟩

variable {record : Fin n}

def Filling.Fits (catalog : Catalog n) (record : Fin n) : Filling → Prop
  | .omitting _ => True
  | .adding values => ∀ value ∈ values, value.fits catalog (.record record) = true

theorem fits_of_mem_batches {batch : Batch} {omitted : List String} {calls : List Filling}
    (fit : ∀ call ∈ calls, call.Fits catalog record) (member : batch ∈ batches omitted calls) :
    ∀ value ∈ batch.values, value.fits catalog (.record record) = true :=
  fit _ (exists_call_of_mem_batches member)

theorem apply_adding {values : List Datum} (fits : (Filling.adding values).Fits catalog record) (insert : Sql.Insert) :
    apply catalog (build catalog naming record) insert (.adding values) =
      let fields := (build catalog naming record).unomitted insert.omitted
      .ok { insert with
        columns := fields.map (·.name), rows := insert.rows ++ values.map (rowOf catalog fields) } := by
  have own : (build catalog naming record).record = record := rfl
  rw [apply, own, insertRecords_eq fits]
  rfl

theorem apply_appends (naming : String → String) {call : Filling} (fits : call.Fits catalog record)
    (insert : Sql.Insert) :
    ∃ after, apply catalog (build catalog naming record) insert call = .ok after ∧
      AppendsBatches catalog (build catalog naming record) insert after (batches insert.omitted [call]) ∧
      ∀ calls, batches insert.omitted (call :: calls) =
        batches insert.omitted [call] ++ batches after.omitted calls := by
  cases call with
  | omitting names => exact ⟨_, rfl, ⟨(List.append_nil _).symm, rfl, ⟨_, _, _, rfl⟩⟩, fun _ => rfl⟩
  | adding values =>
    refine ⟨_, apply_adding fits insert, ⟨?_, rfl, ⟨_, _, _, rfl⟩⟩, fun _ => rfl⟩
    rw [batches, batches, List.flatMap_singleton]
    rfl

theorem fill_appends (naming : String → String) {calls : List Filling}
    (fit : ∀ call ∈ calls, call.Fits catalog record) (insert : Sql.Insert) :
    ∃ after, fill catalog (build catalog naming record) insert calls = .ok after ∧
      AppendsBatches catalog (build catalog naming record) insert after (batches insert.omitted calls) := by
  induction calls generalizing insert with
  | nil => exact ⟨insert, rfl, .refl insert⟩
  | cons call calls ih =>
    -- The later batches depend on the call through the names omitted after it alone.
    obtain ⟨first, rest⟩ := List.forall_mem_cons.mp fit
    obtain ⟨middle, applied, former, split⟩ := apply_appends naming first insert
    obtain ⟨after, filled, later⟩ := ih rest middle
    refine ⟨after, ?_, ?_⟩
    · rw [fill, List.foldlM_cons, applied]
      exact filled
    · rw [split]
      exact former.trans later

/-- The rows of every batch have an entry for each field that was kept at its call, while the columns are those of the
last call. A row is as wide as the columns, and paired with them, where its call kept the same fields as the last. -/
structure KeepsBatches (catalog : Catalog n) (codec : Codec n) (batches : List Batch) (insert : Sql.Insert) : Prop where
  columns : insert.columns = (lastFields codec batches).map (·.name)
  rows : insert.rows = batches.flatMap (Batch.rows catalog codec)
  entries : ∀ batch ∈ batches, ∀ value ∈ batch.values, ∀ field ∈ batch.fields codec,
    value.valueAt catalog (.record codec.record) field.index = some (entryOf catalog field value)
  width : (∀ row ∈ insert.rows, row.length = insert.columns.length) ↔ ∀ batch ∈ batches, batch.values ≠ [] →
    (batch.fields codec).length = (lastFields codec batches).length
  names : ∀ batch ∈ batches, insert.columns = (batch.fields codec).map (·.name) ↔
    batch.fields codec = lastFields codec batches
  pairs : (∀ batch ∈ batches, batch.values ≠ [] → batch.fields codec = lastFields codec batches) →
    insert.rows = (batches.flatMap Batch.values).map (rowOf catalog (lastFields codec batches)) ∧
      ∀ row ∈ insert.rows, row.length = insert.columns.length

theorem eq_of_name {field other : Field n} (member : field ∈ (build catalog naming record).properties)
    (otherMember : other ∈ (build catalog naming record).properties) (same : field.name = other.name) :
    field = other := by
  have candidate := isCandidate_of_mem_properties member
  obtain ⟨_, _, unique⟩ := (build_hasColumns catalog naming record).one field candidate
  have own := unique field ⟨member, equivalence_sameColumn.refl field⟩
  have alike : sameColumn field other = true := by
    rw [sameColumn, same]
    exact Text.sameName_refl _
  exact own.trans (unique other ⟨otherMember, alike⟩).symm

theorem eq_of_names {fields others : List (Field n)}
    (members : ∀ field ∈ fields, field ∈ (build catalog naming record).properties)
    (otherMembers : ∀ field ∈ others, field ∈ (build catalog naming record).properties)
    (same : fields.map (·.name) = others.map (·.name)) : fields = others := by
  apply List.ext_getElem (by simpa using congrArg List.length same)
  intro i inside insideOthers
  have name : fields[i].name = others[i].name := by
    simpa [List.getElem?_eq_getElem inside, List.getElem?_eq_getElem insideOthers] using congrArg (·[i]?) same
  exact eq_of_name (members _ (List.getElem_mem inside)) (otherMembers _ (List.getElem_mem insideOthers)) name

theorem mem_properties_of_mem_lastFields {batches : List Batch} {field : Field n}
    (member : field ∈ lastFields codec batches) : field ∈ codec.properties := by
  unfold lastFields at member
  cases shown : batches.getLast? with
  | none => simp [shown] at member
  | some last =>
    rw [shown] at member
    exact List.mem_of_mem_filter member

theorem rows_of_kept {batches : List Batch} {fields : List (Field n)}
    (kept : ∀ batch ∈ batches, batch.values ≠ [] → batch.fields codec = fields) :
    batches.flatMap (Batch.rows catalog codec) = (batches.flatMap Batch.values).map (rowOf catalog fields) := by
  rw [List.map_flatMap]
  apply List.flatMap_congr
  intro batch member
  by_cases empty : batch.values = []
  · rw [Batch.rows, empty, List.map_nil, List.map_nil]
  · rw [Batch.rows, kept batch member empty]

theorem length_rowOf (fields : List (Field n)) (value : Datum) : (rowOf catalog fields value).length = fields.length :=
  List.length_map _

theorem width_iff {batches : List Batch} {width : Nat} :
    (∀ row ∈ batches.flatMap (Batch.rows catalog codec), row.length = width) ↔
      ∀ batch ∈ batches, batch.values ≠ [] → (batch.fields codec).length = width := by
  constructor
  · intro even batch member filled
    obtain ⟨value, held⟩ := List.exists_mem_of_ne_nil _ filled
    rw [← even _ (List.mem_flatMap.mpr ⟨batch, member, List.mem_map_of_mem held⟩), length_rowOf]
  · intro even row member
    obtain ⟨batch, batchMember, rowMember⟩ := List.mem_flatMap.mp member
    obtain ⟨value, held, rfl⟩ := List.mem_map.mp rowMember
    rw [length_rowOf, even batch batchMember (List.ne_nil_of_mem held)]

theorem rows_keep_their_batch (catalog : Catalog n) (naming : String → String) (record : Fin n) {start : Sql.Insert}
    (rowless : start.rows = []) (bare : start.columns = []) {calls : List Filling}
    (fit : ∀ call ∈ calls, call.Fits catalog record) :
    ∃ insert, fill catalog (build catalog naming record) start calls = .ok insert ∧
      (∃ columns rows omitted, insert = { start with columns, rows, omitted }) ∧
      KeepsBatches catalog (build catalog naming record) (batches start.omitted calls) insert := by
  obtain ⟨insert, filled, appended⟩ := fill_appends naming fit start
  refine ⟨insert, filled, appended.rest, ?_⟩
  have rows := appended.rows
  rw [rowless, List.nil_append] at rows
  have columns : insert.columns =
      (lastFields (build catalog naming record) (batches start.omitted calls)).map (·.name) := by
    rw [appended.columns, bare, lastFields]
    cases (batches start.omitted calls).getLast? <;> rfl
  have width : insert.columns.length =
      (lastFields (build catalog naming record) (batches start.omitted calls)).length := by
    rw [columns, List.length_map]
  refine ⟨columns, rows, ?_, ?_, ?_, ?_⟩
  · intro batch member value held field fieldMember
    exact valueAt_eq_entryOf (isField_of_unomitted fieldMember) (fits_of_mem_batches fit member value held)
  · rw [rows, width_iff, width]
  · intro batch _
    rw [columns]
    constructor
    · intro same
      exact (eq_of_names (fun _ => mem_properties_of_mem_lastFields) (fun _ => List.mem_of_mem_filter) same).symm
    · exact fun same => same ▸ rfl
  · intro kept
    refine ⟨rows.trans (rows_of_kept kept), ?_⟩
    rw [rows, width_iff, width]
    exact fun batch member filled => congrArg List.length (kept batch member filled)

def profiles : Catalog 1 := fun _ =>
  { typeName := "Profile"
    fields := [{ name := "name", type := .scalar .string }, { name := "city", type := .scalar .string }] }

def profile (name city : String) : Datum := .record [.string name, .string city]

theorem profile_fits (name city : String) : (profile name city).fits profiles (.record 0) = true := rfl

theorem profiles_keep_their_batch :
    let calls : List Filling := [.adding [profile "Ada" "Ulm"], .omitting ["city"], .adding [profile "Bert" "Bonn"]]
    (∀ call ∈ calls, call.Fits profiles 0) ∧
      ∃ insert, fill profiles (build profiles id 0) {} calls = .ok insert ∧
        (∃ columns rows omitted, insert = { ({} : Sql.Insert) with columns, rows, omitted }) ∧
        KeepsBatches profiles (build profiles id 0) (batches [] calls) insert := by
  intro calls
  have fit : ∀ call ∈ calls, call.Fits profiles 0 := by
    simp [calls, Filling.Fits, profile_fits]
  exact ⟨fit, rows_keep_their_batch profiles id 0 rfl rfl fit⟩

/-- One person's name is inserted as the city of that person, and the widths agree. -/
theorem name_is_paired_with_city :
    fill profiles (build profiles id 0) {} [.omitting ["city"], .adding [profile "Ada" "Ulm"], .omitting ["name"],
        .adding [profile "Bert" "Bonn"]] =
      .ok { columns := ["city"], rows := [[.value (.string "Ada")], [.value (.string "Bonn")]], omitted := ["name"] } ∧
      ∀ field ∈ (build profiles id 0).properties, field.name = "city" →
        entryOf profiles field (profile "Ada" "Ulm") = .string "Ulm" := by
  constructor
  · simp only [fill, List.foldlM_cons, apply, insertRecords, filled, properties, winners_eq_insertionSort,
      build_eq_insertionSort]
    rfl
  · have entries : (build profiles id 0).properties.map
        (fun field => (field.name, entryOf profiles field (profile "Ada" "Ulm"))) =
          [("name", .string "Ada"), ("city", .string "Ulm")] := by
      simp only [properties, winners_eq_insertionSort, build_eq_insertionSort]
      rfl
    intro field member named
    have entry := entries ▸ List.mem_map_of_mem member
    simpa [named] using entry

end Codec

end SqlComposer
