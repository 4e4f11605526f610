import SqlComposer.Proofs.Record.Columns
import SqlComposer.Proofs.Record.Values
import SqlComposer.Record.Insertion

namespace SqlComposer

variable {n : Nat} {catalog : Catalog n}

namespace Ty

@[simp] theorem unboxed_unboxed (type : Ty n) : type.unboxed.unboxed = type.unboxed := by
  induction type <;> simp_all [unboxed]

@[simp] theorem declsOf_unboxed (type : Ty n) : type.unboxed.declsOf catalog = type.declsOf catalog := by
  simp [declsOf]

theorem unboxed_of_not_option {type : Ty n} (own : ∀ item, type.unboxed ≠ .option item) :
    type.unboxed = type.base := by
  induction type with
  | option item => exact absurd rfl (own item)
  | boxed inner ih => exact ih own
  | _ => rfl

end Ty

namespace Datum

theorem fits_unboxed (type : Ty n) (value : Datum) :
    value.fits catalog type.unboxed = value.fits catalog type := by
  cases value <;> simp [fits]

theorem held_unboxed_of_list {type : Ty n} {items : List Datum} (fits : (list items).fits catalog type = true) :
    type.unboxed.held = type.held := by
  rw [Datum.fits] at fits
  rw [Ty.held, Ty.held, ← type.item?_unboxed]
  split at fits
  · next shown => simp [shown, Ty.item?]
  · next shown => simp [shown, Ty.item?]
  · cases fits

theorem held_unboxed_of_map {type : Ty n} {entries : List (String × Datum)}
    (fits : (map entries).fits catalog type = true) : type.unboxed.held = type.held := by
  rw [Datum.fits] at fits
  rw [Ty.held, Ty.held, ← type.item?_unboxed]
  split at fits
  · next shown => simp [shown, Ty.item?]
  · cases fits

theorem encode_unboxed {type : Ty n} {value : Datum} (fits : value.fits catalog type = true) :
    value.encode catalog type.unboxed = value.encode catalog type := by
  cases value with
  | present inner =>
    obtain ⟨item, shown, held, _⟩ := exists_option_of_fits fits
    rw [encode, encode, held, shown]
    rfl
  | list items => simp [encode, toJson, isByteList, held_unboxed_of_list fits]
  | map entries => simp [encode, toJson, held_unboxed_of_map fits]
  | record values => simp [encode, toJson]
  | _ => simp [encode]

theorem encode_content : ∀ {type : Ty n} {value content : Datum}, value.fits catalog type = true →
    value.content? = some content →
    content.fits catalog type.base = true ∧ value.encode catalog type = content.encode catalog type.base
  | _, .absent, _, _, missing => nomatch missing
  | type, .present inner, content, fits, shown => by
    obtain ⟨item, _, held, base, fits⟩ := exists_option_of_fits fits
    rw [encode, held, base]
    exact encode_content fits shown
  | type, .bool _, _, fits, rfl | type, .signed _, _, fits, rfl | type, .unsigned _, _, fits, rfl
  | type, .float _, _, fits, rfl | type, .string _, _, fits, rfl | type, .json _, _, fits, rfl
  | type, .dateTime _, _, fits, rfl | type, .date _, _, fits, rfl | type, .list _, _, fits, rfl
  | type, .map _, _, fits, rfl | type, .record _, _, fits, rfl => by
    have own : ∀ item, type.unboxed ≠ .option item := by
      intro item shown
      simp [Datum.fits, shown, Ty.json, Ty.dateTime, Ty.plainDateTime, Ty.date] at fits
    rw [← Ty.unboxed_of_not_option own, fits_unboxed, encode_unboxed fits]
    exact ⟨fits, rfl⟩

def MeetsAbsent (value : Datum) (index : List Nat) : Prop :=
  ∃ stem part, stem <+: index ∧ value.below? stem = some part ∧ part.content? = none

theorem meetsAbsent_iff {value : Datum} {index : List Nat} : value.MeetsAbsent index ↔
    value.AbsentAbove index ∨ ∃ part, value.below? index = some part ∧ part.content? = none := by
  constructor
  · rintro ⟨stem, part, starts, found, missing⟩
    by_cases whole : stem = index
    · exact .inr ⟨part, whole ▸ found, missing⟩
    · exact .inl ⟨stem, part, starts, whole, found, missing⟩
  · rintro (⟨stem, part, starts, _, found, missing⟩ | ⟨part, found, missing⟩)
    · exact ⟨stem, part, starts, found, missing⟩
    · exact ⟨index, part, List.prefix_rfl, found, missing⟩

end Datum

namespace Codec

/-- Each field of the codec has a value at its position. It is NULL exactly where an option met on the way is
absent, and is otherwise what the part behind the options there is encoded as. -/
structure ReachesFields (catalog : Catalog n) (codec : Codec n) (value : Datum) : Prop where
  present : ∀ field ∈ codec.fields, ∃ entry, value.valueAt catalog (.record codec.record) field.index = some entry
  null : ∀ field ∈ codec.fields,
    value.valueAt catalog (.record codec.record) field.index = some .null ↔ value.MeetsAbsent field.index
  reached : ∀ field ∈ codec.fields, ¬value.MeetsAbsent field.index → ∃ part content,
    value.below? field.index = some part ∧ part.content? = some content ∧
      content.fits catalog field.type.base = true ∧
      value.valueAt catalog (.record codec.record) field.index = some (content.encode catalog field.type.base)
  columns : ∃ entries, codec.valuesOf catalog (.record codec.record) value = .ok entries ∧
    entries.map some = codec.properties.map fun field => value.valueAt catalog (.record codec.record) field.index

variable {naming : String → String} {record : Fin n} {field : Field n} {value : Datum}

theorem valueAt_eq_null_iff (member : field ∈ (build catalog naming record).fields)
    (fits : value.fits catalog (.record record) = true) :
    value.valueAt catalog (.record record) field.index = some .null ↔ value.MeetsAbsent field.index := by
  rcases reads_of_mem member fits with ⟨part, found, _, read⟩ | ⟨absent, _, read⟩
  · rw [read, Option.some.injEq, Datum.encode_eq_null_iff, Datum.meetsAbsent_iff]
    constructor
    · exact fun missing => .inr ⟨part, found, missing⟩
    · rintro (above | ⟨own, here, missing⟩)
      · rw [Datum.below?_of_absentAbove above] at found
        cases found
      · rw [found] at here
        exact Option.some.inj here ▸ missing
  · exact ⟨fun _ => Datum.meetsAbsent_iff.mpr (.inl absent), fun _ => read⟩

theorem exists_content (member : field ∈ (build catalog naming record).fields)
    (fits : value.fits catalog (.record record) = true) (filled : ¬value.MeetsAbsent field.index) :
    ∃ part content, value.below? field.index = some part ∧ part.content? = some content ∧
      content.fits catalog field.type.base = true ∧
      value.valueAt catalog (.record record) field.index = some (content.encode catalog field.type.base) := by
  rw [Datum.meetsAbsent_iff, not_or] at filled
  rcases reads_of_mem member fits with ⟨part, found, fitsPart, read⟩ | ⟨absent, _⟩
  · cases shown : part.content? with
    | none => exact absurd ⟨part, found, shown⟩ filled.2
    | some content =>
      obtain ⟨fitsContent, encoded⟩ := Datum.encode_content fitsPart shown
      exact ⟨part, content, found, shown, fitsContent, encoded ▸ read⟩
  · exact absurd absent filled.1

theorem exists_valueAt (member : field ∈ (build catalog naming record).fields)
    (fits : value.fits catalog (.record record) = true) :
    ∃ entry, value.valueAt catalog (.record record) field.index = some entry := by
  rcases reads_of_mem member fits with ⟨_, _, _, read⟩ | ⟨_, _, read⟩
  · exact ⟨_, read⟩
  · exact ⟨_, read⟩

theorem fields_are_reached (catalog : Catalog n) (naming : String → String) (record : Fin n) {value : Datum}
    (fits : value.fits catalog (.record record) = true) :
    ReachesFields catalog (build catalog naming record) value where
  present _ member := exists_valueAt member fits
  null _ member := valueAt_eq_null_iff member fits
  reached _ member := exists_content member fits
  columns := by
    refine ⟨_, if_pos rfl, ?_⟩
    rw [Datum.columnValues, List.map_map]
    apply List.map_congr_left
    intro field member
    obtain ⟨entry, read⟩ := exists_valueAt (isCandidate_of_mem_properties member).1 fits
    have read : value.valueAt catalog (.record (build catalog naming record).record) field.index = some entry := read
    rw [Function.comp_apply, read]
    rfl

def nodes : Catalog 2 :=
  List.get
    [⟨"Node",
      [{ name := "cache", type := .scalar .string, exported := false },
       { name := "meta", type := .option (.boxed (.option (.record (Fin.last 1)))), embedded := true },
       { name := "next", type := .boxed (.option (.boxed (.record ⟨0, Nat.two_pos⟩))) }]⟩,
     ⟨"Meta",
      [{ name := "key", type := .scalar (.signed .w64) },
       { name := "note", type := .option (.option (.scalar .string)) }]⟩]

def leafNode : Datum := .record [.string "warm", .present .absent, .absent]

def rootNode : Datum :=
  .record [.string "cold", .present (.present (.record [.signed 7, .present .absent])), .present leafNode]

theorem nodes_are_reached :
    rootNode.fits nodes (.record 0) = true ∧ ReachesFields nodes (build nodes id 0) rootNode := by
  have fits : rootNode.fits nodes (.record 0) = true := by decide
  exact ⟨fits, fields_are_reached nodes id 0 fits⟩

end Codec

end SqlComposer
