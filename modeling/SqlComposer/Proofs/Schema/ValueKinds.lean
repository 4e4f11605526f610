import SqlComposer.Proofs.Record.Typing
import SqlComposer.Schema.Builder

namespace SqlComposer

variable {n : Nat} {catalog : Catalog n}

namespace Ty

theorem base_ne_option (type item : Ty n) : type.base ≠ .option item := by
  induction type with
  | option inner ih | boxed inner ih => exact ih
  | _ => exact nofun

theorem base_ne_boxed (type inner : Ty n) : type.base ≠ .boxed inner := by
  induction type with
  | option inner ih | boxed inner ih => exact ih
  | _ => exact nofun

end Ty

theorem SqlValue.kind_eq_bytes_iff {v : SqlValue} : v.kind = .bytes ↔ ∃ octets, v = .bytes octets := by
  cases v <;> simp [kind]

namespace Schema

def Category.valueKind? : Category → Option ValueKind
  | .string => some .string
  | .bool => some .bool
  | .int => some .i64
  | .uint => some .u64
  | .float => some .f64
  | .dateTime => some .dateTime
  | .date => some .date
  | .bytes => some .bytes
  | .json => some .json
  | .point | .lineString | .polygon | .multiPoint | .multiLineString | .multiPolygon => none

theorem Category.valueKind?_eq_bytes_iff {category : Category} :
    category.valueKind? = some .bytes ↔ category = .bytes := by
  cases category <;> simp [valueKind?]

theorem Category.lookUp?_of_hasType {type : Ty n} {content : Datum} (typed : content.HasType catalog type)
    (plain : type.base = type)
    (unlike : ∀ id, type.record? = some id → mysqlNames.lookup (catalog id).typeName = none) :
    ∃ category, lookUp? mysqlNames catalog type = some category ∧
      category.valueKind? = some (content.encode catalog type).kind := by
  cases typed with
  | absent item | present => exact absurd plain (Ty.base_ne_option _ _)
  | boxed => exact absurd plain (Ty.base_ne_boxed _ _)
  | bool => exact ⟨.bool, rfl, rfl⟩
  | @signed width => cases width <;> exact ⟨.int, rfl, rfl⟩
  | @unsigned width => cases width <;> exact ⟨.uint, rfl, rfl⟩
  | float32 | float64 => exact ⟨.float, rfl, rfl⟩
  | string => exact ⟨.string, rfl, rfl⟩
  | json => exact ⟨.json, rfl, rfl⟩
  | dateTime | plainDateTime => exact ⟨.dateTime, rfl, rfl⟩
  | date => exact ⟨.date, rfl, rfl⟩
  | array | map => exact ⟨.json, rfl, rfl⟩
  | @list item items =>
    have looked : lookUp? mysqlNames catalog (.list item) =
        if item.kind == .uint8 then some .bytes else some .json := rfl
    rw [looked, Datum.encode_list]
    cases item.kind == .uint8
    · exact ⟨.json, rfl, rfl⟩
    · exact ⟨.bytes, rfl, rfl⟩
  | @record id =>
    have unknown := unlike id rfl
    refine ⟨.json, ?_, by rw [Datum.encode]; rfl⟩
    simp only [lookUp?, Ty.base, Ty.name, unknown]
    rfl

theorem ne_of_head? {text other : String} (different : text.toList.head? ≠ other.toList.head?) : text ≠ other :=
  fun same => different (same ▸ rfl)

theorem sqlType_of_stringColumn {config : Config} {field : Field n} {column : Column}
    (made : stringColumn config field = .ok column) : column.sqlType ≠ "MEDIUMBLOB" := by
  apply ne_of_head?
  unfold stringColumn enumColumn charColumn at made
  split at made
  · split at made
    · cases made
    · obtain rfl := Except.ok.inj made
      simp [String.toList_append]
  · split at made
    · cases made
    · obtain rfl := Except.ok.inj made
      simp [sizedTextColumn, String.toList_append]
  · split at made
    · obtain rfl := Except.ok.inj made
      simp
    · obtain rfl := Except.ok.inj made
      simp [sizedTextColumn, String.toList_append]

theorem sqlType_integerColumn (field : Field n) (isUnsigned : Bool) :
    (integerColumn field isUnsigned).sqlType ≠ "MEDIUMBLOB" := by
  have words : integerType field.type ∈ ["TINYINT", "SMALLINT", "INT", "BIGINT"] := by
    unfold integerType
    split <;> simp
  simp only [List.mem_cons, List.not_mem_nil, or_false] at words
  unfold integerColumn
  rcases words with word | word | word | word <;> cases isUnsigned <;> simp [word]

theorem sqlType_eq_blob_iff {config : Config} {category : Category} {field : Field n} {column : Column}
    (made : mysqlRule category config field = .ok column) : column.sqlType = "MEDIUMBLOB" ↔ category = .bytes := by
  cases category with
  | string => exact iff_of_false (sqlType_of_stringColumn made) nofun
  | int | uint =>
    obtain rfl := Except.ok.inj made
    exact iff_of_false (sqlType_integerColumn field _) nofun
  | float =>
    obtain rfl := Except.ok.inj made
    refine iff_of_false ?_ nofun
    dsimp only
    split <;> simp
  | dateTime =>
    obtain rfl := Except.ok.inj made
    exact iff_of_false (ne_of_head? (by simp [String.toList_append])) nofun
  | bool | date | bytes | json | point | lineString | polygon | multiPoint | multiLineString | multiPolygon =>
    obtain rfl := Except.ok.inj made
    simp

end Schema

namespace Datum

theorem HasType.encode_eq_bytes {type : Ty n} {content : Datum} {octets : List UInt8}
    (typed : HasType catalog type content) (plain : type.base = type)
    (encoded : content.encode catalog type = .bytes octets) :
    content = .list (octets.map fun octet => .unsigned octet.toUInt64) := by
  cases typed with
  | absent item | present => exact absurd plain (Ty.base_ne_option _ _)
  | boxed => exact absurd plain (Ty.base_ne_boxed _ _)
  | @list item items each =>
    rw [encode_list] at encoded
    split at encoded
    · next bytes =>
      obtain ⟨given, rfl⟩ := exists_octets each (beq_iff_eq.mp bytes)
      rw [filterMap_octet?] at encoded
      rw [SqlValue.bytes.inj encoded]
    · cases encoded
  | array => simp [encode, isByteList, Ty.kind] at encoded
  | _ => simp [encode] at encoded

end Datum

namespace Schema

/-- The value is encoded as NULL just where an option is absent, and else as the kind of value that the category of its
type stands for. Bytes go into columns of bytes only and nothing else does, and they are the items of a list. -/
structure FitsColumns (config : Config) (catalog : Catalog n) (type : Ty n) (value : Datum) : Prop where
  null : value.encode catalog type = .null ↔ value.content? = none
  kind : value.encode catalog type ≠ .null → ∃ category,
    (Builder.mysql config).category? catalog type = some category ∧
      category.valueKind? = some (value.encode catalog type).kind
  blob : value.encode catalog type ≠ .null → ∀ field : Field n, field.type = type →
    ((∃ column, (Builder.mysql config).column catalog field = .ok column ∧ column.sqlType = "MEDIUMBLOB") ↔
      ∃ octets, value.encode catalog type = .bytes octets)
  octets : ∀ octets, value.encode catalog type = .bytes octets →
    value.content? = some (.list (octets.map fun octet => .unsigned octet.toUInt64))

theorem column_eq {config : Config} {field : Field n} {category : Category}
    (found : (Builder.mysql config).category? catalog field.type = some category) :
    (Builder.mysql config).column catalog field = mysqlRule category config field := by
  rw [Builder.column, found]
  rfl

theorem exists_blob_iff {config : Config} {field : Field n} {category : Category}
    (found : (Builder.mysql config).category? catalog field.type = some category) :
    (∃ column, (Builder.mysql config).column catalog field = .ok column ∧ column.sqlType = "MEDIUMBLOB") ↔
      category = .bytes := by
  rw [column_eq found]
  constructor
  · rintro ⟨column, made, blob⟩
    exact (sqlType_eq_blob_iff made).mp blob
  · rintro rfl
    exact ⟨_, rfl, rfl⟩

theorem exists_category (config : Config) {type : Ty n} {value : Datum} (typed : value.HasType catalog type)
    (unlike : ∀ id, type.base.record? = some id → Category.mysqlNames.lookup (catalog id).typeName = none)
    (filled : value.encode catalog type ≠ .null) :
    ∃ category, (Builder.mysql config).category? catalog type = some category ∧
      category.valueKind? = some (value.encode catalog type).kind := by
  obtain ⟨content, shown⟩ := Option.ne_none_iff_exists'.mp (mt Datum.encode_eq_null_iff.mpr filled)
  rw [(Datum.encode_content typed.fits shown).2]
  have base := Category.lookUp?_of_hasType (typed.content shown) (Ty.base_base type) unlike
  simpa [Builder.category?, Builder.mysql, Category.lookUp?] using base

theorem values_fit_their_columns (config : Config) {type : Ty n} {value : Datum} (typed : value.HasType catalog type)
    (unlike : ∀ id, type.base.record? = some id → Category.mysqlNames.lookup (catalog id).typeName = none) :
    FitsColumns config catalog type value where
  null := Datum.encode_eq_null_iff
  kind := exists_category config typed unlike
  blob := by
    rintro filled field rfl
    obtain ⟨category, found, kind⟩ := exists_category config typed unlike filled
    rw [exists_blob_iff found, ← SqlValue.kind_eq_bytes_iff, ← Category.valueKind?_eq_bytes_iff, kind,
      Option.some.injEq]
  octets := by
    intro octets encoded
    have filled : value.content? ≠ none := by
      intro missing
      rw [Datum.encode_eq_null_iff.mpr missing] at encoded
      cases encoded
    obtain ⟨content, shown⟩ := Option.ne_none_iff_exists'.mp filled
    rw [(Datum.encode_content typed.fits shown).2] at encoded
    rw [shown, (typed.content shown).encode_eq_bytes (Ty.base_base type) encoded]

def payload : Ty 1 := .option (.list (.boxed (.scalar (.unsigned .w8))))

def parcels : Catalog 1 := fun _ =>
  { fields := [{ name := "payload", type := payload }], typeName := "post::Parcel" }

theorem payload_hasType : (Datum.present (.list [.unsigned 7, .unsigned 255])).HasType parcels payload := by
  refine .present (.list fun value member => ?_)
  rcases List.mem_pair.mp member with rfl | rfl
  · exact .boxed (.unsigned (by decide))
  · exact .boxed (.unsigned (by decide))

theorem parcel_hasType :
    (Datum.record [.present (.list [.unsigned 7, .unsigned 255])]).HasType parcels (.record 0) := by
  refine .record rfl fun position decl value declared held => ?_
  cases position with
  | zero =>
    cases declared
    cases held
    exact payload_hasType
  | succ => cases held

theorem parcels_fit_their_columns :
    FitsColumns {} parcels payload (.present (.list [.unsigned 7, .unsigned 255])) ∧
      (Datum.present (.list [.unsigned 7, .unsigned 255])).encode parcels payload = .bytes [7, 255] ∧
      FitsColumns {} parcels (.record 0) (.record [.present (.list [.unsigned 7, .unsigned 255])]) :=
  ⟨values_fit_their_columns {} payload_hasType nofun, rfl,
    values_fit_their_columns {} parcel_hasType fun _ _ => by rfl⟩

end Schema

end SqlComposer
