import Mathlib.Data.List.TakeWhile
import SqlComposer.Proofs.Schema.Definitions
import SqlComposer.Proofs.Schema.ValueKinds

namespace SqlComposer

variable {n : Nat}

namespace Text

def SpellsUnsigned (limit : Nat) (text : String) : Prop :=
  ∃ digits, (text.toList = digits ∨ text.toList = '+' :: digits) ∧ digits ≠ [] ∧
    (∀ digit ∈ digits, digit.isDigit = true) ∧ decimalValue digits < limit

theorem exists_digits_read (limit : Nat) (text : String) :
    ∃ digits, (text.toList = '+' :: digits ∨ text.toList = digits ∧ digits.head? ≠ some '+') ∧
      ((readUnsigned? limit text).isSome = true ↔
        digits ≠ [] ∧ (∀ digit ∈ digits, digit.isDigit = true) ∧ decimalValue digits < limit) := by
  have reads (digits : List Char) : (if digits.isEmpty || !digits.all Char.isDigit then none
      else if decimalValue digits < limit then some (decimalValue digits) else none).isSome = true ↔
        digits ≠ [] ∧ (∀ digit ∈ digits, digit.isDigit = true) ∧ decimalValue digits < limit := by
    simp only [Bool.or_eq_true, List.isEmpty_iff, Bool.not_eq_true', ← Bool.not_eq_true, List.all_eq_true]
    split
    · next unreadable =>
      refine iff_of_false (by simp) ?_
      rintro ⟨filled, each, _⟩
      exact unreadable.elim filled (absurd each)
    · next readable =>
      rw [not_or, not_not] at readable
      split <;> simp_all
  unfold readUnsigned?
  split
  · next rest shown => exact ⟨rest, .inl shown, reads rest⟩
  · next unsigned =>
    refine ⟨text.toList, .inr ⟨rfl, fun signed => ?_⟩, reads _⟩
    obtain ⟨rest, shown⟩ := List.head?_eq_some_iff.mp signed
    exact unsigned rest shown

theorem isSome_readUnsigned?_iff {limit : Nat} {text : String} :
    (readUnsigned? limit text).isSome = true ↔ SpellsUnsigned limit text := by
  obtain ⟨digits, spelled, read⟩ := exists_digits_read limit text
  rw [read]
  constructor
  · intro good
    exact ⟨digits, spelled.symm.imp_left And.left, good⟩
  · rintro ⟨digitsToo, spelledToo, filled, each, small⟩
    -- A plus sign is no digit, so only one way of reading the text is left.
    have unsigned : digitsToo.head? ≠ some '+' := by
      intro signed
      exact absurd (each '+' (List.mem_of_mem_head? signed)) (by decide)
    have same : digits = digitsToo := by
      rcases spelled with signed | ⟨shown, plain⟩ <;> rcases spelledToo with shownToo | signedToo
      · simp [← shownToo, signed] at unsigned
      · exact (List.cons.inj (signed.symm.trans signedToo)).2
      · exact shown.symm.trans shownToo
      · simp [← shown, signedToo] at plain
    rw [same]
    exact ⟨filled, each, small⟩

theorem trimmed_eq_nil_iff {cs : List Char} : trimmed cs = [] ↔ ∀ c ∈ cs, isBlank c = true := by
  rw [trimmed, List.reverse_eq_nil_iff, List.dropWhile_eq_nil_iff]
  simp only [List.mem_reverse]
  constructor
  · intro blank
    by_contra! visible
    have filled : cs.dropWhile isBlank ≠ [] := by simpa [List.dropWhile_eq_nil_iff] using visible
    have first := List.head_dropWhile_not isBlank filled
    simp [blank _ (List.head_mem filled)] at first
  · intro blank c member
    exact blank c (List.dropWhile_sublist isBlank |>.subset member)

theorem flatten_parts (sep : Char) (cs : List Char) : (parts sep cs).flatten = cs.filter (· != sep) := by
  induction cs with
  | nil => rfl
  | cons c cs ih =>
    obtain ⟨part, rest, shown⟩ := List.exists_cons_of_ne_nil (parts_ne_nil sep cs)
    rw [shown, List.flatten_cons] at ih
    by_cases same : c = sep <;> simp [parts, shown, same, ih]

end Text

namespace Schema

variable {catalog : Catalog n} {config : Config} {field : Field n} {column : Column}

theorem alternatives_eq_nil_iff {raw : String} :
    alternatives raw = [] ↔ ∀ c ∈ raw.toList, c = '|' ∨ Text.isBlank c = true := by
  have blank : alternatives raw = [] ↔ ∀ part ∈ Text.parts '|' raw.toList, ∀ c ∈ part, Text.isBlank c = true := by
    simp [alternatives, List.filter_eq_nil_iff, Text.trimmed_eq_nil_iff]
  have together := Text.flatten_parts '|' raw.toList
  rw [blank, ← List.forall_mem_flatten, together]
  simp [or_iff_not_imp_left]

def IsUnsupported (catalog : Catalog n) (type : Ty n) : Prop :=
  type.base.kind = .option ∧ ∀ category, (type.base.name catalog, category) ∉ Category.mysqlNames

/-- An enumeration without alternatives or, where there is no enumeration, a fixed size that is no number. -/
def IsUnreadable (tag : Tag) : Prop :=
  (∃ raw, tag.lookUp? "enum" = some raw ∧ ∀ c ∈ raw.toList, c = '|' ∨ Text.isBlank c = true) ∨
  tag.lookUp? "enum" = none ∧ ∃ raw, tag.lookUp? "char" = some raw ∧ ¬ Text.SpellsUnsigned sizeLimit raw

theorem ofKind?_eq_none_iff {type : Ty n} : Category.ofKind? type = none ↔ type.kind = .option := by
  unfold Category.ofKind?
  cases type.kind with
  | list => cases type.item?.any fun item => item.kind == .uint8 <;> simp
  | _ => simp

theorem category?_eq_none_iff {type : Ty n} :
    (Builder.mysql config).category? catalog type = none ↔ IsUnsupported catalog type := by
  have unnamed : Category.mysqlNames.lookup (type.base.name catalog) = none ↔
      ∀ category, (type.base.name catalog, category) ∉ Category.mysqlNames := by
    rw [List.lookup_eq_none_iff]
    constructor
    · intro others category member
      simpa using others _ member
    · rintro absent ⟨name, category⟩ member
      simp only [bne_iff_ne, ne_eq]
      rintro rfl
      exact absent category member
  rw [IsUnsupported, ← unnamed, Builder.category?, Category.lookUp?]
  rw [show (Builder.mysql config).names = Category.mysqlNames from rfl]
  cases Category.mysqlNames.lookup (type.base.name catalog) with
  | some category => simp
  | none => simp [ofKind?_eq_none_iff]

theorem enumColumn_eq_error_iff {raw : String} {error : SchemaError} :
    enumColumn config field raw = .error error ↔
      alternatives raw = [] ∧ error = .invalidTag field.path "enum" raw := by
  unfold enumColumn
  split
  · next nothing => rw [Except.error.injEq, eq_comm, and_iff_right nothing]
  · next first rest shown => simp [shown]

theorem charColumn_eq_error_iff {raw : String} {error : SchemaError} :
    charColumn config field raw = .error error ↔
      Text.readUnsigned? sizeLimit raw = none ∧ error = .invalidTag field.path "char" raw := by
  unfold charColumn
  split
  · next unread => rw [Except.error.injEq, eq_comm, and_iff_right unread]
  · next size read => simp [read]

theorem stringColumn_eq_error_iff {error : SchemaError} :
    stringColumn config field = .error error ↔
      (∃ raw, field.tag.lookUp? "enum" = some raw ∧ alternatives raw = [] ∧
        error = .invalidTag field.path "enum" raw) ∨
      field.tag.lookUp? "enum" = none ∧ ∃ raw, field.tag.lookUp? "char" = some raw ∧
        Text.readUnsigned? sizeLimit raw = none ∧ error = .invalidTag field.path "char" raw := by
  unfold stringColumn
  cases enumeration : field.tag.lookUp? "enum" with
  | some raw => simp [enumColumn_eq_error_iff]
  | none => cases fixed : field.tag.lookUp? "char" with
    | some raw => simp [charColumn_eq_error_iff]
    | none => by_cases long : field.tag.has "longtext" <;> simp [long]

theorem isUnreadable_iff {tag : Tag} :
    IsUnreadable tag ↔ (∃ raw, tag.lookUp? "enum" = some raw ∧ alternatives raw = []) ∨
      tag.lookUp? "enum" = none ∧ ∃ raw, tag.lookUp? "char" = some raw ∧
        Text.readUnsigned? sizeLimit raw = none := by
  have unread (raw : String) : ¬ Text.SpellsUnsigned sizeLimit raw ↔ Text.readUnsigned? sizeLimit raw = none := by
    rw [← Text.isSome_readUnsigned?_iff, Option.not_isSome_iff_eq_none]
  simp only [IsUnreadable, alternatives_eq_nil_iff, unread]

def textTypes : List String := ["VARCHAR", "CHAR", "ENUM"]

def integerTypes : List String := ["TINYINT", "SMALLINT", "INT", "BIGINT"]

def bareTypes : List String :=
  ["TEXT", "MEDIUMBLOB", "JSON", "POINT", "LINESTRING", "POLYGON", "MULTIPOINT", "MULTILINESTRING", "MULTIPOLYGON"]

def filledTypes : List String := ["VARCHAR", "CHAR", "REAL", "DATETIME", "DATE"] ++ integerTypes

def precisionText (size : Nat) : String := if 0 < size then "(" ++ toString size ++ ")" else ""

structure Column.KeepsRules (field : Field n) (column : Column) : Prop where
  known : column.dataType ∈ bareTypes ++ filledTypes ++ ["ENUM"]
  bare : column.dataType ∈ bareTypes → column.defaultValue = none
  counting : column.extra = "AUTO_INCREMENT" → column.dataType ∈ integerTypes ∧ column.defaultValue = none
  nullable : column.nullable = true → column.defaultValue ≠ none → column.dataType = "ENUM"
  filled : column.nullable = false → column.extra ≠ "AUTO_INCREMENT" → column.dataType ∈ filledTypes →
    column.defaultValue ≠ none
  charset : column.charset ≠ none ↔ column.dataType ∈ textTypes
  collation : column.collation ≠ none ↔ column.dataType ∈ textTypes
  precision : column.dataType = "DATETIME" → column.size ≤ 6 ∧
    column.sqlType = "DATETIME" ++ precisionText column.size ∧
    ∀ v, column.defaultValue = some v → v = "CURRENT_TIMESTAMP" ++ precisionText column.size
  alternative : column.dataType = "ENUM" → ∃ raw, field.tag.lookUp? "enum" = some raw ∧
    column.sqlType = "ENUM(" ++ Text.joined "," ((alternatives raw).map literal) ++ ")" ∧
    ∃ v ∈ alternatives raw, column.defaultValue = some v

theorem eq_of_defaultUnlessNullable {v w : String} (given : defaultUnlessNullable field v = some w) : w = v := by
  unfold defaultUnlessNullable at given
  split at given
  · cases given
  · exact (Option.some.inj given).symm

theorem keepsRules_bare {dataType sqlType extra : String} (bare : dataType ∈ bareTypes)
    (still : extra ≠ "AUTO_INCREMENT") :
    Column.KeepsRules field { plainColumn field with dataType, sqlType, extra } := by
  have other : dataType ∉ filledTypes ∧ dataType ∉ textTypes ∧ dataType ≠ "DATETIME" ∧ dataType ≠ "ENUM" := by
    revert dataType
    decide
  constructor <;> simp [plainColumn, other, bare, still]

theorem keepsRules_spatialColumn (config : Config) {dataType : String} (bare : dataType ∈ bareTypes)
    (made : spatialColumn dataType config field = .ok column) : column.KeepsRules field := by
  obtain rfl := Except.ok.inj made
  refine keepsRules_bare bare (ne_of_head? ?_)
  split <;> simp [String.toList_append]

theorem keepsRules_simple {dataType sqlType v : String} {size : Nat}
    (simple : dataType ∈ ["REAL", "DATE"] ++ integerTypes) :
    Column.KeepsRules field
      { plainColumn field with dataType, sqlType, size, defaultValue := defaultUnlessNullable field v } := by
  have other : dataType ∉ bareTypes ∧ dataType ∈ filledTypes ∧ dataType ∉ textTypes ∧ dataType ≠ "DATETIME" ∧
      dataType ≠ "ENUM" := by
    revert dataType
    decide
  constructor <;> simp +contextual [plainColumn, other, defaultUnlessNullable]

theorem integerType_mem (type : Ty n) : integerType type ∈ integerTypes := by
  unfold integerType
  split <;> decide

theorem keepsRules_counting {dataType sqlType : String} (integer : dataType ∈ integerTypes) :
    Column.KeepsRules field { plainColumn field with dataType, sqlType, extra := "AUTO_INCREMENT" } := by
  have other : dataType ∈ filledTypes ∧ dataType ∉ textTypes ∧ dataType ≠ "DATETIME" ∧ dataType ≠ "ENUM" := by
    revert dataType
    decide
  constructor <;> simp [plainColumn, other, integer]

theorem keepsRules_integerColumn (isUnsigned : Bool) : (integerColumn field isUnsigned).KeepsRules field := by
  have integer := integerType_mem field.type
  cases counts : field.tag.has "auto_increment" with
  | true => simpa [integerColumn, plainColumn, counts] using keepsRules_counting integer
  | false =>
    have simple := List.mem_append_right ["REAL", "DATE"] integer
    simpa [integerColumn, plainColumn, counts] using keepsRules_simple (v := "0") simple

theorem keepsRules_dateTimeColumn (made : dateTimeColumn config field = .ok column) : column.KeepsRules field := by
  obtain rfl := Except.ok.inj made
  have other : "DATETIME" ∉ bareTypes ∧ "DATETIME" ∈ filledTypes ∧ "DATETIME" ∉ textTypes := by decide
  constructor
  case precision => exact fun _ => ⟨Nat.min_le_right _ _, rfl, fun _ => eq_of_defaultUnlessNullable⟩
  all_goals simp +contextual [plainColumn, other, defaultUnlessNullable]

theorem keepsRules_sizedTextColumn {dataType : String} (sized : dataType ∈ ["VARCHAR", "CHAR"]) (size : Nat) :
    (sizedTextColumn config field dataType size).KeepsRules field := by
  have other : dataType ∉ bareTypes ∧ dataType ∈ filledTypes ∧ dataType ∈ textTypes ∧ dataType ≠ "DATETIME" ∧
      dataType ≠ "ENUM" := by
    revert dataType
    decide
  constructor <;> simp +contextual [sizedTextColumn, plainColumn, other, defaultUnlessNullable]

theorem keepsRules_enumColumn {raw : String} (given : field.tag.lookUp? "enum" = some raw)
    (made : enumColumn config field raw = .ok column) : column.KeepsRules field := by
  have other : "ENUM" ∉ bareTypes ∧ "ENUM" ∈ textTypes ∧ "ENUM" ∉ filledTypes := by decide
  unfold enumColumn at made
  split at made
  · cases made
  · next first rest shown =>
    obtain rfl := Except.ok.inj made
    constructor <;> simp [plainColumn, other, given, shown]

theorem keepsRules_stringColumn (made : stringColumn config field = .ok column) : column.KeepsRules field := by
  unfold stringColumn at made
  split at made
  · next given => exact keepsRules_enumColumn given made
  · next raw _ _ =>
    unfold charColumn at made
    split at made
    · cases made
    · obtain rfl := Except.ok.inj made
      exact keepsRules_sizedTextColumn (by simp) _
  · split at made
    · obtain rfl := Except.ok.inj made
      exact keepsRules_bare (by decide) (by simp [plainColumn])
    · obtain rfl := Except.ok.inj made
      exact keepsRules_sizedTextColumn (by simp) _

theorem keepsRules_mysqlRule {category : Category} (made : mysqlRule category config field = .ok column) :
    column.KeepsRules field := by
  cases category with
  | string => exact keepsRules_stringColumn made
  | dateTime => exact keepsRules_dateTimeColumn made
  | int | uint =>
    obtain rfl := Except.ok.inj made
    exact keepsRules_integerColumn _
  | bool | float | date =>
    obtain rfl := Except.ok.inj made
    exact keepsRules_simple (by decide)
  | bytes | json =>
    obtain rfl := Except.ok.inj made
    exact keepsRules_bare (by decide) (by simp [plainColumn])
  | point | lineString | polygon | multiPoint | multiLineString | multiPolygon =>
    exact keepsRules_spatialColumn config (by decide) made

theorem mysqlRule_eq_error_iff {category : Category} {error : SchemaError} :
    mysqlRule category config field = .error error ↔
      category = .string ∧ stringColumn config field = .error error := by
  cases category with
  | string => simp [mysqlRule]
  | _ => exact iff_of_false nofun fun failed => nomatch failed.1

theorem column_eq_error_iff {error : SchemaError} :
    (Builder.mysql config).column catalog field = .error error ↔
      IsUnsupported catalog field.type ∧
        error = .unsupportedType field.path field.type.base.kind (field.type.base.name catalog) ∨
      (Builder.mysql config).category? catalog field.type = some .string ∧
        stringColumn config field = .error error := by
  cases found : (Builder.mysql config).category? catalog field.type with
  | none => simp [Builder.column, found, category?_eq_none_iff.mp found, eq_comm]
  | some category =>
    have supported : ¬ IsUnsupported catalog field.type := by
      intro unsupported
      rw [category?_eq_none_iff.mpr unsupported] at found
      cases found
    simp [column_eq found, mysqlRule_eq_error_iff, supported]

theorem keepsRules_of_column (made : (Builder.mysql config).column catalog field = .ok column) :
    column.KeepsRules field := by
  cases found : (Builder.mysql config).category? catalog field.type with
  | none => simp [Builder.column, found] at made
  | some category => exact keepsRules_mysqlRule ((column_eq found).symm.trans made)

/-- A field has no column just where its type is unsupported or, if it holds text, where its tag is unreadable. The
error names the field and what is wrong with it, and every column that is made keeps the rules. -/
structure HasColumn (config : Config) (catalog : Catalog n) (field : Field n) : Prop where
  unsupported : (∃ path kind typeName,
    (Builder.mysql config).column catalog field = .error (.unsupportedType path kind typeName)) ↔
      IsUnsupported catalog field.type
  unreadable : (∃ path tag raw, (Builder.mysql config).column catalog field = .error (.invalidTag path tag raw)) ↔
    (Builder.mysql config).category? catalog field.type = some .string ∧ IsUnreadable field.tag
  blamed : ∀ error, (Builder.mysql config).column catalog field = .error error →
    error = .unsupportedType field.path .option (field.type.base.name catalog) ∨
    ∃ tag raw, field.tag.lookUp? tag = some raw ∧ error = .invalidTag field.path tag raw
  made : ¬ IsUnsupported catalog field.type →
    ¬ ((Builder.mysql config).category? catalog field.type = some .string ∧ IsUnreadable field.tag) →
      ∃ column, (Builder.mysql config).column catalog field = .ok column
  rules : ∀ column, (Builder.mysql config).column catalog field = .ok column →
    column.IsFor field ∧ column.KeepsRules field

theorem exists_stringColumn_error_iff (config : Config) :
    (∃ error, stringColumn config field = .error error) ↔ IsUnreadable field.tag := by
  simp only [stringColumn_eq_error_iff, isUnreadable_iff]
  constructor
  · rintro ⟨error, ⟨raw, given, blank, _⟩ | ⟨none, raw, given, unread, _⟩⟩
    · exact .inl ⟨raw, given, blank⟩
    · exact .inr ⟨none, raw, given, unread⟩
  · rintro (⟨raw, given, blank⟩ | ⟨none, raw, given, unread⟩)
    · exact ⟨_, .inl ⟨raw, given, blank, rfl⟩⟩
    · exact ⟨_, .inr ⟨none, raw, given, unread, rfl⟩⟩

theorem exists_tag_of_stringColumn {error : SchemaError} (failed : stringColumn config field = .error error) :
    ∃ tag raw, field.tag.lookUp? tag = some raw ∧ error = .invalidTag field.path tag raw := by
  rcases stringColumn_eq_error_iff.mp failed with ⟨raw, given, _, rfl⟩ | ⟨_, raw, given, _, rfl⟩
  · exact ⟨"enum", raw, given, rfl⟩
  · exact ⟨"char", raw, given, rfl⟩

theorem columns_keep_rules (config : Config) (catalog : Catalog n) (field : Field n) :
    HasColumn config catalog field where
  unsupported := by
    simp only [column_eq_error_iff]
    constructor
    · rintro ⟨path, kind, typeName, ⟨unsupported, _⟩ | ⟨_, failed⟩⟩
      · exact unsupported
      · obtain ⟨tag, raw, _, blamed⟩ := exists_tag_of_stringColumn failed
        cases blamed
    · exact fun unsupported => ⟨_, _, _, .inl ⟨unsupported, rfl⟩⟩
  unreadable := by
    simp only [column_eq_error_iff, ← exists_stringColumn_error_iff config]
    constructor
    · rintro ⟨path, tag, raw, ⟨_, blamed⟩ | ⟨text, failed⟩⟩
      · cases blamed
      · exact ⟨text, _, failed⟩
    · rintro ⟨text, error, failed⟩
      obtain ⟨tag, raw, _, rfl⟩ := exists_tag_of_stringColumn failed
      exact ⟨_, _, _, .inr ⟨text, failed⟩⟩
  blamed := by
    intro error failed
    rcases column_eq_error_iff.mp failed with ⟨unsupported, rfl⟩ | ⟨_, failed⟩
    · exact .inl (by rw [unsupported.1])
    · exact .inr (exists_tag_of_stringColumn failed)
  made := by
    intro supported readable
    cases made : (Builder.mysql config).column catalog field with
    | ok column => exact ⟨column, rfl⟩
    | error error =>
      rcases column_eq_error_iff.mp made with ⟨unsupported, _⟩ | ⟨text, failed⟩
      · exact absurd unsupported supported
      · exact absurd ⟨text, (exists_stringColumn_error_iff config).mp ⟨error, failed⟩⟩ readable
  rules _ made := ⟨isFor_of_column made, keepsRules_of_column made⟩

end Schema

end SqlComposer
