import SqlComposer.Proofs.Record.Routes
import SqlComposer.Record.Datum

namespace SqlComposer

variable {n : Nat}

namespace Ty

@[simp] theorem kind_unboxed (type : Ty n) : type.unboxed.kind = type.kind := by
  induction type <;> simp_all [unboxed, kind]

@[simp] theorem item?_unboxed (type : Ty n) : type.unboxed.item? = type.item? := by
  induction type <;> simp_all [unboxed, item?]

@[simp] theorem record?_unboxed (type : Ty n) : type.unboxed.record? = type.record? := by
  induction type <;> simp_all [unboxed, record?]

@[simp] theorem base_unboxed (type : Ty n) : type.unboxed.base = type.base := by
  induction type <;> simp_all [unboxed, base]

theorem unboxed_of_base {type : Ty n} {inner : Fin n} (leads : type.base.record? = some inner) :
    type.unboxed = .record inner ∨ ∃ item, type.unboxed = .option item := by
  induction type with
  | record id => exact .inl (congrArg Ty.record (Option.some.inj leads))
  | option item => exact .inr ⟨item, rfl⟩
  | boxed item ih => exact ih leads
  | _ => cases leads

end Ty

def SqlValue.document : SqlValue → Json
  | .json document => document
  | _ => .null

namespace Datum

section Fits

variable (catalog : Catalog n)

mutual

def fits : Ty n → Datum → Bool
  | type, .bool _ => type.unboxed == .scalar .bool
  | type, .signed _ => match type.unboxed with
    | .scalar (.signed _) => true
    | _ => false
  | type, .unsigned _ => match type.unboxed with
    | .scalar (.unsigned _) => true
    | _ => false
  | type, .float _ => type.unboxed == .scalar .float32 || type.unboxed == .scalar .float64
  | type, .string _ => type.unboxed == .scalar .string
  | type, .json _ => type.unboxed == .json
  | type, .dateTime _ => type.unboxed == .dateTime || type.unboxed == .plainDateTime
  | type, .date _ => type.unboxed == .date
  | type, .absent => match type.unboxed with
    | .option _ => true
    | _ => false
  | type, .present inner => match type.unboxed with
    | .option item => fits item inner
    | _ => false
  | type, .list items => match type.unboxed with
    | .list item => itemsFit item items
    | .array item size => items.length == size && itemsFit item items
    | _ => false
  | type, .map entries => match type.unboxed with
    | .map (.scalar .string) item => entriesFit item entries
    | _ => false
  | type, .record values => match type.unboxed with
    | .record id => valuesFit (catalog id).fields values
    | _ => false

def itemsFit : Ty n → List Datum → Bool
  | _, [] => true
  | type, item :: items => fits type item && itemsFit type items

def entriesFit : Ty n → List (String × Datum) → Bool
  | _, [] => true
  | type, entry :: entries => entryFits type entry && entriesFit type entries

def entryFits : Ty n → String × Datum → Bool
  | type, (_, value) => fits type value

def valuesFit : List (FieldDecl n) → List Datum → Bool
  | [], [] => true
  | decl :: decls, value :: values => fits decl.type value && valuesFit decls values
  | _, _ => false

end

end Fits

def content? : Datum → Option Datum
  | .absent => none
  | .present inner => inner.content?
  | value => some value

def below? : Datum → List Nat → Option Datum
  | value, [] => some value
  | value, position :: index => match value.content? with
    | some (.record values) => values[position]?.bind fun part => below? part index
    | _ => none

def AbsentAbove (value : Datum) (index : List Nat) : Prop :=
  ∃ stem part, stem <+: index ∧ stem ≠ index ∧ value.below? stem = some part ∧ part.content? = none

variable {catalog : Catalog n}

theorem toJson_of_absent : ∀ {type : Ty n} {value : Datum}, value.content? = none →
    value.toJson catalog type = .null
  | _, .absent, _ => by rw [toJson]
  | _, .present inner, missing => by
    rw [content?] at missing
    rw [toJson, toJson_of_absent missing]

theorem valueAt_of_absent : ∀ {type : Ty n} {value : Datum} {index : List Nat}, value.content? = none →
    value.valueAt catalog type index = some .null
  | _, .absent, _, _ => by rw [valueAt]
  | _, .present inner, _, missing => by
    rw [content?] at missing
    rw [valueAt, valueAt_of_absent missing]

theorem encode_eq_null_iff : ∀ {type : Ty n} {value : Datum},
    value.encode catalog type = .null ↔ value.content? = none
  | _, .absent => by simp [encode, content?]
  | _, .present inner => by rw [encode, encode_eq_null_iff, content?]
  | type, .list items => by
    rw [encode]
    split <;> simp [content?]
  | _, .bool _ | _, .signed _ | _, .unsigned _ | _, .float _ | _, .string _ | _, .json _ | _, .dateTime _
  | _, .date _ | _, .map _ | _, .record _ => by simp [encode, content?]

theorem exists_option_of_fits {type : Ty n} {inner : Datum} (fits : (present inner).fits catalog type = true) :
    ∃ item, type.unboxed = .option item ∧ type.held = item ∧ type.base = item.base ∧
      inner.fits catalog item = true := by
  rw [Datum.fits] at fits
  split at fits
  · next item shown =>
    refine ⟨item, shown, ?_, ?_, fits⟩
    · simp [Ty.held, ← type.item?_unboxed, shown, Ty.item?]
    · rw [← type.base_unboxed, shown, Ty.base_option]
  · cases fits

theorem kind_of_absent {type : Ty n} {value : Datum} (fits : value.fits catalog type = true)
    (missing : value.content? = none) : type.kind = .option := by
  rw [← type.kind_unboxed]
  cases value with
  | absent =>
    rw [Datum.fits] at fits
    split at fits
    · next shown => rw [shown]; rfl
    · cases fits
  | present inner =>
    obtain ⟨item, shown, _⟩ := exists_option_of_fits fits
    rw [shown]
    rfl
  | _ => cases missing

structure Opens (catalog : Catalog n) (type : Ty n) (value : Datum) (inner : Fin n) (values : List Datum) : Prop where
  content : value.content? = some (.record values)
  valuesFit : valuesFit catalog (catalog inner).fields values = true
  document : value.toJson catalog type = .object (recordJson catalog (catalog inner).fields values [])
  encoded : value.encode catalog type = .json (value.toJson catalog type)
  below : ∀ position index, value.valueAt catalog type (position :: index) =
    valueBelow catalog (catalog inner).fields values position index

theorem opens_record {type : Ty n} {inner : Fin n} {values : List Datum} (leads : type.base.record? = some inner)
    (fits : (record values).fits catalog type = true) : Opens catalog type (.record values) inner values := by
  rw [Datum.fits] at fits
  split at fits
  · next id shown =>
    rw [← type.base_unboxed, shown] at leads
    obtain rfl : id = inner := Option.some.inj leads
    have decls : type.declsOf catalog = (catalog id).fields := by
      rw [Ty.declsOf, ← type.record?_unboxed, shown]
      rfl
    exact ⟨rfl, fits, by rw [toJson, decls], by rw [encode], by intros; rw [valueAt, decls]⟩
  · cases fits

theorem opens_of_fits : ∀ {type : Ty n} {value : Datum} {inner : Fin n}, type.base.record? = some inner →
    value.fits catalog type = true → value.content? = none ∨ ∃ values, Opens catalog type value inner values
  | _, .absent, _, _, _ => .inl rfl
  | type, .present value, inner, leads, fits => by
    obtain ⟨item, _, held, base, fits⟩ := exists_option_of_fits fits
    rcases opens_of_fits (base ▸ leads) fits with missing | ⟨values, opens⟩
    · exact .inl missing
    · refine .inr ⟨values, opens.content, opens.valuesFit, ?_, ?_, ?_⟩
      · rw [toJson, held, opens.document]
      · rw [encode, toJson, held, opens.encoded]
      · intro position index
        rw [valueAt, held, opens.below]
  | _, .record values, _, leads, fits => .inr ⟨values, opens_record leads fits⟩
  | type, .bool _, _, leads, fits | type, .signed _, _, leads, fits | type, .unsigned _, _, leads, fits
  | type, .float _, _, leads, fits | type, .string _, _, leads, fits | type, .json _, _, leads, fits
  | type, .dateTime _, _, leads, fits | type, .date _, _, leads, fits | type, .list _, _, leads, fits
  | type, .map _, _, leads, fits => by
    rcases Ty.unboxed_of_base leads with shown | ⟨_, shown⟩ <;>
      simp [Datum.fits, shown, Ty.json, Ty.dateTime, Ty.plainDateTime, Ty.date] at fits

theorem valuesFit_getElem? {decls : List (FieldDecl n)} {values : List Datum}
    (fit : valuesFit catalog decls values = true) {position : Nat} {decl : FieldDecl n}
    (declared : decls[position]? = some decl) :
    ∃ value, values[position]? = some value ∧ value.fits catalog decl.type = true := by
  induction decls generalizing values position with
  | nil => simp at declared
  | cons first decls ih => cases values with
    | nil => simp [valuesFit] at fit
    | cons value values =>
      simp only [valuesFit, Bool.and_eq_true] at fit
      cases position with
      | zero =>
        obtain rfl : first = decl := by simpa using declared
        exact ⟨value, rfl, fit.1⟩
      | succ position => simpa using ih fit.2 (by simpa using declared)

theorem valueBelow_eq {decls : List (FieldDecl n)} {values : List Datum} {position : Nat} {decl : FieldDecl n}
    {value : Datum} (declared : decls[position]? = some decl) (held : values[position]? = some value)
    (index : List Nat) :
    valueBelow catalog decls values position index = value.valueAt catalog decl.type index := by
  induction decls generalizing values position with
  | nil => simp at declared
  | cons first decls ih => cases values with
    | nil => simp at held
    | cons other values => cases position with
      | zero =>
        obtain rfl : first = decl := by simpa using declared
        obtain rfl : other = value := by simpa using held
        rw [valueBelow]
      | succ position =>
        rw [valueBelow]
        exact ih (by simpa using declared) (by simpa using held)

theorem below?_cons {value : Datum} {values : List Datum} (content : value.content? = some (.record values))
    (position : Nat) (index : List Nat) :
    value.below? (position :: index) = values[position]?.bind fun part => part.below? index := by
  rw [below?, content]

theorem below?_of_absent {value : Datum} (missing : value.content? = none) {index : List Nat} (proper : index ≠ []) :
    value.below? index = none := by
  obtain ⟨position, index, rfl⟩ := List.exists_cons_of_ne_nil proper
  rw [below?, missing]

theorem Opens.below?_eq {type : Ty n} {value : Datum} {inner : Fin n} {values : List Datum}
    (opens : Opens catalog type value inner values) {index : List Nat} (proper : index ≠ []) :
    (record values).below? index = value.below? index := by
  obtain ⟨position, index, rfl⟩ := List.exists_cons_of_ne_nil proper
  rw [below?_cons opens.content, below?_cons rfl]

theorem below?_append (value : Datum) (stem index : List Nat) :
    value.below? (stem ++ index) = (value.below? stem).bind fun part => part.below? index := by
  induction stem generalizing value with
  | nil => simp [below?]
  | cons position stem ih =>
    rw [List.cons_append, below?, below?]
    cases shown : value.content? with
    | none => rfl
    | some content => cases content with
      | record values => simp [ih, Option.bind_assoc]
      | _ => rfl

theorem below?_of_absentAbove {value : Datum} {index : List Nat} (absent : value.AbsentAbove index) :
    value.below? index = none := by
  obtain ⟨stem, part, ⟨rest, rfl⟩, proper, found, missing⟩ := absent
  rw [below?_append, found, Option.bind_some]
  exact below?_of_absent missing (by simpa using proper)

theorem AbsentAbove.cons {value part : Datum} {values : List Datum} (content : value.content? = some (.record values))
    {position : Nat} (held : values[position]? = some part) {index : List Nat} (absent : part.AbsentAbove index) :
    value.AbsentAbove (position :: index) := by
  obtain ⟨stem, missingPart, starts, proper, found, missing⟩ := absent
  refine ⟨position :: stem, missingPart, ?_, ?_, ?_, missing⟩
  · exact List.cons_prefix_cons.mpr ⟨rfl, starts⟩
  · simpa using proper
  · rw [below?_cons content, held, Option.bind_some, found]

theorem valueAt_nil : ∀ {type : Ty n} {value : Datum},
    value.valueAt catalog type [] = some (value.encode catalog type)
  | _, .absent => by rw [valueAt, encode]
  | _, .present inner => by rw [valueAt, encode, valueAt_nil]
  | _, .bool _ | _, .signed _ | _, .unsigned _ | _, .float _ | _, .string _ | _, .json _ | _, .dateTime _
  | _, .date _ | _, .list _ | _, .map _ | _, .record _ => by
    rw [valueAt] <;> simp

theorem Opens.exists_part {type : Ty n} {value : Datum} {record : Fin n} {values : List Datum}
    (opens : Opens catalog type value record values) {position : Nat} {decl : FieldDecl n}
    (declared : (catalog record).fields[position]? = some decl) :
    ∃ part, values[position]? = some part ∧ part.fits catalog decl.type = true ∧
      ∀ rest, value.below? (position :: rest) = part.below? rest ∧
        value.valueAt catalog type (position :: rest) = part.valueAt catalog decl.type rest := by
  obtain ⟨part, held, fits⟩ := valuesFit_getElem? opens.valuesFit declared
  refine ⟨part, held, fits, fun rest => ⟨?_, ?_⟩⟩
  · rw [below?_cons opens.content, held, Option.bind_some]
  · rw [opens.below, valueBelow_eq declared held]

theorem Opens.reads {chain : List (Fin n)} {record : Fin n} {index : List Nat} {decl : FieldDecl n}
    (occurs : Occurs catalog chain record index decl) {type : Ty n} {value : Datum} {values : List Datum}
    (opens : Opens catalog type value record values) :
    (∃ part, value.below? index = some part ∧ part.fits catalog decl.type = true ∧
      value.valueAt catalog type index = some (part.encode catalog decl.type)) ∨
    (value.AbsentAbove index ∧ mayBeNull (route catalog record index) = true ∧
      value.valueAt catalog type index = some .null) := by
  induction occurs generalizing type value values with
  | here declared _ =>
    obtain ⟨part, _, fits, alike⟩ := opens.exists_part declared
    obtain ⟨reached, read⟩ := alike []
    exact .inl ⟨part, by rw [reached, below?], fits, by rw [read, valueAt_nil]⟩
  | @deeper _ _ position decl _ rest _ declared _ leads _ occurs ih =>
    obtain ⟨part, held, fits, alike⟩ := opens.exists_part declared
    obtain ⟨reached, read⟩ := alike rest
    rw [read, reached, route_cons declared leads, mayBeNull, List.any_cons, Bool.or_eq_true]
    rcases opens_of_fits leads fits with missing | ⟨_, opensPart⟩
    · -- The option at the position itself is absent, and what is below it reads as NULL.
      have absent : value.AbsentAbove (position :: rest) := by
        refine ⟨[position], part, ⟨rest, rfl⟩, by simpa using occurs.ne_nil.symm, ?_, missing⟩
        rw [(alike []).1, below?]
      have nullable : decl.type.kind.isNullable = true := by
        rw [kind_of_absent fits missing]
        rfl
      exact .inr ⟨absent, .inl nullable, valueAt_of_absent missing⟩
    · rcases ih opensPart with found | ⟨absent, nullable, read⟩
      · exact .inl found
      · exact .inr ⟨absent.cons opens.content held, .inr nullable, read⟩

theorem document_encode {type : Ty n} {inner : Fin n} {value : Datum} (leads : type.base.record? = some inner)
    (fits : value.fits catalog type = true) : (value.encode catalog type).document = value.toJson catalog type := by
  rcases opens_of_fits leads fits with missing | ⟨_, opens⟩
  · rw [encode_eq_null_iff.mpr missing, toJson_of_absent missing]
    rfl
  · rw [opens.encoded]
    rfl

theorem exists_opens {record : Fin n} {value : Datum} (fits : value.fits catalog (.record record) = true) :
    ∃ values, Opens catalog (.record record) value record values := by
  rcases opens_of_fits rfl fits with missing | opens
  · cases kind_of_absent fits missing
  · exact opens

end Datum

namespace Codec

variable {catalog : Catalog n} {naming : String → String} {record : Fin n} {field : Field n} {value : Datum}

theorem reads_of_mem (member : field ∈ (build catalog naming record).fields)
    (fits : value.fits catalog (.record record) = true) :
    (∃ part, value.below? field.index = some part ∧ part.fits catalog field.type = true ∧
      value.valueAt catalog (.record record) field.index = some (part.encode catalog field.type)) ∨
    (value.AbsentAbove field.index ∧ field.nullable = true ∧
      value.valueAt catalog (.record record) field.index = some .null) := by
  obtain ⟨decl, occurs, _, type, _⟩ := exists_decl_of_mem member
  obtain ⟨values, opens⟩ := Datum.exists_opens fits
  rw [type, (routed_build member).nullable]
  exact opens.reads occurs

end Codec

end SqlComposer
