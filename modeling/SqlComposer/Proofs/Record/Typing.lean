import SqlComposer.Proofs.Record.Positions

namespace SqlComposer

variable {n : Nat} {catalog : Catalog n}

def Width.count : Width → Nat
  | .w8 => 256
  | .w16 => 65536
  | .w32 => 4294967296
  | .w64 | .word => 18446744073709551616

namespace Datum

/-- The value is one of the type. Beyond `fits`, numbers lie in the range of their width. -/
inductive HasType (catalog : Catalog n) : Ty n → Datum → Prop
  | bool (b : Bool) : HasType catalog (.scalar .bool) (.bool b)
  | signed {width : Width} {i : Int64} (least : -(width.count / 2 : Nat) ≤ i.toInt)
      (most : i.toInt < (width.count / 2 : Nat)) : HasType catalog (.scalar (.signed width)) (.signed i)
  | unsigned {width : Width} {u : UInt64} (most : u.toNat < width.count) :
      HasType catalog (.scalar (.unsigned width)) (.unsigned u)
  | float32 (x : Binary64) : HasType catalog (.scalar .float32) (.float x)
  | float64 (x : Binary64) : HasType catalog (.scalar .float64) (.float x)
  | string (text : String) : HasType catalog (.scalar .string) (.string text)
  | json (document : Json) : HasType catalog .json (.json document)
  | dateTime (time : DateTime) : HasType catalog .dateTime (.dateTime time)
  | plainDateTime (time : DateTime) : HasType catalog .plainDateTime (.dateTime time)
  | date (day : Date) : HasType catalog .date (.date day)
  | absent (item : Ty n) : HasType catalog (.option item) .absent
  | present {item : Ty n} {inner : Datum} : HasType catalog item inner →
      HasType catalog (.option item) (.present inner)
  | boxed {inner : Ty n} {value : Datum} : HasType catalog inner value → HasType catalog (.boxed inner) value
  | list {item : Ty n} {items : List Datum} : (∀ value ∈ items, HasType catalog item value) →
      HasType catalog (.list item) (.list items)
  | array {item : Ty n} {size : Nat} {items : List Datum} : items.length = size →
      (∀ value ∈ items, HasType catalog item value) → HasType catalog (.array item size) (.list items)
  | map {item : Ty n} {entries : List (String × Datum)} : (∀ entry ∈ entries, HasType catalog item entry.2) →
      HasType catalog (.map (.scalar .string) item) (.map entries)
  | record {id : Fin n} {values : List Datum} : values.length = (catalog id).fields.length →
      (∀ (position : Nat) decl value, (catalog id).fields[position]? = some decl → values[position]? = some value →
        HasType catalog decl.type value) → HasType catalog (.record id) (.record values)

theorem itemsFit_of_forall {item : Ty n} {items : List Datum}
    (fit : ∀ value ∈ items, value.fits catalog item = true) : itemsFit catalog item items = true := by
  induction items with
  | nil => rfl
  | cons value items ih =>
    obtain ⟨first, rest⟩ := List.forall_mem_cons.mp fit
    rw [itemsFit, first, ih rest, Bool.and_self]

theorem entriesFit_of_forall {item : Ty n} {entries : List (String × Datum)}
    (fit : ∀ entry ∈ entries, entry.2.fits catalog item = true) : entriesFit catalog item entries = true := by
  induction entries with
  | nil => rfl
  | cons entry entries ih =>
    obtain ⟨first, rest⟩ := List.forall_mem_cons.mp fit
    rw [entriesFit, entryFits, first, ih rest, Bool.and_self]

theorem valuesFit_of_forall {decls : List (FieldDecl n)} {values : List Datum}
    (count : values.length = decls.length)
    (fit : ∀ (position : Nat) decl value, decls[position]? = some decl → values[position]? = some value →
      value.fits catalog decl.type = true) : valuesFit catalog decls values = true := by
  induction decls generalizing values with
  | nil =>
    obtain rfl := List.length_eq_zero_iff.mp count
    rfl
  | cons decl decls ih =>
    obtain ⟨value, values, rfl⟩ := List.exists_cons_of_length_eq_add_one count
    have first := fit 0 decl value rfl rfl
    have rest := ih (by simpa using count) fun position other held => fit (position + 1) other held
    rw [valuesFit, first, rest, Bool.and_self]

theorem HasType.fits {type : Ty n} {value : Datum} (typed : HasType catalog type value) :
    value.fits catalog type = true := by
  induction typed with
  | boxed _ ih => rw [← fits_unboxed, Ty.unboxed, fits_unboxed, ih]
  | present _ ih => simpa [Datum.fits, Ty.unboxed] using ih
  | list _ ih => simpa [Datum.fits, Ty.unboxed] using itemsFit_of_forall ih
  | array count _ ih => simpa [Datum.fits, Ty.unboxed, count] using itemsFit_of_forall ih
  | map _ ih => simpa [Datum.fits, Ty.unboxed] using entriesFit_of_forall ih
  | record count _ ih => simpa [Datum.fits, Ty.unboxed] using valuesFit_of_forall count ih
  | json | dateTime | plainDateTime | date =>
    simp [Datum.fits, Ty.unboxed, Ty.json, Ty.dateTime, Ty.plainDateTime, Ty.date]
  | _ => simp [Datum.fits, Ty.unboxed]

theorem HasType.content {type : Ty n} {value content : Datum} (typed : HasType catalog type value)
    (shown : value.content? = some content) : HasType catalog type.base content := by
  induction typed with
  | absent => cases shown
  | present _ ih => exact ih shown
  | boxed _ ih => exact ih shown
  | _ =>
    obtain rfl := Option.some.inj shown
    constructor <;> assumption

theorem HasType.exists_octet {item : Ty n} {value : Datum} (typed : HasType catalog item value)
    (bytes : item.kind = .uint8) : ∃ octet : UInt8, value = .unsigned octet.toUInt64 := by
  induction typed with
  | @unsigned width u most =>
    have narrow : width = .w8 := by cases width <;> first | rfl | cases bytes
    have small : u.toNat < 256 := by simpa [narrow, Width.count] using most
    refine ⟨u.toUInt8, congrArg Datum.unsigned (UInt64.toNat_inj.mp ?_)⟩
    simpa using (Nat.mod_eq_of_lt small).symm
  | boxed _ ih => exact ih bytes
  | @signed width => cases width <;> cases bytes
  | json | dateTime | plainDateTime | date => exact Kind.noConfusion bytes
  | _ => cases bytes

theorem encode_list (item : Ty n) (items : List Datum) :
    (list items).encode catalog (.list item) =
      if item.kind == .uint8 then .bytes (items.filterMap octet?)
      else .json ((list items).toJson catalog (.list item)) := by
  rw [encode]
  rfl

theorem filterMap_octet? (octets : List UInt8) :
    (octets.map fun octet => Datum.unsigned octet.toUInt64).filterMap octet? = octets := by
  rw [List.filterMap_map]
  have kept : octet? ∘ (fun octet : UInt8 => unsigned octet.toUInt64) = some := by
    funext octet
    have small := octet.toNat_lt
    simp [octet?, small]
  rw [kept, List.filterMap_some]

theorem exists_octets {item : Ty n} {items : List Datum} (typed : ∀ value ∈ items, HasType catalog item value)
    (bytes : item.kind = .uint8) :
    ∃ octets : List UInt8, items = octets.map fun octet => .unsigned octet.toUInt64 := by
  induction items with
  | nil => exact ⟨[], rfl⟩
  | cons value items ih =>
    obtain ⟨first, rest⟩ := List.forall_mem_cons.mp typed
    obtain ⟨octet, rfl⟩ := first.exists_octet bytes
    obtain ⟨octets, rfl⟩ := ih rest
    exact ⟨octet :: octets, rfl⟩

end Datum

end SqlComposer
