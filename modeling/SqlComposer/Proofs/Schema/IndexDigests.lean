import Mathlib.Data.UInt
import Mathlib.Logic.ExistsUnique
import SqlComposer.Proofs.Schema.IndexNames
/-!
One byte changes the name of an index.

A step of the digest loses nothing: the byte can be told from the digest behind it, and so can the digest before it,
since the factor has an inverse. So where two inputs part in one byte their digests part, and equal bytes behind it
never bring them together again: `digest_inj_at`.
-/

namespace SqlComposer.Schema

open Sql

theorem mul_digestFactor_inj {a b : UInt64} : a * digestFactor = b * digestFactor ↔ a = b := by
  have unit : IsUnit digestFactor := .of_mul_eq_one 0xce965057aff6957b rfl
  exact unit.mul_left_inj

theorem digestStep_inj_left (byte : UInt8) {a b : UInt64} : digestStep a byte = digestStep b byte ↔ a = b := by
  rw [digestStep, digestStep, mul_digestFactor_inj, UInt64.xor_left_inj]

theorem digestStep_inj_right (digest : UInt64) {a b : UInt8} : digestStep digest a = digestStep digest b ↔ a = b := by
  rw [digestStep, digestStep, mul_digestFactor_inj, UInt64.xor_right_inj, UInt8.toUInt64_inj]

theorem foldl_digestStep_inj (bytes : List UInt8) {a b : UInt64} :
    bytes.foldl digestStep a = bytes.foldl digestStep b ↔ a = b := by
  induction bytes generalizing a b with
  | nil => rfl
  | cons byte bytes ih => rw [List.foldl_cons, List.foldl_cons, ih, digestStep_inj_left]

theorem digest_append_inj (back : List UInt8) {front other : List UInt8} :
    digest (front ++ back) = digest (other ++ back) ↔ digest front = digest other := by
  rw [digest, digest, List.foldl_append, List.foldl_append, foldl_digestStep_inj, digest, digest]

theorem digest_inj_at (front back : List UInt8) {a b : UInt8} :
    digest (front ++ a :: back) = digest (front ++ b :: back) ↔ a = b := by
  rw [List.append_cons front a, List.append_cons front b, digest_append_inj, digest_concat, digest_concat,
    digestStep_inj_right]

def DifferOnce (bytes others : List UInt8) : Prop :=
  bytes.length = others.length ∧ ∃! position : Nat, bytes[position]? ≠ others[position]?

theorem differOnce_iff {bytes others : List UInt8} :
    DifferOnce bytes others ↔ ∃ front a b back, bytes = front ++ a :: back ∧ others = front ++ b :: back ∧ a ≠ b := by
  constructor
  · rintro ⟨length, position, differ, only⟩
    have inside : position < bytes.length := by
      by_contra outside
      exact differ (by rw [List.getElem?_eq_none (by omega), List.getElem?_eq_none (by omega)])
    have insideToo : position < others.length := length ▸ inside
    have written (c : UInt8) : bytes.set position c = bytes.take position ++ c :: bytes.drop (position + 1) := by
      rw [List.set_eq_take_append_cons_drop, if_pos inside]
    -- The others are the bytes with a single one of them overwritten.
    refine ⟨bytes.take position, bytes[position], others[position], bytes.drop (position + 1), ?_, ?_, ?_⟩
    · rw [← written, List.set_getElem_self]
    · rw [← written]
      apply List.ext_getElem?
      intro other
      rw [List.getElem?_set]
      split
      · next here => rw [← here, List.getElem?_eq_getElem insideToo]
      · next elsewhere =>
        by_contra more
        exact elsewhere (only other (Ne.symm more)).symm
    · simpa [inside, insideToo] using differ
  · rintro ⟨front, a, b, back, rfl, rfl, differ⟩
    refine ⟨by simp, front.length, by simpa using differ, ?_⟩
    intro position
    contrapose!
    intro elsewhere
    rw [List.getElem?_append, List.getElem?_append]
    split
    · rfl
    · rw [List.getElem?_cons, List.getElem?_cons, if_neg (by omega), if_neg (by omega)]

theorem DifferOnce.within {bytes others : List UInt8} (differ : DifferOnce bytes others) (front back : List UInt8) :
    DifferOnce (front ++ bytes ++ back) (front ++ others ++ back) := by
  obtain ⟨first, a, b, last, rfl, rfl, unlike⟩ := differOnce_iff.mp differ
  exact differOnce_iff.mpr ⟨front ++ first, a, b, last ++ back, by simp, by simp, unlike⟩

theorem DifferOnce.digest_ne {bytes others : List UInt8} (differ : DifferOnce bytes others) :
    digest bytes ≠ digest others := by
  obtain ⟨front, a, b, back, rfl, rfl, unlike⟩ := differOnce_iff.mp differ
  rwa [Ne, digest_inj_at]

theorem exists_around_name (kind : IndexKind) (before : List IndexColumn) (order : Order) (after : List IndexColumn) :
    ∃ front back, ∀ (index : Index) (name : String), index.kind = kind →
      index.columns = before ++ ⟨name, order⟩ :: after → index.digestInput = front ++ bytesOf name ++ back := by
  refine ⟨bytesOf kind.text ++ before.flatMap IndexColumn.digestInput ++ bytesOf "|",
    bytesOf (.ofList (mark order)) ++ after.flatMap IndexColumn.digestInput, ?_⟩
  rintro index name rfl columns
  have column : IndexColumn.digestInput ⟨name, order⟩ =
      bytesOf "|" ++ bytesOf name ++ bytesOf (.ofList (mark order)) := by
    cases order <;> rfl
  simp only [Index.digestInput, columns, List.flatMap_append, List.flatMap_cons, column, List.append_assoc]

theorem digestName_ne {index other : Index} (differ : DifferOnce index.digestInput other.digestInput) :
    index.digestName ≠ other.digestName := by
  rw [Index.digestName, Index.digestName, Ne, digestText_inj]
  exact differ.digest_ne

theorem one_byte_changes_index_names :
    (∀ index other : Index, DifferOnce index.digestInput other.digestInput → index.digestName ≠ other.digestName) ∧
    (∀ (index other : Index) (before after : List IndexColumn) (name renamed : String) (order : Order),
      index.kind = other.kind → index.columns = before ++ ⟨name, order⟩ :: after →
      other.columns = before ++ ⟨renamed, order⟩ :: after → DifferOnce (bytesOf name) (bytesOf renamed) →
        index.digestName ≠ other.digestName) ∧
    ∀ index : Index, index.digestName.length = 16 ∧
      ∀ c ∈ index.digestName.toList, c ∈ "0123456789abcdef".toList := by
  refine ⟨fun _ _ => digestName_ne, ?_, ?_⟩
  · intro index other before after name renamed order kinds columns columnsToo differ
    obtain ⟨front, back, around⟩ := exists_around_name other.kind before order after
    apply digestName_ne
    rw [around index name kinds columns, around other renamed rfl columnsToo]
    exact differ.within front back
  · intro index
    exact ⟨length_digestText _, fun _ => mem_digestText⟩

def mailIndex (name : String) : Index := { kind := .unique, columns := [⟨name, .ascending⟩, ⟨"id", .descending⟩] }

def pairIndex : Index := { columns := [⟨"a", .ascending⟩, ⟨"b", .ascending⟩] }

def singleIndex : Index := { columns := [⟨"a@ASC-b", .ascending⟩] }

theorem dashes_change_index_names :
    DifferOnce (bytesOf "e-mail") (bytesOf "e_mail") ∧
    (mailIndex "e-mail").digestName = "6531fbb34058e33c" ∧ (mailIndex "e_mail").digestName = "118f266e5c9e8392" ∧
    (mailIndex "e-mail").digestName ≠ (mailIndex "e_mail").digestName ∧
    DifferOnce pairIndex.digestInput singleIndex.digestInput ∧ pairIndex.digestName ≠ singleIndex.digestName := by
  have names : DifferOnce (bytesOf "e-mail") (bytesOf "e_mail") :=
    differOnce_iff.mpr ⟨bytesOf "e", 45, 95, bytesOf "mail", by decide, by decide, by decide⟩
  have inputs : DifferOnce pairIndex.digestInput singleIndex.digestInput :=
    differOnce_iff.mpr ⟨bytesOf "BTREE|a@ASC", 124, 45, bytesOf "b@ASC", by decide, by decide, by decide⟩
  refine ⟨names, by decide, by decide, ?_, inputs, one_byte_changes_index_names.1 _ _ inputs⟩
  exact one_byte_changes_index_names.2.1 (mailIndex "e-mail") (mailIndex "e_mail") [] [⟨"id", .descending⟩] "e-mail"
    "e_mail" .ascending rfl rfl rfl names

end SqlComposer.Schema
