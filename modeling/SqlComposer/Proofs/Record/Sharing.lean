import Mathlib.Data.List.Nodup
import Mathlib.Order.Fin.Basic
import SqlComposer.Record.Mapper

namespace SqlComposer

variable {n : Nat} {catalog : Catalog n} {naming : String → String} {mapper : Mapper n}

namespace Mapper

def codecsOf (catalog : Catalog n) (mapper : Mapper n) : List (Ty n) → List (Except Misuse (Codec n)) × Mapper n
  | [] => ([], mapper)
  | type :: types =>
    let (result, next) := codecOf catalog mapper type
    let (results, last) := codecsOf catalog next types
    (result :: results, last)

def after (catalog : Catalog n) (naming : String → String) (types : List (Ty n)) : Mapper n :=
  (codecsOf catalog { naming } types).2

def called (types : List (Ty n)) : List (Fin n) := (types.filterMap fun type => type.base.record?).eraseDups

def entry (catalog : Catalog n) (naming : String → String) (record : Fin n) : Fin n × Codec n :=
  (record, Codec.build catalog naming record)

theorem rootOf_base (type : Ty n) : rootOf catalog type.base = rootOf catalog type := by
  rw [rootOf, Ty.base_base, rootOf]

theorem snd_codecOf_of_error {type : Ty n} {misuse : Misuse}
    (refused : (codecOf catalog mapper type).1 = .error misuse) : (codecOf catalog mapper type).2 = mapper := by
  unfold codecOf at refused ⊢
  cases root : rootOf catalog type with
  | error => rfl
  | ok record => cases found : mapper.cache.lookup record <;> simp [root, found] at refused

theorem lookup_map_entry (records : List (Fin n)) (record : Fin n) :
    (records.map (entry catalog naming)).lookup record =
      if record ∈ records then some (Codec.build catalog naming record) else none := by
  induction records with
  | nil => rfl
  | cons first records ih =>
    rw [List.map_cons, entry, List.lookup_cons, ih]
    by_cases same : record = first
    · simp [same]
    · simp [same, beq_false_of_ne same]

theorem exists_called_append (types later : List (Ty n)) : ∃ more, called (types ++ later) = called types ++ more := by
  unfold called
  rw [List.filterMap_append, List.eraseDups_append]
  exact ⟨_, rfl⟩

theorem mem_called_iff {types : List (Ty n)} {record : Fin n} :
    record ∈ called types ↔ ∃ type ∈ types, type.base.record? = some record := by
  rw [called, List.mem_eraseDups, List.mem_filterMap]

theorem called_concat (types : List (Ty n)) (type : Ty n) :
    called (types ++ [type]) = match type.base.record? with
      | none => called types
      | some record => if record ∈ called types then called types else called types ++ [record] := by
  unfold called
  rw [List.filterMap_append, List.eraseDups_append]
  cases root : type.base.record? with
  | none => simp [root, List.removeAll]
  | some record =>
    have last : [type].filterMap (fun type => type.base.record?) = [record] := by simp [root]
    rw [last, List.removeAll, List.filter_singleton]
    by_cases known : record ∈ types.filterMap fun type => type.base.record?
    · simp [known, List.mem_eraseDups]
    · simp [known, List.mem_eraseDups, List.eraseDups_cons]

theorem nodup_eraseDups (records : List (Fin n)) : records.eraseDups.Nodup := by
  cases records with
  | nil => exact List.nodup_nil
  | cons record records =>
    rw [List.eraseDups_cons, List.nodup_cons]
    constructor
    · simp [List.mem_eraseDups]
    · exact nodup_eraseDups _
termination_by records.length
decreasing_by exact Nat.lt_succ_of_le (List.length_filter_le _ _)

structure Holds (catalog : Catalog n) (naming : String → String) (mapper : Mapper n) (records : List (Fin n)) :
    Prop where
  named : mapper.naming = naming
  cache : mapper.cache.reverse = records.map (entry catalog naming)

theorem Holds.lookup {records : List (Fin n)} (holds : mapper.Holds catalog naming records) (record : Fin n) :
    mapper.cache.lookup record =
      if record ∈ records then some (Codec.build catalog naming record) else none := by
  have newestFirst : mapper.cache = records.reverse.map (entry catalog naming) := by
    rw [List.map_reverse, ← holds.cache, List.reverse_reverse]
  rw [newestFirst, lookup_map_entry]
  simp only [List.mem_reverse]

theorem Holds.codecOf {types : List (Ty n)} (holds : mapper.Holds catalog naming (called types)) (type : Ty n) :
    (Mapper.codecOf catalog mapper type).1 = (Mapper.codecOf catalog { naming } type.base).1 ∧
      (Mapper.codecOf catalog mapper type).2.Holds catalog naming (called (types ++ [type])) := by
  rw [Mapper.codecOf, Mapper.codecOf, rootOf_base, called_concat, rootOf]
  cases type.base.record? with
  | none => exact ⟨rfl, holds⟩
  | some record =>
    dsimp only
    rw [holds.lookup]
    by_cases known : record ∈ called types
    · rw [if_pos known, if_pos known]
      exact ⟨rfl, holds⟩
    · rw [if_neg known, if_neg known, holds.named]
      have added : ((record, Codec.build catalog naming record) :: mapper.cache).reverse =
          (called types ++ [record]).map (entry catalog naming) := by
        rw [List.reverse_cons, holds.cache, List.map_append]
        rfl
      exact ⟨rfl, rfl, added⟩

theorem Holds.codecsOf {done : List (Ty n)} (holds : mapper.Holds catalog naming (called done)) (types : List (Ty n)) :
    (Mapper.codecsOf catalog mapper types).1 = types.map (fun type => (Mapper.codecOf catalog { naming } type.base).1) ∧
      (Mapper.codecsOf catalog mapper types).2.Holds catalog naming (called (done ++ types)) := by
  induction types generalizing mapper done with
  | nil => exact ⟨rfl, by rwa [List.append_nil]⟩
  | cons type types ih =>
    obtain ⟨result, next⟩ := holds.codecOf type
    obtain ⟨results, last⟩ := ih next
    rw [List.append_assoc, List.singleton_append] at last
    exact ⟨by rw [Mapper.codecsOf, List.map_cons, ← result, ← results], last⟩

theorem holds_after (types : List (Ty n)) : (after catalog naming types).Holds catalog naming (called types) := by
  have fresh : Holds catalog naming { naming } (called []) := ⟨rfl, rfl⟩
  exact (fresh.codecsOf types).2

theorem exists_place (catalog : Catalog n) (naming : String → String) (types : List (Ty n)) (record : Fin n) :
    ∃ place : Nat, ∀ before type later rest, types = before ++ type :: later ++ rest → type.base.record? = some record →
      ∃ codec, (codecOf catalog (after catalog naming before) type).1 = .ok codec ∧
        (after catalog naming (before ++ type :: later)).cache.reverse[place]? = some (record, codec) := by
  refine ⟨(called types).idxOf record, ?_⟩
  rintro before type later rest rfl root
  refine ⟨Codec.build catalog naming record, ?_, ?_⟩
  · rw [((holds_after before).codecOf type).1, codecOf, rootOf, Ty.base_base, root]
    rfl
  · obtain ⟨more, shown⟩ := exists_called_append (before ++ type :: later) rest
    have member : record ∈ called (before ++ type :: later) := mem_called_iff.mpr ⟨type, by simp, root⟩
    rw [(holds_after _).cache, shown, List.idxOf_append_of_mem member, List.getElem?_map, List.getElem?_idxOf member]
    rfl

end Mapper

structure SharesCodecs (catalog : Catalog n) (naming : String → String) : Prop where
  results : ∀ types, (Mapper.codecsOf catalog { naming } types).1 =
    types.map fun type => (Mapper.codecOf catalog { naming } type.base).1
  refused : ∀ (mapper : Mapper n) type misuse, (mapper.codecOf catalog type).1 = .error misuse →
    (mapper.codecOf catalog type).2 = mapper
  kept : ∀ types later,
    (Mapper.after catalog naming types).cache <:+ (Mapper.after catalog naming (types ++ later)).cache
  distinct : ∀ types, ((Mapper.after catalog naming types).cache.map Prod.fst).Nodup
  shared : ∀ types record, ∃ place : Nat, ∀ before type later rest, types = before ++ type :: later ++ rest →
    type.base.record? = some record →
      ∃ codec, (Mapper.codecOf catalog (.after catalog naming before) type).1 = .ok codec ∧
        (Mapper.after catalog naming (before ++ type :: later)).cache.reverse[place]? = some (record, codec)

theorem codecs_are_shared (catalog : Catalog n) (naming : String → String) : SharesCodecs catalog naming where
  results types := by
    have fresh : Mapper.Holds catalog naming { naming } (Mapper.called []) := ⟨rfl, rfl⟩
    exact (fresh.codecsOf types).1
  refused mapper type misuse := Mapper.snd_codecOf_of_error
  kept types later := by
    obtain ⟨more, shown⟩ := Mapper.exists_called_append types later
    rw [← List.reverse_prefix, (Mapper.holds_after _).cache, (Mapper.holds_after _).cache, shown, List.map_append]
    exact List.prefix_append _ _
  distinct types := by
    have keys : ((Mapper.called types).map (Mapper.entry catalog naming)).map Prod.fst = Mapper.called types := by
      rw [List.map_map]
      exact List.map_id _
    rw [← List.nodup_reverse, ← List.map_reverse, (Mapper.holds_after types).cache, keys]
    exact Mapper.nodup_eraseDups _
  shared := Mapper.exists_place catalog naming

end SqlComposer
