import Mathlib.Data.List.DropRight
import SqlComposer.Record.Tag

namespace SqlComposer

namespace Text

def Pads (text core : List Char) : Prop :=
  ∃ before after, (∀ c ∈ before, isBlank c = true) ∧ (∀ c ∈ after, isBlank c = true) ∧
    text = before ++ core ++ after

theorem Pads.trimmed_eq {text core : List Char} (pads : Pads text core) : trimmed text = trimmed core := by
  obtain ⟨before, after, blankBefore, blankAfter, rfl⟩ := pads
  rw [trimmed, List.append_assoc, List.dropWhile_append_of_pos blankBefore, List.dropWhile_append]
  split
  · next nothing =>
    have blankToo : after.dropWhile isBlank = [] := List.dropWhile_eq_nil_iff.mpr blankAfter
    rw [trimmed, List.isEmpty_iff.mp nothing, blankToo]
  · rw [List.reverse_append, List.dropWhile_append_of_pos (by simpa using blankAfter), trimmed]

theorem pads_dropWhile (cs : List Char) : Pads cs (cs.dropWhile isBlank) :=
  ⟨cs.takeWhile isBlank, [], fun _ => List.mem_takeWhile_imp, by simp, by simp⟩

theorem pads_rdropWhile (cs : List Char) : Pads cs (cs.rdropWhile isBlank) :=
  ⟨[], cs.rtakeWhile isBlank, by simp, fun _ => List.mem_rtakeWhile_imp, by simp⟩

theorem not_mem_of_pads {sep : Char} (visible : isBlank sep = false) {text core : List Char} (pads : Pads text core)
    (plain : sep ∉ core) : sep ∉ text := by
  obtain ⟨before, after, blankBefore, blankAfter, rfl⟩ := pads
  simp only [List.mem_append, not_or]
  refine ⟨⟨fun member => ?_, plain⟩, fun member => ?_⟩
  · simp [blankBefore sep member] at visible
  · simp [blankAfter sep member] at visible

theorem dropWhile_around {c : Char} (visible : isBlank c = false) (front back : List Char) :
    (front ++ c :: back).dropWhile isBlank = front.dropWhile isBlank ++ c :: back := by
  rw [List.dropWhile_append]
  split
  · next nothing => rw [List.isEmpty_iff.mp nothing, List.dropWhile_cons_of_neg (by simp [visible]), List.nil_append]
  · rfl

theorem trimmed_around {c : Char} (visible : isBlank c = false) (front back : List Char) :
    trimmed (front ++ c :: back) = front.dropWhile isBlank ++ c :: back.rdropWhile isBlank := by
  have mirrored : (front.dropWhile isBlank ++ c :: back).reverse =
      back.reverse ++ c :: (front.dropWhile isBlank).reverse := by simp
  rw [trimmed, dropWhile_around visible, mirrored, dropWhile_around visible, List.rdropWhile]
  simp

theorem trimmed_sublist (cs : List Char) : (trimmed cs).Sublist cs :=
  (List.rdropWhile_prefix isBlank _).sublist.trans (List.dropWhile_sublist isBlank)

end Text

namespace Tag

open Text

structure Setting where
  key : String
  value : Option String

namespace Setting

def keyword (setting : Setting) : String := lower (trim setting.key)

def content (setting : Setting) : String := trim (setting.value.getD "")

def entry (setting : Setting) : String × String := (setting.keyword, setting.content)

structure IsPlain (setting : Setting) : Prop where
  filled : trim setting.key ≠ ""
  key : ',' ∉ setting.key.toList ∧ '=' ∉ setting.key.toList
  value : ∀ value ∈ setting.value, ',' ∉ value.toList

inductive Writes : Setting → List Char → Prop
  | flag {key text} : Pads text key.toList → Writes ⟨key, none⟩ text
  | pair {key value front back} : Pads front key.toList → Pads back value.toList →
      Writes ⟨key, some value⟩ (front ++ '=' :: back)

end Setting

/-- What is written behind the name: the options in order, and blank segments anywhere among them. -/
inductive Writes : List Setting → List Char → Prop
  | done : Writes [] []
  | blank {settings blanks text} : (∀ c ∈ blanks, isBlank c = true) → Writes settings text →
      Writes settings (',' :: blanks ++ text)
  | setting {setting settings segment text} : setting.Writes segment → Writes settings text →
      Writes (setting :: settings) (',' :: segment ++ text)

section

variable {setting : Setting} {segment : List Char}

theorem Setting.Writes.no_comma (writes : setting.Writes segment) (plain : setting.IsPlain) : ',' ∉ segment := by
  cases writes with
  | flag pads => exact not_mem_of_pads (by decide) pads plain.key.1
  | @pair _ value _ _ padsKey padsValue =>
    have plainFront := not_mem_of_pads (by decide) padsKey plain.key.1
    have plainBack := not_mem_of_pads (by decide) padsValue (plain.value value rfl)
    simp [plainFront, plainBack]

theorem Setting.Writes.read (writes : setting.Writes segment) (plain : setting.IsPlain) :
    option? segment = some setting.entry := by
  cases writes with
  | @flag key _ pads =>
    have filled : trimmed key.toList ≠ [] := fun nothing => plain.filled (by rw [trim, nothing])
    have unsplit : halves? '=' (trimmed key.toList) = none :=
      halves?_eq_none fun member => plain.key.2 ((trimmed_sublist _).subset member)
    rw [option?, pads.trimmed_eq, unsplit]
    simp [filled, Setting.entry, Setting.keyword, Setting.content, trim]
  | @pair key value front back padsKey padsValue =>
    have readKey : trimmed (front.dropWhile isBlank) = trimmed key.toList :=
      (pads_dropWhile front).trimmed_eq.symm.trans padsKey.trimmed_eq
    have readValue : trimmed (back.rdropWhile isBlank) = trimmed value.toList :=
      (pads_rdropWhile back).trimmed_eq.symm.trans padsValue.trimmed_eq
    have plainFront : '=' ∉ front.dropWhile isBlank := fun member =>
      not_mem_of_pads (by decide) padsKey plain.key.2 ((List.dropWhile_sublist isBlank).subset member)
    rw [option?, trimmed_around (by decide), halves?_append plainFront]
    simp [Setting.entry, Setting.keyword, Setting.content, trim, readKey, readValue]

end

theorem option?_blank {blanks : List Char} (blank : ∀ c ∈ blanks, isBlank c = true) : option? blanks = none := by
  have pads : Pads blanks [] := ⟨blanks, [], blank, by simp, by simp⟩
  rw [option?, pads.trimmed_eq]
  rfl

theorem exists_segments {front rest : List Char} {settings : List Setting} (plainFront : ',' ∉ front)
    (plain : ∀ setting ∈ settings, setting.IsPlain) (writes : Writes settings rest) :
    ∃ segments, parts ',' (front ++ rest) = front :: segments ∧
      segments.filterMap option? = settings.map Setting.entry := by
  -- The text in front of the comma is the name first, and then each of the segments.
  induction writes generalizing front with
  | done => exact ⟨[], by rw [List.append_nil, parts_eq_singleton plainFront], rfl⟩
  | @blank _ blanks text blank _ ih =>
    have plainBlanks : ',' ∉ blanks := fun member => absurd (blank ',' member) (by decide)
    obtain ⟨segments, cut, read⟩ := ih plainBlanks plain
    refine ⟨blanks :: segments, ?_, ?_⟩
    · rw [List.cons_append, parts_append plainFront, cut]
    · rw [List.filterMap_cons, option?_blank blank, read]
  | @setting setting settings segment text writesSetting _ ih =>
    have plainSetting := plain setting List.mem_cons_self
    obtain ⟨segments, cut, read⟩ := ih (writesSetting.no_comma plainSetting)
      fun other member => plain other (List.mem_cons_of_mem _ member)
    refine ⟨segment :: segments, ?_, ?_⟩
    · rw [List.cons_append, parts_append plainFront, cut]
    · rw [List.filterMap_cons, writesSetting.read plainSetting, read, List.map_cons]

/-- The tag has the name. A key of the options finds what the last of them with that key holds, and no other key finds
anything. -/
structure ReadsSettings (tag : Tag) (name : String) (settings : List Setting) : Prop where
  name : tag.name = trim name
  last : ∀ before setting after, settings = before ++ setting :: after →
    (∀ later ∈ after, later.keyword ≠ setting.keyword) → tag.lookUp? setting.keyword = some setting.content
  known : ∀ key, tag.has key = true ↔ ∃ setting ∈ settings, setting.keyword = key
  unknown : ∀ key, (∀ setting ∈ settings, setting.keyword ≠ key) → tag.lookUp? key = none

theorem settings_are_read_back {name : String} {settings : List Setting} {rest : List Char}
    (plainName : ',' ∉ name.toList) (plain : ∀ setting ∈ settings, setting.IsPlain)
    (writes : Writes settings rest) : (parse (name ++ .ofList rest)).ReadsSettings name settings := by
  obtain ⟨segments, cut, read⟩ := exists_segments plainName plain writes
  have parsed : parse (name ++ .ofList rest) = ⟨trim name, (settings.map Setting.entry).reverse⟩ := by
    rw [parse, String.toList_append, String.toList_ofList, cut, ofSegments, read]
    rfl
  rw [parsed]
  constructor
  · rfl
  · rintro before setting after rfl others
    refine List.lookup_eq_some_iff.mpr ⟨(after.map Setting.entry).reverse, (before.map Setting.entry).reverse, ?_, ?_⟩
    · simp [Setting.entry]
    · simpa [Setting.entry, eq_comm (a := setting.keyword)] using others
  · intro key
    rw [has, lookUp?, List.lookup_isSome_iff]
    simp [Setting.entry, eq_comm (a := key)]
  · intro key others
    rw [lookUp?, List.lookup_eq_none_iff]
    simpa [Setting.entry, eq_comm (a := key)] using others

def columnSettings : List Setting :=
  [⟨"size", some "60"⟩, ⟨"auto_increment", none⟩, ⟨"Charset", some "latin1"⟩, ⟨"SIZE", some "a=b"⟩]

def columnText : List Char := ", size=60 ,auto_increment, , Charset= latin1,SIZE=a=b ".toList

theorem writes_columnSettings : Writes columnSettings columnText := by
  have unpadded (core : List Char) : Pads core core := ⟨[], [], by simp, by simp, by simp⟩
  have led (core : List Char) : Pads (' ' :: core) core := ⟨[' '], [], by simp [isBlank], by simp, by simp⟩
  have followed (core : List Char) : Pads (core ++ [' ']) core := ⟨[], [' '], by simp, by simp [isBlank], by simp⟩
  have size : Setting.Writes ⟨"size", some "60"⟩ (" size".toList ++ '=' :: "60 ".toList) :=
    .pair (led "size".toList) (followed "60".toList)
  have increment : Setting.Writes ⟨"auto_increment", none⟩ "auto_increment".toList := .flag (unpadded _)
  have charset : Setting.Writes ⟨"Charset", some "latin1"⟩ (" Charset".toList ++ '=' :: " latin1".toList) :=
    .pair (led "Charset".toList) (led "latin1".toList)
  have again : Setting.Writes ⟨"SIZE", some "a=b"⟩ ("SIZE".toList ++ '=' :: "a=b ".toList) :=
    .pair (unpadded "SIZE".toList) (followed "a=b".toList)
  have blank : ∀ c ∈ [' '], isBlank c = true := by simp [isBlank]
  exact .setting size (.setting increment (.blank blank (.setting charset (.setting again .done))))

theorem column_settings_are_read_back :
    ',' ∉ " name ".toList ∧ (∀ setting ∈ columnSettings, setting.IsPlain) ∧ Writes columnSettings columnText ∧
      (parse (" name " ++ .ofList columnText)).ReadsSettings " name " columnSettings := by
  have plainName : ',' ∉ " name ".toList := by decide
  have plain : ∀ setting ∈ columnSettings, setting.IsPlain := by
    simp only [columnSettings, List.forall_mem_cons]
    refine ⟨?_, ?_, ?_, ?_, by simp⟩ <;> exact ⟨by decide, by decide, by decide⟩
  exact ⟨plainName, plain, writes_columnSettings, settings_are_read_back plainName plain writes_columnSettings⟩

end Tag

end SqlComposer
