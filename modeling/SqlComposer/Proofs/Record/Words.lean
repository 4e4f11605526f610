import Mathlib.Data.List.Chain
import SqlComposer.Record.Naming

namespace SqlComposer.Naming

def words : List Char → List (List Char)
  | [] => []
  | [c] => [[c]]
  | b :: c :: cs =>
    if c.isUpper && startsWord (some b) cs.head? then [b] :: words (c :: cs)
    else match words (c :: cs) with
      | [] => [[b]]
      | word :: rest => (b :: word) :: rest

def spelled (separator : Char) (words : List (List Char)) : List Char :=
  [separator].intercalate (words.map fun word => word.map Char.toLower)

theorem exists_words (c : Char) (cs : List Char) : ∃ word rest, words (c :: cs) = (c :: word) :: rest := by
  cases cs with
  | nil => exact ⟨[], [], rfl⟩
  | cons d ds =>
    rw [words]
    split
    · exact ⟨[], words (d :: ds), rfl⟩
    · split
      · exact ⟨[], [], rfl⟩
      · next word rest _ => exact ⟨word, rest, rfl⟩

section

variable {b c : Char} {cs : List Char}

theorem words_cut (starts : (c.isUpper && startsWord (some b) cs.head?) = true) :
    words (b :: c :: cs) = [b] :: words (c :: cs) := by
  rw [words, if_pos starts]

theorem words_within (inside : ¬(c.isUpper && startsWord (some b) cs.head?) = true) :
    ∃ word rest, words (c :: cs) = (c :: word) :: rest ∧ words (b :: c :: cs) = (b :: c :: word) :: rest := by
  obtain ⟨word, rest, shown⟩ := exists_words c cs
  exact ⟨word, rest, shown, by rw [words, if_neg inside, shown]⟩

end

theorem flatten_words (text : List Char) : (words text).flatten = text := by
  fun_induction words text with
  | case1 => rfl
  | case2 c => rfl
  | case3 b c cs _ ih => simp [ih]
  | case4 b c cs _ nothing ih => simp [nothing] at ih
  | case5 b c cs _ word rest shown ih => simpa [shown] using ih

def Borders (word next : List Char) : Prop :=
  ∃ stem b c rest, word = stem ++ [b] ∧ next = c :: rest ∧ b.isAlphanum = true ∧ c.isUpper = true

theorem isAlphanum_eq (c : Char) : c.isAlphanum = (c.isUpper || c.isLower || c.isDigit) := rfl

theorem isAlphanum_of_startsWord {b : Char} {after : Option Char} (starts : startsWord (some b) after = true) :
    b.isAlphanum = true := by
  simp only [startsWord, Bool.or_eq_true, Bool.and_eq_true] at starts
  simp only [isAlphanum_eq, Bool.or_eq_true]
  rcases starts with (small | digit) | ⟨capital, _⟩
  · exact .inl (.inr small)
  · exact .inr digit
  · exact .inl (.inl capital)

theorem Borders.cons {word next : List Char} (borders : Borders word next) (b : Char) : Borders (b :: word) next := by
  obtain ⟨stem, last, c, rest, rfl, shown⟩ := borders
  exact ⟨b :: stem, last, c, rest, rfl, shown⟩

theorem isChain_words (text : List Char) : (words text).IsChain Borders := by
  fun_induction words text with
  | case1 => exact .nil
  | case2 c => exact .singleton [c]
  | case3 b c cs starts ih =>
    obtain ⟨word, rest, shown⟩ := exists_words c cs
    rw [Bool.and_eq_true] at starts
    rw [shown] at ih ⊢
    exact .cons_cons ⟨[], b, c, word, rfl, rfl, isAlphanum_of_startsWord starts.2, starts.1⟩ ih
  | case4 b c cs => exact .singleton [b]
  | case5 b c cs _ word rest shown ih =>
    rw [shown] at ih
    cases rest with
    | nil => exact .singleton _
    | cons next rest =>
      obtain ⟨borders, later⟩ := List.isChain_cons_cons.mp ih
      exact .cons_cons (borders.cons b) later

theorem intercalate_append {α : Type} (sep : List α) {front back : List (List α)} (properFront : front ≠ [])
    (properBack : back ≠ []) :
    sep.intercalate (front ++ back) = sep.intercalate front ++ sep ++ sep.intercalate back := by
  induction front with
  | nil => contradiction
  | cons first front ih =>
    cases front with
    | nil => simp [List.intercalate_cons_of_ne_nil, properBack]
    | cons next front =>
      have rest := ih (List.cons_ne_nil _ _)
      rw [List.cons_append, List.cons_append, List.intercalate_cons_cons, ← List.cons_append, rest]
      simp [List.intercalate_cons_cons]

theorem spelled_append (separator : Char) {front back : List (List Char)} (properFront : front ≠ [])
    (properBack : back ≠ []) :
    spelled separator (front ++ back) = spelled separator front ++ [separator] ++ spelled separator back := by
  rw [spelled, List.map_append, intercalate_append _ (by simpa using properFront) (by simpa using properBack)]
  rfl

theorem exists_spelled_cons (separator : Char) (word : List Char) (back : List (List Char)) :
    ∃ after, spelled separator (word :: back) = word.map Char.toLower ++ after := by
  by_cases last : back = []
  · exact ⟨[], by simp [last, spelled]⟩
  · have cut := spelled_append separator (List.cons_ne_nil word []) last
    exact ⟨[separator] ++ spelled separator back, by simpa [spelled] using cut⟩

theorem exists_spelled_concat (separator : Char) (front : List (List Char)) (word : List Char) :
    ∃ before, spelled separator (front ++ [word]) = before ++ word.map Char.toLower := by
  by_cases first : front = []
  · exact ⟨[], by simp [first, spelled]⟩
  · have cut := spelled_append separator first (List.cons_ne_nil word [])
    exact ⟨spelled separator front ++ [separator], by simpa [spelled] using cut⟩

theorem separatedFrom_cons (separator : Char) (before : Option Char) (c : Char) (cs : List Char) :
    separatedFrom separator before (c :: cs) =
      (if c.isUpper && startsWord before cs.head? then [separator] else []) ++
        c.toLower :: separatedFrom separator (some c) cs := by
  rw [separatedFrom]
  split <;> rfl

theorem separatedFrom_eq (separator : Char) (before : Option Char) (c : Char) (cs : List Char) :
    separatedFrom separator before (c :: cs) =
      (if c.isUpper && startsWord before cs.head? then [separator] else []) ++ spelled separator (words (c :: cs)) := by
  induction cs generalizing before c with
  | nil =>
    rw [separatedFrom_cons]
    simp [separatedFrom, words, spelled]
  | cons d ds ih =>
    rw [separatedFrom_cons, ih]
    congr 1
    by_cases starts : (d.isUpper && startsWord (some c) ds.head?) = true
    · obtain ⟨word, rest, shown⟩ := exists_words d ds
      rw [words_cut starts, if_pos starts, shown]
      simp [spelled]
    · obtain ⟨word, rest, shown, whole⟩ := words_within starts
      rw [whole, if_neg starts, shown]
      simp [spelled]

theorem toList_separated (separator : Char) (name : String) :
    (separated separator name).toList = spelled separator (words name.toList) := by
  rw [separated, String.toList_ofList]
  cases name.toList with
  | nil => rfl
  | cons c cs =>
    rw [separatedFrom_eq]
    simp [startsWord]

theorem isUpper_iff {c : Char} : c.isUpper = true ↔ 65 ≤ c.toNat ∧ c.toNat ≤ 90 :=
  decide_eq_true_iff

theorem isLower_iff {c : Char} : c.isLower = true ↔ 97 ≤ c.toNat ∧ c.toNat ≤ 122 :=
  Bool.and_eq_true_iff.trans (and_congr decide_eq_true_iff decide_eq_true_iff)

theorem toLower_of_not_isUpper {c : Char} (small : c.isUpper = false) : c.toLower = c :=
  dif_neg (of_decide_eq_false small)

theorem toNat_toLower {c : Char} (capital : c.isUpper = true) : c.toLower.toNat = c.toNat + 32 := by
  have bounds := isUpper_iff.mp capital
  have shifted : c.toLower.val = c.val + 32 := congrArg Char.val (dif_pos (of_decide_eq_true capital))
  rw [← Char.toNat_val, shifted, UInt32.toNat_add, Char.toNat_val]
  exact Nat.mod_eq_of_lt (by simp; omega)

theorem isUpper_toLower (c : Char) : c.toLower.isUpper = false := by
  cases capital : c.isUpper with
  | false => rw [toLower_of_not_isUpper capital, capital]
  | true =>
    have bounds := isUpper_iff.mp capital
    rw [← Bool.not_eq_true, isUpper_iff, toNat_toLower capital]
    omega

theorem isAlphanum_toLower {c : Char} (own : c.isAlphanum = true) : c.toLower.isAlphanum = true := by
  cases capital : c.isUpper with
  | false => rwa [toLower_of_not_isUpper capital]
  | true =>
    have bounds := isUpper_iff.mp capital
    have small : c.toLower.isLower = true := by
      rw [isLower_iff, toNat_toLower capital]
      omega
    simp [isAlphanum_eq, small]

section

variable {separator : Char} {before : Option Char} {text : List Char}

theorem mem_separatedFrom {c : Char} (member : c ∈ separatedFrom separator before text) :
    c = separator ∨ ∃ source ∈ text, c = source.toLower := by
  induction text generalizing before with
  | nil => cases member
  | cons first text ih =>
    rw [separatedFrom_cons, List.mem_append, List.mem_cons] at member
    rcases member with inserted | rfl | later
    · split at inserted
      · exact .inl (List.mem_singleton.mp inserted)
      · cases inserted
    · exact .inr ⟨first, List.mem_cons_self, rfl⟩
    · exact (ih later).imp_right fun ⟨source, inside, shown⟩ => ⟨source, List.mem_cons_of_mem _ inside, shown⟩

theorem filter_separatedFrom :
    (separatedFrom separator before text).filter (· != separator) =
      (text.map Char.toLower).filter (· != separator) := by
  induction text generalizing before with
  | nil => rfl
  | cons c cs ih =>
    have skipped :
        (if c.isUpper && startsWord before cs.head? then [separator] else []).filter (· != separator) = [] := by
      split <;> simp
    rw [separatedFrom_cons, List.filter_append, skipped, List.filter_cons, ih, List.map_cons, List.filter_cons]
    rfl

theorem separatedFrom_of_small (small : ∀ c ∈ text, c.isUpper = false) :
    separatedFrom separator before text = text := by
  induction text generalizing before with
  | nil => rfl
  | cons c cs ih =>
    have own : c.isUpper = false := small c List.mem_cons_self
    rw [separatedFrom_cons, ih fun other member => small other (List.mem_cons_of_mem _ member), own,
      toLower_of_not_isUpper own]
    rfl

end

section

variable {separator : Char} (plain : separator.isAlphanum = false) (name : String)

include plain

theorem not_isUpper_of_mem_separated : ∀ c ∈ (separated separator name).toList, c.isUpper = false := by
  intro c member
  rw [separated, String.toList_ofList] at member
  rcases mem_separatedFrom member with rfl | ⟨source, _, rfl⟩
  · simp only [isAlphanum_eq, Bool.or_eq_false_iff] at plain
    exact plain.1.1
  · exact isUpper_toLower source

omit plain in
theorem separated_of_small (small : ∀ c ∈ name.toList, c.isUpper = false) : separated separator name = name := by
  rw [separated, separatedFrom_of_small small, String.ofList_toList]

theorem exists_around_separator {front back : List (List Char)} (cut : words name.toList = front ++ back)
    (properFront : front ≠ []) (properBack : back ≠ []) : ∃ before b c after,
      spelled separator front = before ++ [b] ∧ spelled separator back = c :: after ∧
        b ≠ separator ∧ c ≠ separator := by
  have unlike {c : Char} (own : c.isAlphanum = true) : c.toLower ≠ separator := by
    rintro rfl
    rw [isAlphanum_toLower own] at plain
    cases plain
  have chain := isChain_words name.toList
  obtain ⟨front, word, rfl⟩ := (front.eq_nil_or_concat).resolve_left properFront
  obtain ⟨next, back, rfl⟩ := List.exists_cons_of_ne_nil properBack
  rw [cut, List.isChain_append] at chain
  obtain ⟨stem, b, c, rest, rfl, rfl, own, capital⟩ := chain.2.2 word (by simp) next (by simp)
  obtain ⟨before, shownFront⟩ := exists_spelled_concat separator front (stem ++ [b])
  obtain ⟨after, shownBack⟩ := exists_spelled_cons separator (c :: rest) back
  refine ⟨before ++ stem.map Char.toLower, b.toLower, c.toLower, rest.map Char.toLower ++ after, ?_, ?_, unlike own,
    unlike (by simp [isAlphanum_eq, capital])⟩
  · simpa using shownFront
  · simpa using shownBack

end

/-- The convention writes the words of a name in small letters with the separator between them, and adds nothing else.
Where it is added, neither of its neighbours is a separator. -/
structure SeparatesWords (separator : Char) (convention : String → String) : Prop where
  joined : ∀ name, (words name.toList).flatten = name.toList ∧
    (convention name).toList = spelled separator (words name.toList)
  apart : ∀ name front back, words name.toList = front ++ back → front ≠ [] → back ≠ [] → ∃ before b c after,
    spelled separator front = before ++ [b] ∧ spelled separator back = c :: after ∧ b ≠ separator ∧ c ≠ separator ∧
      (convention name).toList = before ++ b :: separator :: c :: after
  small : ∀ name, ∀ c ∈ (convention name).toList, c.isUpper = false
  letters : ∀ name, (convention name).toList.filter (· != separator) =
    (Text.lowerAscii name).toList.filter (· != separator)
  kept : ∀ name, (∀ c ∈ name.toList, c.isUpper = false) → convention name = name
  stable : ∀ name, convention (convention name) = convention name

theorem separatesWords {separator : Char} (plain : separator.isAlphanum = false) :
    SeparatesWords separator (separated separator) where
  joined name := ⟨flatten_words name.toList, toList_separated separator name⟩
  apart := by
    intro name front back cut properFront properBack
    obtain ⟨before, b, c, after, shownFront, shownBack, plainLast, plainFirst⟩ :=
      exists_around_separator plain name cut properFront properBack
    refine ⟨before, b, c, after, shownFront, shownBack, plainLast, plainFirst, ?_⟩
    rw [toList_separated, cut, spelled_append separator properFront properBack, shownFront, shownBack]
    simp
  small := not_isUpper_of_mem_separated plain
  letters name := by
    rw [separated, Text.lowerAscii, String.toList_ofList, String.toList_ofList, filter_separatedFrom]
  kept name := separated_of_small name
  stable name := separated_of_small _ (not_isUpper_of_mem_separated plain name)

theorem words_are_separated : SeparatesWords '_' snake ∧ SeparatesWords '-' kebab :=
  ⟨separatesWords (by decide), separatesWords (by decide)⟩

example : words "HTTPServerId2A".toList = ["HTTP".toList, "Server".toList, "Id2".toList, "A".toList] := by decide

end SqlComposer.Naming
