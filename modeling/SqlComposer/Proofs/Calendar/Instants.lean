import SqlComposer.Compose.Registry
import SqlComposer.Proofs.Calendar.Gregorian
import SqlComposer.Schema.Index
/-!
Bound date-times sort as the instants they denote, `bound_times_sort_as_instants`.

Every part of their text has a fixed width and is filled up with zeros, so two texts are compared part by part, and each
pair of parts as its numbers: `SortAs`. The parts are the digits of one number in mixed radix, the microseconds since
1970. The date is its most significant digit.
-/

namespace SqlComposer

open Schema (bytesOf bytesOf_append bytesOf_inj)

theorem strictMono_divMod (k : Nat) : StrictMono fun n : Nat => toLex (n / k, n % k) := by
  intro n m less
  have whole := Nat.div_add_mod n k
  have otherWhole := Nat.div_add_mod m k
  rcases (Nat.div_le_div_right less.le : n / k ≤ m / k).lt_or_eq with quotients | same
  · exact Prod.Lex.toLex_lt_toLex.mpr (.inl quotients)
  · rw [same] at whole
    exact Prod.Lex.toLex_lt_toLex.mpr (.inr ⟨same, by omega⟩)

theorem strictMono_divMod_int {k : Int} (positive : 0 < k) :
    StrictMono fun n : Int => toLex (n / k, (n % k).toNat) := by
  intro n m less
  have whole := Int.mul_ediv_add_emod n k
  have otherWhole := Int.mul_ediv_add_emod m k
  have remainder := Int.emod_nonneg n positive.ne'
  rcases (Int.ediv_le_ediv positive less.le).lt_or_eq with quotients | same
  · exact Prod.Lex.toLex_lt_toLex.mpr (.inl quotients)
  · rw [same] at whole
    exact Prod.Lex.toLex_lt_toLex.mpr (.inr ⟨same, by omega⟩)

theorem compare_append {a b : List UInt8} (length : a.length = b.length) (rest other : List UInt8) :
    compare (a ++ rest) (b ++ other) = (compare a b).then (compare rest other) := by
  induction a generalizing b with
  | nil =>
    obtain rfl := List.length_eq_zero_iff.mp length.symm
    rfl
  | cons x a ih =>
    cases b with
    | nil => contradiction
    | cons y b =>
      rw [List.cons_append, List.cons_append, List.compare_cons_cons, List.compare_cons_cons,
        ih (Nat.succ.inj length), Ordering.then_assoc]

structure SortAs (text other : String) (order : Ordering) : Prop where
  width : (bytesOf text).length = (bytesOf other).length
  bytes : compare (bytesOf text) (bytesOf other) = order

namespace SortAs

theorem same (text : String) : SortAs text text .eq := ⟨rfl, Std.compare_self⟩

theorem append {a b c d : String} {order less : Ordering} (first : SortAs a b order) (second : SortAs c d less) :
    SortAs (a ++ c) (b ++ d) (order.then less) where
  width := by rw [bytesOf_append, bytesOf_append, List.length_append, List.length_append, first.width, second.width]
  bytes := by rw [bytesOf_append, bytesOf_append, compare_append first.width, first.bytes, second.bytes]

theorem sign {a b c d : String} {order less : Ordering} (first : SortAs a b order) (sign : String)
    (second : SortAs c d less) : SortAs (a ++ sign ++ c) (b ++ sign ++ d) (order.then less) := by
  have both := (first.append (same sign)).append second
  rwa [Ordering.then_eq] at both

end SortAs

theorem padded_one {n : Nat} (small : n < 10) : Text.padded 1 n = .ofList [Nat.digitChar n] := by
  simp [Text.padded, Nat.repr_eq_ofList_toDigits, Nat.toDigits_of_lt_base small]

theorem padded_succ (width n : Nat) :
    Text.padded (width + 2) n = Text.padded (width + 1) (n / 10) ++ .ofList [Nat.digitChar (n % 10)] := by
  apply String.toList_injective
  simp only [Text.padded, Nat.repr_eq_ofList_toDigits, String.toList_append, String.toList_ofList, String.length_ofList,
    Nat.toDigits_eq_if (show 1 < 10 by decide) (n := n)]
  by_cases small : n < 10
  · have none : n / 10 = 0 := by omega
    rw [if_pos small, none, Nat.toDigits_zero, Nat.mod_eq_of_lt small]
    show List.replicate (width + 1) '0' ++ _ = List.replicate width '0' ++ ['0'] ++ _
    rw [List.replicate_succ']
  · rw [if_neg small, List.length_append, List.append_assoc, List.length_singleton,
      Nat.add_sub_add_right (width + 1) 1]

theorem length_digitChar : ∀ digit < 10, (bytesOf (.ofList [Nat.digitChar digit])).length = 1 := by decide

theorem compare_digitChar : ∀ n < 10, ∀ m < 10,
    compare (bytesOf (.ofList [Nat.digitChar n])) (bytesOf (.ofList [Nat.digitChar m])) = compare n m := by
  decide

namespace SortAs

theorem digits {n m : Nat} (small : n < 10) (otherSmall : m < 10) :
    SortAs (.ofList [Nat.digitChar n]) (.ofList [Nat.digitChar m]) (compare n m) where
  width := (length_digitChar n small).trans (length_digitChar m otherSmall).symm
  bytes := compare_digitChar n small m otherSmall

theorem padded (width : Nat) {n m : Nat} (fits : n < 10 ^ (width + 1)) (otherFits : m < 10 ^ (width + 1)) :
    SortAs (Text.padded (width + 1) n) (Text.padded (width + 1) m) (compare n m) := by
  induction width generalizing n m with
  | zero =>
    rw [padded_one fits, padded_one otherFits]
    exact digits fits otherFits
  | succ width ih =>
    rw [padded_succ, padded_succ, ← compare_pair (strictMono_divMod 10)]
    apply append
    · exact ih (by omega) (by omega)
    · exact digits (by omega) (by omega)

end SortAs

theorem Date.ofDays_bounds (days : Int) : (ofDays days).month < 100 ∧ (ofDays days).day < 100 := by
  have inYear := dayOfYear_lt days
  have bounds := yearLength_bounds (marchYear days)
  have months : monthOf (dayOfYear days) < 12 := by
    unfold monthOf
    omega
  simp only [ofDays_eq, atDay, inMonth]
  constructor
  · split <;> omega
  · unfold monthOf daysBeforeMonth
    omega

def Date.InYears (date : Date) : Prop := 0 ≤ date.year ∧ date.year ≤ 9999

theorem Date.InYears.yearText_eq {date : Date} (inYears : date.InYears) :
    yearText date.year = Text.padded 4 date.year.toNat := by
  obtain ⟨positive, _⟩ := inYears
  rw [yearText, if_neg positive.not_gt, String.empty_append]
  congr 1
  omega

namespace SortAs

theorem year {date other : Date} (inYears : date.InYears) (otherInYears : other.InYears) :
    SortAs (Date.yearText date.year) (Date.yearText other.year) (compare date.year other.year) := by
  have numbers : compare date.year other.year = compare date.year.toNat other.year.toNat := by
    have casts := Int.natCast_strictMono.cmp_map_eq date.year.toNat other.year.toNat
    rwa [Int.toNat_of_nonneg inYears.1, Int.toNat_of_nonneg otherInYears.1, cmp_eq_compare, cmp_eq_compare] at casts
  rw [inYears.yearText_eq, otherInYears.yearText_eq, numbers]
  unfold Date.InYears at *
  apply padded 3 <;> omega

theorem two {n m : Nat} (fits : n < 100) (otherFits : m < 100) :
    SortAs (Text.padded 2 n) (Text.padded 2 m) (compare n m) := padded 1 fits otherFits

theorem date {days other : Int} (inYears : (Date.ofDays days).InYears) (otherInYears : (Date.ofDays other).InYears) :
    SortAs (Date.ofDays days).text (Date.ofDays other).text (compare days other) := by
  have bounds := Date.ofDays_bounds days
  have otherBounds := Date.ofDays_bounds other
  have parts := ((year inYears otherInYears).sign "-" (two bounds.1 otherBounds.1)).sign "-"
    (two bounds.2 otherBounds.2)
  rwa [Ordering.then_assoc, Date.compare_ofDays] at parts

theorem clock {n m : Nat} (inDay : n < DateTime.nanosecondsPerDay) (otherInDay : m < DateTime.nanosecondsPerDay) :
    SortAs (Clock.ofNanoseconds n).text (Clock.ofNanoseconds m).text (compare (n / 1000000000) (m / 1000000000)) := by
  unfold DateTime.nanosecondsPerDay at *
  have hours := two (show n / 1000000000 / 3600 < 100 by omega) (show m / 1000000000 / 3600 < 100 by omega)
  have minutes := two (show n / 1000000000 / 60 % 60 < 100 by omega) (show m / 1000000000 / 60 % 60 < 100 by omega)
  have seconds := two (show n / 1000000000 % 60 < 100 by omega) (show m / 1000000000 % 60 < 100 by omega)
  have parts := (hours.sign ":" minutes).sign ":" seconds
  have hour (n : Nat) : n / 3600 = n / 60 / 60 := (Nat.div_div_eq_div_mul n 60 60).symm
  rwa [hour, hour, compare_pair (strictMono_divMod 60), compare_pair (strictMono_divMod 60), ← hour, ← hour] at parts

theorem microseconds (n m : Nat) :
    SortAs (Text.padded 6 ((Clock.ofNanoseconds n).nanosecond / 1000))
      (Text.padded 6 ((Clock.ofNanoseconds m).nanosecond / 1000))
      (compare (n / 1000 % 1000000) (m / 1000 % 1000000)) := by
  have micros (n : Nat) : n % 1000000000 / 1000 = n / 1000 % 1000000 := by omega
  show SortAs (Text.padded 6 (n % 1000000000 / 1000)) (Text.padded 6 (m % 1000000000 / 1000)) _
  rw [micros, micros]
  apply padded 5 <;> omega

end SortAs

namespace DateTime

def InYears (time : DateTime) : Prop := (time.shownAt 0).1.InYears

theorem utcText?_of_inYears {time : DateTime} (inYears : time.InYears) :
    time.utcText? = some ((time.shownAt 0).1.text ++ " " ++ (time.shownAt 0).2.text ++ "." ++
      Text.padded 6 ((time.shownAt 0).2.nanosecond / 1000)) := by
  obtain ⟨positive, small⟩ := inYears
  have digits : (time.shownAt 0).1.year.natAbs ≤ 9999 := by omega
  exact if_pos digits

theorem shownAt_zero (time : DateTime) :
    time.shownAt 0 = (.ofDays (time.nanoseconds / nanosecondsPerDay),
      .ofNanoseconds (time.nanoseconds % nanosecondsPerDay).toNat) := by
  rw [shownAt, Int.zero_mul, Int.add_zero]

theorem ofLocal_shownAt (time : DateTime) (offset : Int) :
    ofLocal (time.shownAt offset).1 (time.shownAt offset).2 offset = ⟨time.nanoseconds, offset⟩ := by
  simp only [ofLocal, shownAt, Date.toDays_ofDays, Clock.toNanoseconds, Clock.ofNanoseconds, mk.injEq, and_true]
  unfold nanosecondsPerDay
  omega

theorem compare_microseconds (n m : Int) :
    ((compare (n / nanosecondsPerDay) (m / nanosecondsPerDay)).then
      (compare ((n % nanosecondsPerDay).toNat / 1000000000) ((m % nanosecondsPerDay).toNat / 1000000000))).then
      (compare ((n % nanosecondsPerDay).toNat / 1000 % 1000000) ((m % nanosecondsPerDay).toNat / 1000 % 1000000)) =
      compare (n / 1000) (m / 1000) := by
  -- Days, seconds of the day and microseconds of the second are the digits of the microseconds.
  have days (n : Int) : n / nanosecondsPerDay = n / 1000 / 86400000000 := by
    unfold nanosecondsPerDay
    omega
  have rest (n : Int) : (n % nanosecondsPerDay).toNat / 1000 = (n / 1000 % 86400000000).toNat := by
    unfold nanosecondsPerDay
    omega
  have seconds (n : Nat) : n / 1000000000 = n / 1000 / 1000000 := (Nat.div_div_eq_div_mul n 1000 1000000).symm
  rw [Ordering.then_assoc, seconds, seconds, compare_pair (strictMono_divMod 1000000), rest, rest, days, days,
    compare_pair (strictMono_divMod_int (by decide))]

theorem sortAs {time other : DateTime} (inYears : time.InYears) (otherInYears : other.InYears) :
    ∃ text otherText, time.utcText? = some text ∧ other.utcText? = some otherText ∧
      SortAs text otherText (compare (time.nanoseconds / 1000) (other.nanoseconds / 1000)) := by
  refine ⟨_, _, utcText?_of_inYears inYears, utcText?_of_inYears otherInYears, ?_⟩
  unfold InYears at inYears otherInYears
  rw [shownAt_zero] at inYears otherInYears ⊢
  rw [shownAt_zero, ← compare_microseconds]
  have inDay (n : Int) : (n % nanosecondsPerDay).toNat < nanosecondsPerDay := by
    unfold nanosecondsPerDay
    omega
  apply SortAs.sign
  · apply SortAs.sign
    · exact SortAs.date inYears otherInYears
    · exact SortAs.clock (inDay _) (inDay _)
  · exact SortAs.microseconds _ _

end DateTime

namespace Compose

theorem encode_dateTime {time : DateTime} {text : String} (shown : time.utcText? = some text) :
    Registry.mysql.encode (.dateTime time) = .ok (.string text) := by
  show encodeDateTime (.dateTime time) = _
  rw [encodeDateTime, shown]

theorem bound_times_sort_as_instants {time other : DateTime} (inYears : time.InYears) (otherInYears : other.InYears) :
    ∃ text otherText,
      Registry.mysql.encode (.dateTime time) = .ok (.string text) ∧
      Registry.mysql.encode (.dateTime other) = .ok (.string otherText) ∧
      compare (bytesOf text) (bytesOf otherText) = compare (time.nanoseconds / 1000) (other.nanoseconds / 1000) ∧
      (time.same other → text = otherText) := by
  obtain ⟨text, otherText, shown, otherShown, sorted⟩ := DateTime.sortAs inYears otherInYears
  refine ⟨text, otherText, encode_dateTime shown, encode_dateTime otherShown, sorted.bytes, ?_⟩
  intro same
  have instants : time.nanoseconds = other.nanoseconds := eq_of_beq same
  have equal := sorted.bytes
  rw [instants, Std.compare_self] at equal
  exact bytesOf_inj.mp (Std.LawfulEqOrd.eq_of_compare equal)

def leapEvening : DateTime := .ofLocal ⟨2024, 3, 1⟩ ⟨1, 15, 0, 999999999⟩ 7200

def nextSecond : DateTime := .ofLocal ⟨2024, 2, 29⟩ ⟨22, 45, 1, 0⟩ (-1800)

example : leapEvening.utcText? = some "2024-02-29 23:15:00.999999" := by decide

example : nextSecond.utcText? = some "2024-02-29 23:15:01.000000" := by decide

theorem leap_evening_sorts_before_next_second :
    leapEvening.InYears ∧ nextSecond.InYears ∧
    ∃ text otherText,
      Registry.mysql.encode (.dateTime leapEvening) = .ok (.string text) ∧
      Registry.mysql.encode (.dateTime nextSecond) = .ok (.string otherText) ∧
      compare (bytesOf text) (bytesOf otherText) = .lt := by
  have inYears : leapEvening.InYears := ⟨by decide, by decide⟩
  have nextInYears : nextSecond.InYears := ⟨by decide, by decide⟩
  obtain ⟨text, otherText, bound, otherBound, order, _⟩ := bound_times_sort_as_instants inYears nextInYears
  exact ⟨inYears, nextInYears, text, otherText, bound, otherBound, order.trans (by decide)⟩

end Compose

end SqlComposer
