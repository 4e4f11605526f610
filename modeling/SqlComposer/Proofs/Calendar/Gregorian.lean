import Mathlib.Data.Int.ConditionallyCompleteOrder
import Mathlib.Data.Prod.Lex
import Mathlib.Tactic.IntervalCases
import SqlComposer.Calendar.Date

namespace SqlComposer

theorem compare_pair {α β γ : Type} [LinearOrder α] [LinearOrder β] [LinearOrder γ] {f : α → β} {g : α → γ}
    (mono : StrictMono fun a => toLex (f a, g a)) (a b : α) :
    (compare (f a) (f b)).then (compare (g a) (g b)) = compare a b := by
  have same := mono.cmp_map_eq a b
  rw [cmp_eq_compare, cmp_eq_compare] at same
  rw [← same]
  simp [Prod.Lex.compare_def, compareLex, compareOn]

end SqlComposer

namespace SqlComposer.Date

def IsLeap (year : Int) : Prop := year % 4 = 0 ∧ (year % 100 ≠ 0 ∨ year % 400 = 0)

instance (year : Int) : Decidable (IsLeap year) := inferInstanceAs (Decidable (_ ∧ _))

def monthLength (year : Int) : (month : Nat) → Nat
  | 2 => if IsLeap year then 29 else 28
  | 4 | 6 | 9 | 11 => 30
  | _ => 31

def next (date : Date) : Date :=
  if date.day < monthLength date.year date.month then { date with day := date.day + 1 }
  else if date.month < 12 then ⟨date.year, date.month + 1, 1⟩
  else ⟨date.year + 1, 1, 1⟩

/-- The leap day at the end belongs to the next year of the calendar. -/
def yearLength (year : Int) : Nat := if IsLeap (year + 1) then 366 else 365

theorem yearLength_bounds (year : Int) : 365 ≤ yearLength year ∧ yearLength year ≤ 366 := by
  unfold yearLength
  split <;> omega

theorem yearLength_add_era (year era : Int) : yearLength (year + era * 400) = yearLength year := by
  have same : IsLeap (year + era * 400 + 1) ↔ IsLeap (year + 1) := by
    unfold IsLeap
    omega
  simp only [yearLength, same]

def yearOfEra (day : Nat) : Nat := (day - day / 1460 + day / 36524 - day / 146096) / 365

theorem daysBeforeYear_succ {year : Nat} (early : year < 399) :
    daysBeforeYear (year + 1) = daysBeforeYear year + yearLength year := by
  unfold yearLength
  split
  all_goals
    next leap =>
      unfold IsLeap at leap
      unfold daysBeforeYear
      omega

theorem yearOfEra_first : ∀ year < 400, yearOfEra (daysBeforeYear year) = year := by decide +kernel

theorem yearOfEra_last : ∀ year < 400, yearOfEra (daysBeforeYear (year + 1) - 1) = year := by decide +kernel

theorem yearOfEra_mono {day later : Nat} (before : day ≤ later) (inside : later < 146097) :
    yearOfEra day ≤ yearOfEra later := by
  induction later, before using Nat.le_induction with
  | base => exact le_rfl
  | succ later _ ih =>
    have step : yearOfEra later ≤ yearOfEra (later + 1) := by
      unfold yearOfEra
      omega
    exact (ih (by omega)).trans step

theorem daysBeforeYear_le {year : Nat} (inEra : year < 400) : daysBeforeYear year ≤ 145731 := by
  unfold daysBeforeYear
  omega

theorem le_yearOfEra_iff {year day : Nat} (inEra : year < 400) (inside : day < 146097) :
    year ≤ yearOfEra day ↔ daysBeforeYear year ≤ day := by
  constructor
  · contrapose!
    intro early
    cases year with
    | zero => exact absurd early (by simp [daysBeforeYear])
    | succ year =>
      -- The day is no later than the last one of the year before.
      have bound := daysBeforeYear_le inEra
      have later := yearOfEra_mono (show day ≤ daysBeforeYear (year + 1) - 1 by omega) (by omega)
      rw [yearOfEra_last year (by omega)] at later
      exact Nat.lt_succ_of_le later
  · intro reached
    have later := yearOfEra_mono reached inside
    rwa [yearOfEra_first year inEra] at later

theorem yearOfEra_lt {day : Nat} (inside : day < 146097) : yearOfEra day < 400 := by
  unfold yearOfEra
  omega

theorem daysBeforeYear_yearOfEra_le {day : Nat} (inside : day < 146097) : daysBeforeYear (yearOfEra day) ≤ day :=
  (le_yearOfEra_iff (yearOfEra_lt inside) inside).mp le_rfl

def dayOfEra (days : Int) : Nat := ((days + 719468) % 146097).toNat

def marchYear (days : Int) : Int := yearOfEra (dayOfEra days) + (days + 719468) / 146097 * 400

def dayOfYear (days : Int) : Nat := dayOfEra days - daysBeforeYear (yearOfEra (dayOfEra days))

def inMonth (year : Int) (month day : Nat) : Date :=
  { year := if month < 10 then year else year + 1
    month := if month < 10 then month + 3 else month - 9
    day }

def monthOf (day : Nat) : Nat := (5 * day + 2) / 153

def atDay (year : Int) (day : Nat) : Date := inMonth year (monthOf day) (day - daysBeforeMonth (monthOf day) + 1)

theorem ofDays_eq (days : Int) : ofDays days = atDay (marchYear days) (dayOfYear days) := rfl

theorem dayOfEra_lt (days : Int) : dayOfEra days < 146097 := by
  unfold dayOfEra
  omega

theorem dayOfYear_lt (days : Int) : dayOfYear days < yearLength (marchYear days) := by
  have inside := dayOfEra_lt days
  have inEra := yearOfEra_lt inside
  rw [marchYear, yearLength_add_era, dayOfYear]
  -- The last year of an era has no next one in it, and is a leap year.
  by_cases last : yearOfEra (dayOfEra days) = 399
  · rw [last]
    have length : yearLength (399 : Nat) = 366 := by decide
    have first : daysBeforeYear 399 = 145731 := by decide
    omega
  · have next := (le_yearOfEra_iff (show yearOfEra (dayOfEra days) + 1 < 400 by omega) inside).not.mp (by omega)
    rw [daysBeforeYear_succ (by omega)] at next
    have reached := daysBeforeYear_yearOfEra_le inside
    omega

theorem eq_last_iff (days : Int) :
    dayOfEra days = 146096 ↔ yearOfEra (dayOfEra days) = 399 ∧ dayOfYear days + 1 = 366 := by
  have inside := dayOfEra_lt days
  have first : daysBeforeYear 399 = 145731 := by decide
  constructor
  · intro last
    rw [dayOfYear, last]
    decide
  · rintro ⟨year, day⟩
    rw [dayOfYear, year] at day
    omega

theorem same_era {days : Int} (notLast : dayOfEra days ≠ 146096) :
    dayOfEra (days + 1) = dayOfEra days + 1 ∧ (days + 1 + 719468) / 146097 = (days + 719468) / 146097 := by
  unfold dayOfEra at notLast ⊢
  omega

theorem same_year {days : Int} (more : dayOfYear days + 1 < yearLength (marchYear days)) :
    marchYear (days + 1) = marchYear days ∧ dayOfYear (days + 1) = dayOfYear days + 1 := by
  have inside := dayOfEra_lt days
  have inEra := yearOfEra_lt inside
  have reached := daysBeforeYear_yearOfEra_le inside
  have notLast : dayOfEra days ≠ 146096 := by
    intro last
    have short := (yearLength_bounds (marchYear days)).2
    have whole := ((eq_last_iff days).mp last).2
    omega
  obtain ⟨next, sameEra⟩ := same_era notLast
  have sameYear : yearOfEra (dayOfEra days + 1) = yearOfEra (dayOfEra days) := by
    refine Nat.le_antisymm (Nat.le_of_lt_succ ?_) (yearOfEra_mono (Nat.le_succ _) (by omega))
    by_cases last : yearOfEra (dayOfEra days) = 399
    · rw [last]
      exact yearOfEra_lt (by omega)
    · rw [← Nat.not_le, le_yearOfEra_iff (by omega) (by omega), daysBeforeYear_succ (by omega)]
      rw [marchYear, yearLength_add_era, dayOfYear] at more
      omega
  rw [marchYear, dayOfYear, next, sameEra, sameYear, dayOfYear]
  exact ⟨rfl, by omega⟩

theorem next_year {days : Int} (last : dayOfYear days + 1 = yearLength (marchYear days)) :
    marchYear (days + 1) = marchYear days + 1 ∧ dayOfYear (days + 1) = 0 := by
  have inside := dayOfEra_lt days
  have inEra := yearOfEra_lt inside
  have reached := daysBeforeYear_yearOfEra_le inside
  rw [marchYear, yearLength_add_era] at last
  -- With the last year the era ends.
  by_cases final : yearOfEra (dayOfEra days) = 399
  · have length : yearLength (399 : Nat) = 366 := by decide
    have lastDay := (eq_last_iff days).mpr ⟨final, by rw [last, final, length]⟩
    have next : dayOfEra (days + 1) = 0 := by
      unfold dayOfEra at lastDay ⊢
      omega
    have nextEra : (days + 1 + 719468) / 146097 = (days + 719468) / 146097 + 1 := by
      unfold dayOfEra at lastDay
      omega
    have first : yearOfEra 0 = 0 := by decide
    rw [marchYear, dayOfYear, next, nextEra, marchYear, final, first]
    exact ⟨by omega, rfl⟩
  · obtain ⟨next, sameEra⟩ := same_era ((eq_last_iff days).not.mpr fun both => final both.1)
    have first : dayOfEra days + 1 = daysBeforeYear (yearOfEra (dayOfEra days) + 1) := by
      rw [daysBeforeYear_succ (by omega), ← last, dayOfYear]
      omega
    rw [marchYear, dayOfYear, next, sameEra, first, yearOfEra_first _ (by omega), marchYear]
    exact ⟨by omega, by omega⟩

theorem monthLength_inMonth (year : Int) {month : Nat} (inYear : month < 12) (day : Nat) :
    monthLength (inMonth year month day).year (inMonth year month day).month =
      (if month = 11 then yearLength year else daysBeforeMonth (month + 1)) - daysBeforeMonth month := by
  interval_cases month
  -- February takes what is left of the year.
  case «11» =>
    have february : inMonth year 11 day = ⟨year + 1, 2, day⟩ := rfl
    have before : daysBeforeMonth 11 = 337 := by decide
    rw [february, before, if_pos (rfl : 11 = 11), monthLength, yearLength]
    by_cases leap : IsLeap (year + 1)
    · rw [if_pos leap, if_pos leap]
    · rw [if_neg leap, if_neg leap]
  all_goals simp [inMonth, monthLength, daysBeforeMonth]

theorem next_inMonth (year : Int) {month : Nat} (inYear : month < 11) {day : Nat}
    (last : ¬ day < monthLength (inMonth year month day).year (inMonth year month day).month) :
    (inMonth year month day).next = inMonth year (month + 1) 1 := by
  refine (if_neg last).trans ?_
  interval_cases month <;> rfl

theorem next_atDay {year : Int} {day : Nat} (more : day + 1 < yearLength year) :
    (atDay year day).next = atDay year (day + 1) := by
  have bounds := yearLength_bounds year
  have inYear : monthOf day < 12 := by
    unfold monthOf
    omega
  -- Either the month goes on, or the next day is the first of the next month.
  have length := monthLength_inMonth year inYear (day - daysBeforeMonth (monthOf day) + 1)
  by_cases same : monthOf (day + 1) = monthOf day
  · have within : day - daysBeforeMonth (monthOf day) + 1 <
        (if monthOf day = 11 then yearLength year else daysBeforeMonth (monthOf day + 1)) -
          daysBeforeMonth (monthOf day) := by
      unfold monthOf daysBeforeMonth at *
      split <;> omega
    have next : day + 1 - daysBeforeMonth (monthOf day) = day - daysBeforeMonth (monthOf day) + 1 := by
      unfold monthOf daysBeforeMonth
      omega
    rw [atDay, atDay, same, next]
    exact if_pos (length ▸ within)
  · have next : monthOf (day + 1) = monthOf day + 1 ∧ day + 1 = daysBeforeMonth (monthOf day + 1) := by
      unfold monthOf daysBeforeMonth at *
      omega
    have inner : monthOf day < 11 := by
      unfold monthOf at *
      omega
    rw [atDay, atDay, next.1, next.2, Nat.sub_self]
    apply next_inMonth year inner
    rw [length, if_neg inner.ne, ← next.2]
    unfold monthOf daysBeforeMonth
    omega

theorem next_atDay_last {year : Int} {day : Nat} (last : day + 1 = yearLength year) :
    (atDay year day).next = atDay (year + 1) 0 := by
  have bounds := yearLength_bounds year
  have february : monthOf day = 11 := by
    unfold monthOf
    omega
  have before : daysBeforeMonth 11 = 337 := by decide
  have length := monthLength_inMonth year (show 11 < 12 by decide) (day - 337 + 1)
  rw [if_pos rfl, before] at length
  rw [atDay, february, before]
  refine (if_neg ?_).trans rfl
  rw [length]
  show ¬ day - 337 + 1 < _
  omega

theorem ofDays_zero : ofDays 0 = ⟨1970, 1, 1⟩ := by decide

theorem ofDays_succ (days : Int) : ofDays (days + 1) = (ofDays days).next := by
  rw [ofDays_eq, ofDays_eq]
  rcases Nat.lt_or_ge (dayOfYear days + 1) (yearLength (marchYear days)) with more | whole
  · obtain ⟨year, day⟩ := same_year more
    rw [year, day, next_atDay more]
  · have last : dayOfYear days + 1 = yearLength (marchYear days) := Nat.le_antisymm (dayOfYear_lt days) whole
    obtain ⟨year, day⟩ := next_year last
    rw [year, day, next_atDay_last last]

theorem toDays_inMonth (year : Int) {month : Nat} (inYear : month < 12) (day : Nat) :
    (inMonth year month day).toDays = year / 400 * 146097 +
      ((daysBeforeYear (year % 400).toNat + daysBeforeMonth month + (day - 1) : Nat) : Int) - 719468 := by
  interval_cases month <;> simp [inMonth, toDays]

theorem toDays_ofDays (days : Int) : (ofDays days).toDays = days := by
  have inEra := yearOfEra_lt (dayOfEra_lt days)
  have reached := daysBeforeYear_yearOfEra_le (dayOfEra_lt days)
  have inYear := (dayOfYear_lt days).trans_le (yearLength_bounds _).2
  have months : monthOf (dayOfYear days) < 12 ∧ daysBeforeMonth (monthOf (dayOfYear days)) ≤ dayOfYear days := by
    unfold monthOf daysBeforeMonth
    omega
  have era : marchYear days / 400 = (days + 719468) / 146097 := by
    unfold marchYear
    omega
  have year : (marchYear days % 400).toNat = yearOfEra (dayOfEra days) := by
    unfold marchYear
    omega
  rw [ofDays_eq, atDay, toDays_inMonth _ months.1, era, year]
  have day : daysBeforeYear (yearOfEra (dayOfEra days)) + dayOfYear days = dayOfEra days := by
    unfold dayOfYear
    omega
  have rest : (dayOfEra days : Int) = (days + 719468) % 146097 := by
    unfold dayOfEra
    omega
  omega

def key (date : Date) : ℤ ×ₗ ℕ ×ₗ ℕ := toLex (date.year, toLex (date.month, date.day))

theorem key_lt_next (date : Date) : date.key < date.next.key := by
  unfold next
  split
  · exact Prod.Lex.toLex_lt_toLex.mpr (.inr ⟨rfl, Prod.Lex.toLex_lt_toLex.mpr (.inr ⟨rfl, Nat.lt_succ_self _⟩)⟩)
  · split
    · exact Prod.Lex.toLex_lt_toLex.mpr (.inr ⟨rfl, Prod.Lex.toLex_lt_toLex.mpr (.inl (Nat.lt_succ_self _))⟩)
    · exact Prod.Lex.toLex_lt_toLex.mpr (.inl (Int.lt_succ _))

theorem strictMono_ofDays : StrictMono fun days => (ofDays days).key := by
  apply strictMono_int_of_lt_succ
  intro days
  rw [ofDays_succ]
  exact key_lt_next _

theorem compare_ofDays (days other : Int) :
    (compare (ofDays days).year (ofDays other).year).then ((compare (ofDays days).month (ofDays other).month).then
      (compare (ofDays days).day (ofDays other).day)) = compare days other := by
  have monthsAndDays : (compare (ofDays days).month (ofDays other).month).then
      (compare (ofDays days).day (ofDays other).day) =
      compare (toLex ((ofDays days).month, (ofDays days).day)) (toLex ((ofDays other).month, (ofDays other).day)) := by
    simp [Prod.Lex.compare_def, compareLex, compareOn]
  rw [monthsAndDays]
  exact compare_pair strictMono_ofDays days other

end SqlComposer.Date
