import Mathlib.Algebra.Order.Group.Nat
import Mathlib.Logic.Function.Iterate
import Mathlib.Order.Monotone.Basic
import ChatRelay.Calendar.Date
/-!
# Numbers of days

The number of a date counts the days: the next date has the next number, and no
two dates have the same. So the difference of two numbers is the number of days
between the dates, in either order.
-/

namespace ChatRelay.Date

/-- The number of days of a year. -/
def yearLength (year : Nat) : Nat := if isLeap year then 366 else 365

/-- The number of days of a month. -/
def monthLength (year month : Nat) : Nat :=
  (monthLengths year)[month - 1]?.getD 0

theorem isValid_iff {d : Date} :
    d.isValid = true ↔
      1 ≤ d.month ∧ d.month ≤ 12 ∧ 1 ≤ d.day ∧
      d.day ≤ monthLength d.year d.month := by
  simp [isValid, monthLength]

theorem daysBeforeYear_succ (year : Nat) :
    daysBeforeYear (year + 1) = daysBeforeYear year + yearLength year := by
  have hfour :
      (year + 1 + 3) / 4 = (year + 3) / 4 + if year % 4 = 0 then 1 else 0 := by
    split <;> omega
  have hhundred : (year + 1 + 99) / 100 = (year + 99) / 100 + if year % 100 = 0
      then 1 else 0 := by
    split <;> omega
  have hfourHundred :
      (year + 1 + 399) / 400 =
        (year + 399) / 400 + if year % 400 = 0 then 1 else 0 := by
    split <;> omega
  have hfewer : (year + 99) / 100 ≤ year + 1 := by omega
  -- multiples of a hundred are multiples of four, and those of four hundred
  -- are multiples of a hundred
  have hdown : year % 100 = 0 → year % 4 = 0 := by omega
  have hdown' : year % 400 = 0 → year % 100 = 0 := by omega
  rw [daysBeforeYear, daysBeforeYear, yearLength, isLeap, hfour, hhundred,
    hfourHundred]
  by_cases h : year % 4 = 0 <;> by_cases h' : year % 100 = 0 <;> by_cases h'' :
    year % 400 = 0 <;> simp_all <;> omega

theorem daysBeforeYear_mono : Monotone daysBeforeYear :=
  monotone_nat_of_le_succ fun year => by
    rw [daysBeforeYear_succ]
    exact Nat.le_add_right _ _

/-- A month starts behind the one before. -/
theorem daysBeforeMonth_succ (year : Nat) {month : Nat} (day day' : Nat)
    (hfirst : 1 ≤ month) :
    daysBeforeMonth ⟨year, month + 1, day⟩ =
      daysBeforeMonth ⟨year, month, day'⟩ + monthLength year month := by
  obtain ⟨before, rfl⟩ : ∃ before, month = before + 1 := ⟨month - 1, by omega⟩
  simp only [daysBeforeMonth, monthLength, Nat.add_sub_cancel,
    List.take_add_one, List.foldl_append]
  cases (monthLengths year)[before]? with
  | none => rfl
  | some days => rfl

/-- The months make up the year. -/
theorem daysBeforeMonth_end (year day : Nat) :
    daysBeforeMonth ⟨year, 13, day⟩ = yearLength year := by
  unfold daysBeforeMonth yearLength monthLengths
  cases isLeap year with
  | true => rfl
  | false => rfl

theorem daysBeforeMonth_mono (year : Nat) {month month' : Nat} (day day' : Nat)
    (hfirst : 1 ≤ month) (h : month ≤ month') :
    daysBeforeMonth ⟨year, month, day⟩ ≤
      daysBeforeMonth ⟨year, month', day'⟩ := by
  obtain ⟨later, rfl⟩ := Nat.exists_eq_add_of_le h
  induction later with
  | zero => exact Nat.le_refl _
  | succ later ih =>
      rw [← Nat.add_assoc, daysBeforeMonth_succ year _ day' (by omega)]
      have := ih (Nat.le_add_right _ _)
      omega

/-- A date is behind all days of the earlier months of its year. -/
theorem daysBeforeMonth_lt {d d' : Date} (hd : d.isValid)
    (hmonth : d.month < d'.month) (hyear : d'.year = d.year) :
    d.daysBeforeMonth + d.day ≤ d'.daysBeforeMonth := by
  obtain ⟨hfirst, -, -, hday⟩ := isValid_iff.mp hd
  have hnext := daysBeforeMonth_succ d.year 1 d.day hfirst
  have hmono :=
    daysBeforeMonth_mono d.year 1 d'.day (Nat.le_add_left 1 d.month) hmonth
  have hlater :
      daysBeforeMonth ⟨d.year, d'.month, d'.day⟩ = d'.daysBeforeMonth := by
    rw [← hyear]
  have hsame : daysBeforeMonth ⟨d.year, d.month, d.day⟩ = d.daysBeforeMonth :=
    rfl
  omega

/-- A day is one of its year. -/
theorem day_le_yearLength {d : Date} (hd : d.isValid) :
    d.daysBeforeMonth + d.day ≤ yearLength d.year := by
  obtain ⟨-, hlast, -, -⟩ := isValid_iff.mp hd
  rw [← daysBeforeMonth_end d.year 1]
  exact @daysBeforeMonth_lt d ⟨d.year, 13, 1⟩ hd (Nat.lt_succ_of_le hlast) rfl

theorem dayNumber_eq (d : Date) :
    d.dayNumber =
      (daysBeforeYear d.year + (d.daysBeforeMonth + d.day) : Nat) - 719529 := by
  have hstart : daysBeforeYear 1970 + 1 = 719529 := by decide
  rw [dayNumber, hstart, Nat.add_assoc]
  rfl

/-- A date of an earlier year has a smaller number. -/
theorem dayNumber_lt_of_year {d d' : Date} (hd : d.isValid) (hd' : d'.isValid)
    (hyear : d.year < d'.year) : d.dayNumber < d'.dayNumber := by
  have hday := day_le_yearLength hd
  have hyears := daysBeforeYear_mono (Nat.succ_le_of_lt hyear)
  rw [Nat.succ_eq_add_one, daysBeforeYear_succ] at hyears
  obtain ⟨-, -, hfirst, -⟩ := isValid_iff.mp hd'
  rw [dayNumber_eq, dayNumber_eq]
  omega

theorem dayNumber_injOn : Set.InjOn dayNumber { d | d.isValid = true } := by
  intro d hd d' hd' h
  have hyear : d.year = d'.year := by
    rcases Nat.lt_trichotomy d.year d'.year with hlt | heq | hlt
    · exact absurd h (ne_of_lt (dayNumber_lt_of_year hd hd' hlt))
    · exact heq
    · exact absurd h (ne_of_gt (dayNumber_lt_of_year hd' hd hlt))
  obtain ⟨-, -, hfirst, -⟩ := isValid_iff.mp hd
  obtain ⟨-, -, hfirst', -⟩ := isValid_iff.mp hd'
  rw [dayNumber_eq, dayNumber_eq, hyear] at h
  have hmonth : d.month = d'.month := by
    rcases Nat.lt_trichotomy d.month d'.month with hlt | heq | hlt
    · have := daysBeforeMonth_lt hd hlt hyear.symm
      omega
    · exact heq
    · have := daysBeforeMonth_lt hd' hlt hyear
      omega
  have hsame : d.daysBeforeMonth = d'.daysBeforeMonth := by
    rw [daysBeforeMonth, daysBeforeMonth, hyear, hmonth]
  obtain ⟨year, month, day⟩ := d
  obtain rfl := hyear
  obtain rfl := hmonth
  obtain rfl : day = d'.day := by
    dsimp only at h
    omega
  rfl

/-- The date after a date. -/
def next (d : Date) : Date :=
  if d.day < monthLength d.year d.month then ⟨d.year, d.month, d.day + 1⟩
  else if d.month < 12 then ⟨d.year, d.month + 1, 1⟩
  else ⟨d.year + 1, 1, 1⟩

example :
    next ⟨2024, 2, 28⟩ = ⟨2024, 2, 29⟩ ∧ next ⟨2100, 2, 28⟩ = ⟨2100, 3, 1⟩ ∧
    next ⟨1969, 12, 31⟩ = ⟨1970, 1, 1⟩ := by decide

theorem isValid_next {d : Date} (hd : d.isValid) : d.next.isValid := by
  obtain ⟨hfirst, hlast, -, hday⟩ := isValid_iff.mp hd
  have hlong (year month : Nat) (hfirst : 1 ≤ month) (hlast : month ≤ 12) :
      1 ≤ monthLength year month := by
    unfold monthLength monthLengths
    cases isLeap year <;> (revert month; decide)
  rw [isValid_iff, next]
  split
  · exact ⟨hfirst, hlast, Nat.le_add_left 1 _, by assumption⟩
  split
  · next hmonth =>
      exact ⟨Nat.le_add_left 1 _, hmonth, Nat.le_refl 1,
        hlong _ _ (Nat.le_add_left 1 _) hmonth⟩
  · exact ⟨Nat.le_refl 1, Nat.le_add_left 1 11, Nat.le_refl 1,
      hlong _ _ (Nat.le_refl 1) (Nat.le_add_left 1 11)⟩

theorem dayNumber_next {d : Date} (hd : d.isValid) :
    d.next.dayNumber = d.dayNumber + 1 := by
  obtain ⟨hfirst, hlast, -, hday⟩ := isValid_iff.mp hd
  rw [dayNumber_eq, dayNumber_eq, next]
  split
  · have hsame :
        daysBeforeMonth ⟨d.year, d.month, d.day + 1⟩ = d.daysBeforeMonth :=
      rfl
    rw [hsame]
    dsimp only
    omega
  have hmonth := daysBeforeMonth_succ d.year 1 d.day hfirst
  have hsame : daysBeforeMonth ⟨d.year, d.month, d.day⟩ = d.daysBeforeMonth :=
    rfl
  split
  · dsimp only
    omega
  · -- the last day of a year
    have htwelve : d.month = 12 := by omega
    have hend :
        daysBeforeMonth ⟨d.year, d.month + 1, 1⟩ = yearLength d.year := by
      rw [htwelve]
      exact daysBeforeMonth_end d.year 1
    have hnone : daysBeforeMonth ⟨d.year + 1, 1, 1⟩ = 0 := rfl
    have hyear := daysBeforeYear_succ d.year
    dsimp only
    omega

theorem isValid_iterate_next {d : Date} (hd : d.isValid) (n : Nat) :
    (next^[n] d).isValid := by
  induction n with
  | zero => exact hd
  | succ n ih =>
      rw [Function.iterate_succ_apply']
      exact isValid_next ih

theorem dayNumber_iterate_next {d : Date} (hd : d.isValid) (n : Nat) :
    (next^[n] d).dayNumber = d.dayNumber + n := by
  induction n with
  | zero => simp
  | succ n ih =>
      rw [Function.iterate_succ_apply',
        dayNumber_next (isValid_iterate_next hd n), ih]
      omega

/-- The number of days between two dates: some days after the first and some
days after the second is the same date. -/
def DaysUntil (first last : Date) (days : Int) : Prop :=
  ∃ m n : Nat, next^[m] first = next^[n] last ∧ days = m - n

/-- The days between two dates are the difference of their numbers. -/
theorem daysUntil_iff {first last : Date} (hfirst : first.isValid)
    (hlast : last.isValid) {days : Int} :
    DaysUntil first last days ↔ days = last.dayNumber - first.dayNumber := by
  constructor
  · rintro ⟨m, n, hsame, rfl⟩
    have hnumber := congrArg dayNumber hsame
    rw [dayNumber_iterate_next hfirst, dayNumber_iterate_next hlast] at hnumber
    omega
  · rintro rfl
    -- one of the two goes on until it meets the other
    let m := (last.dayNumber - first.dayNumber).toNat
    let n := (first.dayNumber - last.dayNumber).toNat
    refine ⟨m, n, ?_, by omega⟩
    refine dayNumber_injOn (isValid_iterate_next hfirst m)
      (isValid_iterate_next hlast n) ?_
    rw [dayNumber_iterate_next hfirst, dayNumber_iterate_next hlast]
    omega

end ChatRelay.Date
