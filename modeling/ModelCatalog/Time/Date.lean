namespace ModelCatalog

/-- A day of the Gregorian calendar, continued backwards without end. Year 0 is the year before
year 1. Months and days count from 1. -/
structure Date where
  year : Int
  month : Nat
  day : Nat
deriving DecidableEq, Repr

namespace Date

def isLeap (year : Int) : Bool :=
  year % 4 == 0 && (year % 100 != 0 || year % 400 == 0)

def monthLengths (leap : Bool) : List Nat :=
  [31, if leap then 29 else 28, 31, 30, 31, 30, 31, 31, 30, 31, 30, 31]

/-- Whether the calendar has this day. -/
def exists? (d : Date) : Bool :=
  1 ≤ d.month && 1 ≤ d.day && d.day ≤ ((monthLengths (isLeap d.year))[d.month - 1]?).getD 0

/-- The days from the start of year 0 to the start of `year`: each quotient counts the multiples
of 4, 100 and 400 that lie before `year`. -/
def daysBeforeYear (year : Int) : Int :=
  365 * year + (year + 3) / 4 - (year + 99) / 100 + (year + 399) / 400

/-- The days of some months together. -/
def total (lengths : List Nat) : Nat :=
  lengths.foldl (· + ·) 0

def daysBeforeMonth (leap : Bool) (month : Nat) : Nat :=
  total ((monthLengths leap).take (month - 1))

/-- The days from the start of year 0 to the first day of 1970. -/
def epoch : Int :=
  719528

/-- The number of days from the first day of 1970 to this one. -/
def toDays (d : Date) : Int :=
  daysBeforeYear d.year + daysBeforeMonth (isLeap d.year) d.month + d.day - 1 - epoch

/-- The year that holds the day with this number, counted from the start of year 0. The mean length
of a year gives it up to one year. -/
def yearOfDay (n : Int) : Int :=
  let guess := n * 400 / 146097
  if n < daysBeforeYear guess then guess - 1
  else if daysBeforeYear (guess + 1) ≤ n then guess + 1
  else guess

/-- The month, and the days before in that month, of the `n`-th day over the given months. -/
def monthOfDay (month : Nat) : List Nat → Nat → Nat × Nat
  | [], n => (month, n)
  | length :: rest, n => if n < length then (month, n) else monthOfDay (month + 1) rest (n - length)

/-- The day that is `days` days after the first day of 1970. -/
def ofDays (days : Int) : Date :=
  let n := days + epoch
  let year := yearOfDay n
  let (month, before) := monthOfDay 1 (monthLengths (isLeap year)) (n - daysBeforeYear year).toNat
  ⟨year, month, before + 1⟩

theorem yearOfDay_bounds (n : Int) :
    daysBeforeYear (yearOfDay n) ≤ n ∧ n < daysBeforeYear (yearOfDay n + 1) := by
  have below : n * 400 / 146097 * 146097 ≤ n * 400 := by omega
  have above : n * 400 < (n * 400 / 146097 + 1) * 146097 := by omega
  rw [yearOfDay]
  generalize n * 400 / 146097 = guess at *
  split
  · rw [show guess - 1 + 1 = guess by omega]
    simp only [daysBeforeYear] at *
    omega
  · split <;> simp only [daysBeforeYear] at * <;> omega

theorem daysBeforeYear_succ (year : Int) :
    daysBeforeYear (year + 1) - daysBeforeYear year = total (monthLengths (isLeap year)) := by
  have sum : (total (monthLengths (isLeap year)) : Int) = if isLeap year then 366 else 365 := by
    cases isLeap year <;> rfl
  rw [sum]
  simp only [daysBeforeYear, isLeap, Bool.and_eq_true, beq_iff_eq, Bool.or_eq_true, bne_iff_ne]
  split <;> omega

theorem monthOfDay_bounds : ∀ leap : Bool, ∀ n < 366, n < total (monthLengths leap) →
    let (month, before) := monthOfDay 1 (monthLengths leap) n
    1 ≤ month ∧ before < ((monthLengths leap)[month - 1]?).getD 0 ∧
      daysBeforeMonth leap month + before = n := by
  decide +kernel

/-- Every number of days names a day of the calendar, and that day has this number. -/
theorem exists?_toDays_ofDays (n : Int) : (ofDays n).exists? = true ∧ (ofDays n).toDays = n := by
  obtain ⟨low, high⟩ := yearOfDay_bounds (n + epoch)
  have length := daysBeforeYear_succ (yearOfDay (n + epoch))
  simp only [ofDays]
  generalize yearOfDay (n + epoch) = year at *
  have short : total (monthLengths (isLeap year)) ≤ 366 := by cases isLeap year <;> decide
  have bounds := monthOfDay_bounds (isLeap year) (n + epoch - daysBeforeYear year).toNat
    (by omega) (by omega)
  generalize
    monthOfDay 1 (monthLengths (isLeap year)) (n + epoch - daysBeforeYear year).toNat = p at *
  obtain ⟨month, before⟩ := p
  obtain ⟨month_pos, inside, sum⟩ := bounds
  constructor
  · simp only [exists?, Bool.and_eq_true, decide_eq_true_eq]
    omega
  · simp only [toDays]
    omega

end Date

end ModelCatalog
