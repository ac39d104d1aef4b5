import Mathlib.Tactic.ByContra
import ModelCatalog.Proofs.DecimalDigits
import ModelCatalog.Time.Rfc3339

namespace ModelCatalog

namespace Date

theorem daysBeforeYear_le {a b : Int} (before : a ≤ b) : daysBeforeYear a ≤ daysBeforeYear b := by
  simp only [daysBeforeYear]
  omega

theorem bounds_of_exists? {d : Date} (real : d.exists? = true) :
    (1 ≤ d.month ∧ d.month ≤ 12) ∧ 1 ≤ d.day ∧ d.day ≤ 31 := by
  have longest : ∀ leap, ∀ length ∈ monthLengths leap, length ≤ 31 := by decide
  simp only [exists?, Bool.and_eq_true, decide_eq_true_eq] at real
  obtain ⟨⟨month, day⟩, last⟩ := real
  cases named : (monthLengths (isLeap d.year))[d.month - 1]? with
  | none =>
    rw [named, Option.getD_none] at last
    omega
  | some length =>
    have inside := (List.getElem?_eq_some_iff.mp named).1
    have short := longest _ length (List.mem_of_getElem? named)
    have twelve : (monthLengths (isLeap d.year)).length = 12 := rfl
    rw [named, Option.getD_some] at last
    omega

end Date

namespace Instant

/-- What can be read back lies in one of the years that a reader accepts. -/
theorem year_bounds {t : Instant} (readable : t.representable = true) :
    leastYear ≤ t.day.year ∧ t.day.year ≤ greatestYear := by
  simp only [representable, Bool.and_eq_true, decide_eq_true_eq] at readable
  simp only [Date.toDays] at readable
  have bounds := Date.yearOfDay_bounds (t.seconds / 86400 + Date.epoch)
  have year : t.day.year = Date.yearOfDay (t.seconds / 86400 + Date.epoch) := rfl
  have first : Date.daysBeforeMonth (Date.isLeap leastYear) 1 = 0 := rfl
  have last : Date.daysBeforeMonth (Date.isLeap (greatestYear + 1)) 1 = 0 := rfl
  rw [year]
  generalize Date.yearOfDay (t.seconds / 86400 + Date.epoch) = y at *
  constructor
  · by_contra early
    have upper := @Date.daysBeforeYear_le (y + 1) leastYear (by omega)
    omega
  · by_contra late
    have lower := @Date.daysBeforeYear_le (greatestYear + 1) y (by omega)
    omega

end Instant

namespace Rfc3339

open Decimal

variable {rest : List Char} {c : Char}

theorem skipBlanks_cons (plain : isBlank c = false) : skipBlanks (c :: rest) = c :: rest := by
  rw [skipBlanks, List.dropWhile_cons, plain, if_neg Bool.false_ne_true]

theorem isBlank_of_isDigit (digit : c.isDigit = true) : isBlank c = false := by
  obtain ⟨low, high⟩ : 48 ≤ c.toNat ∧ c.toNat ≤ 57 := by
    simp only [Char.isDigit, ge_iff_le, Bool.and_eq_true, decide_eq_true_eq, UInt32.le_iff_toNat_le] at digit
    exact digit
  simp only [isBlank, Bool.or_eq_false_iff, Bool.and_eq_false_iff, decide_eq_false_iff_not, beq_eq_false_iff_ne]
  omega

theorem skipBlanks_padded (width n : Nat) : skipBlanks (padded width n ++ rest) = padded width n ++ rest := by
  cases whole : padded width n with
  | nil => exact absurd whole (padded_ne_nil width n)
  | cons c more =>
    have digit := isDigit_padded width n c (whole ▸ List.mem_cons_self)
    exact skipBlanks_cons (isBlank_of_isDigit digit)

theorem field_padded {width n : Nat} (positive : 0 < width) (small : n < 10 ^ width) :
    field width (padded width n ++ rest) = some (n, rest) := by
  have length := length_padded positive small
  rw [field, skipBlanks_padded, read?_padded (Nat.le_of_eq length) (.inl length)]

theorem mark_cons (plain : isBlank c = false) : mark c (c :: rest) = some rest := by
  rw [mark, skipBlanks_cons plain]
  exact if_pos rfl

theorem yearField_unsigned (digit : c.isDigit = true) :
    yearField (c :: rest) = (Decimal.read? 4 (c :: rest)).map fun (n, rest) => ((n : Int), rest) := by
  rw [yearField, skipBlanks_cons (isBlank_of_isDigit digit)]
  split
  · rename_i sign
    cases sign
    exact absurd digit (by decide)
  · rename_i sign
    cases sign
    exact absurd digit (by decide)
  · rfl

/-- A year of four digits is read without a sign, any other one with it. -/
theorem yearField_yearText (year : Int) (stop : ∀ c ∈ rest.head?, c.isDigit = false) :
    yearField (yearText year ++ rest) = some (year, rest) := by
  rw [yearText]
  split
  · rename_i plain
    have width := @length_padded year.toNat 4 (by decide) (by omega)
    have read := @read?_padded year.toNat 4 4 rest (Nat.le_of_eq width) (.inl width)
    have digits := isDigit_padded 4 year.toNat
    cases whole : padded 4 year.toNat with
    | nil => exact absurd whole (padded_ne_nil 4 _)
    | cons c more =>
      rw [whole] at read digits
      rw [List.cons_append, yearField_unsigned (digits c List.mem_cons_self), ← List.cons_append, read]
      simp only [Option.map_some, Int.toNat_of_nonneg plain.1]
  · have read := @readAll?_padded year.natAbs 4 rest stop
    split
    · rename_i negative
      rw [List.cons_append, yearField, skipBlanks_cons (by decide)]
      simp only [read, Option.map_some, Option.some.injEq, Prod.mk.injEq, and_true]
      omega
    · rename_i positive
      rw [List.cons_append, yearField, skipBlanks_cons (by decide)]
      simp only [read, Option.map_some, Option.some.injEq, Prod.mk.injEq, and_true]
      omega

theorem fractionField_digits {width n : Nat} (positive : 0 < width) (few : width ≤ 9) (small : n < 10 ^ width)
    (other : c.isDigit = false) :
    fractionField ('.' :: (padded width n ++ c :: rest)) = some (n * Nat.pow 10 (9 - width), c :: rest) := by
  have length := length_padded positive small
  have read := @read?_padded n width 9 (c :: rest) (by omega) (.inr (by simpa using other))
  have count : (padded width n ++ c :: rest).length - (c :: rest).length = width := by
    rw [List.length_append, length, Nat.add_sub_cancel]
  simp only [fractionField, read, Option.bind_eq_bind, Option.bind_some, count, List.dropWhile_cons, other,
    Bool.false_eq_true, if_false, Option.pure_def]

/-- A fraction is read back exactly, since the digits that are left out of it are zeros. -/
theorem fractionField_fractionText {nanos : Nat} (small : nanos < 1000000000) (other : c.isDigit = false)
    (apart : c ≠ '.') : fractionField (fractionText nanos ++ c :: rest) = some (nanos, c :: rest) := by
  rw [fractionText]
  split
  · rename_i zero
    subst zero
    rw [List.nil_append, fractionField]
    · simpa using apart
  split
  · rw [List.cons_append, fractionField_digits (by decide) (by decide) (by omega) other]
    have power : Nat.pow 10 (9 - 3) = 1000000 := rfl
    rw [power, Nat.div_mul_cancel (Nat.dvd_of_mod_eq_zero ‹_›)]
  split
  · rw [List.cons_append, fractionField_digits (by decide) (by decide) (by omega) other]
    have power : Nat.pow 10 (9 - 6) = 1000 := rfl
    rw [power, Nat.div_mul_cancel (Nat.dvd_of_mod_eq_zero ‹_›)]
  · rw [List.cons_append, fractionField_digits (by decide) (by decide) small other]
    have power : Nat.pow 10 (9 - 9) = 1 := rfl
    rw [power, Nat.mul_one]

theorem offsetField_utc : offsetField ('Z' :: rest) = some (0, rest) :=
  rfl

theorem mk?_self (t : Instant) : Instant.mk? t.seconds t.nanos = some t :=
  dif_pos ⟨t.nanos_lt, t.leap_at_end⟩

/-- The date and the time of the day of an instant name just that instant. -/
theorem instant?_of_parts {t : Instant} (readable : t.representable = true) :
    instant? t.day ((t.seconds % 86400).toNat / 3600) ((t.seconds % 86400).toNat / 60 % 60)
      ((t.seconds % 86400).toNat % 60 + t.nanos / 1000000000) (t.nanos % 1000000000) 0 = some t := by
  obtain ⟨real, days⟩ : t.day.exists? = true ∧ t.day.toDays = t.seconds / 86400 :=
    Date.exists?_toDays_ofDays (t.seconds / 86400)
  obtain ⟨first, last⟩ := t.year_bounds readable
  have bound := t.nanos_lt
  have atEnd := t.leap_at_end
  have inDay : ¬(23 < (t.seconds % 86400).toNat / 3600 ∨ 59 < (t.seconds % 86400).toNat / 60 % 60 ∨
      60 < (t.seconds % 86400).toNat % 60 + t.nanos / 1000000000) := by omega
  simp only [instant?, real, days, not_true, false_or]
  rw [if_neg (by omega), if_neg inDay]
  by_cases leap : 1000000000 ≤ t.nanos
  · have minute := atEnd leap
    have second : (t.seconds % 86400).toNat % 60 + t.nanos / 1000000000 = 60 := by omega
    have nanos : t.nanos % 1000000000 + 1000000000 = t.nanos := by omega
    have seconds : t.seconds / 86400 * 86400 +
        (3600 * ((t.seconds % 86400).toNat / 3600) + 60 * ((t.seconds % 86400).toNat / 60 % 60) : Nat) - 60 * 0 + 59 =
          t.seconds := by omega
    rw [if_pos second, nanos, seconds, mk?_self]
    exact if_pos readable
  · have second : (t.seconds % 86400).toNat % 60 + t.nanos / 1000000000 ≠ 60 := by omega
    have nanos : t.nanos % 1000000000 = t.nanos := by omega
    have seconds : t.seconds / 86400 * 86400 +
        (3600 * ((t.seconds % 86400).toNat / 3600) + 60 * ((t.seconds % 86400).toNat / 60 % 60) : Nat) - 60 * 0 +
          ((t.seconds % 86400).toNat % 60 + t.nanos / 1000000000 : Nat) = t.seconds := by omega
    rw [if_neg second, nanos, seconds, mk?_self]
    exact if_pos readable

/-- Every time in a year that has a name is read back from how it is written. -/
theorem read?_print {t : Instant} (readable : t.representable = true) : read? (print t) = some t := by
  obtain ⟨real, -⟩ : t.day.exists? = true ∧ _ := Date.exists?_toDays_ofDays (t.seconds / 86400)
  obtain ⟨month, day⟩ := Date.bounds_of_exists? real
  have bound := t.nanos_lt
  have year := fun rest => @yearField_yearText ('-' :: rest) t.day.year (by simp)
  have fields := fun n small rest => @field_padded rest 2 n (by decide) small
  have fraction := @fractionField_fractionText [] 'Z' (t.nanos % 1000000000) (by omega) (by decide) (by decide)
  have dash := fun rest => @mark_cons rest '-' (by decide)
  have colon := fun rest => @mark_cons rest ':' (by decide)
  have zone : skipBlanks ['Z'] = ['Z'] := rfl
  have none : skipBlanks [] = [] := rfl
  rw [print, dateText, timeText, read?]
  simp only [List.append_assoc, List.cons_append, year, dash, colon, fraction, zone, none, offsetField_utc,
    some_bind, fields t.day.month (by omega), fields t.day.day (by omega),
    fields ((t.seconds % 86400).toNat / 3600) (by omega), fields ((t.seconds % 86400).toNat / 60 % 60) (by omega),
    fields ((t.seconds % 86400).toNat % 60 + t.nanos / 1000000000) (by omega), ne_eq, not_true, if_false]
  exact instant?_of_parts readable

end Rfc3339

end ModelCatalog
