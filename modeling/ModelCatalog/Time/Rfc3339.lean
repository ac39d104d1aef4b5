import ModelCatalog.Number.Decimal
import ModelCatalog.Text.Blank
import ModelCatalog.Time.Instant

namespace ModelCatalog.Rfc3339

open Decimal

/-- Years from 0 to 9999 have four digits; any other year has a sign before four or more. -/
def yearText (year : Int) : List Char :=
  if 0 ≤ year ∧ year ≤ 9999 then padded 4 year.toNat
  else (if year < 0 then '-' else '+') :: padded 4 year.natAbs

/-- A fraction of a second has none, 3, 6 or 9 digits, the fewest that are exact. -/
def fractionText (nanos : Nat) : List Char :=
  if nanos = 0 then []
  else if nanos % 1000000 = 0 then '.' :: padded 3 (nanos / 1000000)
  else if nanos % 1000 = 0 then '.' :: padded 6 (nanos / 1000)
  else '.' :: padded 9 nanos

def dateText (d : Date) : List Char :=
  yearText d.year ++ '-' :: padded 2 d.month ++ '-' :: padded 2 d.day

/-- The time of the day in UTC. A leap second is second 60. -/
def timeText (t : Instant) : List Char :=
  let s := (t.seconds % 86400).toNat
  let second := s % 60 + t.nanos / 1000000000
  padded 2 (s / 3600) ++ ':' :: padded 2 (s / 60 % 60) ++ ':' :: padded 2 second ++
    fractionText (t.nanos % 1000000000) ++ ['Z']

def print (t : Instant) : List Char :=
  dateText t.day ++ 'T' :: timeText t

/-- A number field may have blanks before it. -/
def field (most : Nat) (s : List Char) : Option (Nat × List Char) :=
  read? most (skipBlanks s)

/-- A year with a sign may have any number of digits, one without at most four. -/
def yearField (s : List Char) : Option (Int × List Char) :=
  match skipBlanks s with
  | '-' :: rest => (readAll? rest).map fun (n, rest) => (-(n : Int), rest)
  | '+' :: rest => (readAll? rest).map fun (n, rest) => ((n : Int), rest)
  | rest => (read? 4 rest).map fun (n, rest) => ((n : Int), rest)

/-- A mark between two numbers may have blanks before it. -/
def mark (c : Char) (s : List Char) : Option (List Char) :=
  match skipBlanks s with
  | d :: rest => if d = c then some rest else none
  | [] => none

/-- An optional fraction, in nanoseconds. Digits after the ninth are skipped. -/
def fractionField : List Char → Option (Nat × List Char)
  | '.' :: rest => do
    let (n, after) ← read? 9 rest
    let count := rest.length - after.length
    return (n * Nat.pow 10 (9 - count), after.dropWhile Char.isDigit)
  | s => some (0, s)

/-- Two digits, neither more nor fewer. -/
def pair : List Char → Option (Nat × List Char)
  | a :: b :: rest => if a.isDigit ∧ b.isDigit then some (value [a, b], rest) else none
  | _ => none

/-- The offset from UTC in minutes: `Z`, `UTC`, or a sign, hours and minutes. -/
def offsetField (s : List Char) : Option (Int × List Char) :=
  match s with
  | 'Z' :: rest | 'z' :: rest => some (0, rest)
  | u :: t :: c :: rest =>
    if u.toUpper = 'U' ∧ t.toUpper = 'T' ∧ c.toUpper = 'C' then some (0, rest) else signed s
  | _ => signed s
where
  signed (s : List Char) : Option (Int × List Char) := do
    let (sign, rest) ← match s with
      | '+' :: rest => some ((1 : Int), rest)
      | '-' :: rest | '\u2212' :: rest => some (-1, rest)
      | _ => none
    let (hours, rest) ← pair rest
    let (minutes, rest) ← pair (rest.dropWhile fun c => c == ':' || isBlank c)
    if hours ≤ 23 ∧ minutes ≤ 59 then
      return (sign * (60 * hours + minutes : Nat), rest)
    else none

/-- The instant that a date, a time of the day and an offset name, if there is one in the readable
years. Second 60 is a leap second of any minute. -/
def instant? (date : Date) (hour minute second nanos : Nat) (offset : Int) : Option Instant := do
  if date.year < Instant.leastYear ∨ Instant.greatestYear < date.year then none
  if ¬ date.exists? ∨ 23 < hour ∨ 59 < minute ∨ 60 < second then none
  let seconds := date.toDays * 86400 + (3600 * hour + 60 * minute : Nat) - 60 * offset
  let t ←
    if second = 60 then Instant.mk? (seconds + 59) (nanos + 1000000000)
    else Instant.mk? (seconds + second) nanos
  if t.representable then some t else none

/-- Reads a date, `T`, `t` or a space, a time of the day and an offset; seconds and offset are
required, and only blanks may follow. -/
def read? (s : List Char) : Option Instant := do
  let (year, s) ← yearField s
  let (month, s) ← field 2 (← mark '-' s)
  let (day, s) ← field 2 (← mark '-' s)
  let s ← match s with
    | 'T' :: rest | 't' :: rest | ' ' :: rest => some rest
    | _ => none
  let (hour, s) ← field 2 s
  let (minute, s) ← field 2 (← mark ':' s)
  let (second, s) ← field 2 (← mark ':' s)
  let (nanos, s) ← fractionField s
  let (offset, s) ← offsetField (skipBlanks s)
  if skipBlanks s ≠ [] then none
  instant? ⟨year, month, day⟩ hour minute second nanos offset

end ModelCatalog.Rfc3339
