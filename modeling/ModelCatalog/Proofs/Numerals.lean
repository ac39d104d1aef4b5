import Mathlib.Data.List.Induction
import ModelCatalog.Proofs.DecimalDigits

namespace ModelCatalog.Decimal

variable {digits s : List Char} {n : Nat} {i : Int} {r : Range} {c : Char}

/-- The number that one or more decimal digits denote, whatever zeros stand in front. -/
inductive Denotes : List Char → Nat → Prop
  | one {d : Nat} (small : d < 10) : Denotes [digit d] d
  | more {front : List Char} {n d : Nat} (before : Denotes front n) (small : d < 10) :
      Denotes (front ++ [digit d]) (10 * n + d)

/-- A numeral is a run of digits, perhaps behind one plus sign. -/
inductive Numeral : List Char → Nat → Prop
  | plain {digits : List Char} {n : Nat} (denotes : Denotes digits n) : Numeral digits n
  | plus {digits : List Char} {n : Nat} (denotes : Denotes digits n) : Numeral ('+' :: digits) n

theorem exists_digit (is : c.isDigit = true) : ∃ d < 10, digit d = c := by
  simp only [Char.isDigit, Bool.and_eq_true, decide_eq_true_eq, ge_iff_le, UInt32.le_iff_toNat_le] at is
  obtain ⟨low, high⟩ := is
  change 48 ≤ c.toNat at low
  change c.toNat ≤ 57 at high
  refine ⟨c.toNat - 48, by omega, ?_⟩
  rw [digit, Nat.add_sub_cancel' low, Char.ofNat_toNat]

theorem value_concat {d : Nat} (small : d < 10) : value (digits ++ [digit d]) = 10 * value digits + d := by
  rw [value_append, List.foldl_cons, List.foldl_nil, toNat_digit d small]

theorem Denotes.value_eq (denotes : Denotes digits n) :
    digits ≠ [] ∧ (∀ c ∈ digits, c.isDigit = true) ∧ value digits = n := by
  induction denotes with
  | @one d small =>
    refine ⟨List.cons_ne_nil _ _, List.forall_mem_singleton.mpr (isDigit_digit d small), ?_⟩
    exact (@value_concat [] d small).trans (Nat.zero_add d)
  | more before small ih =>
    obtain ⟨-, all, same⟩ := ih
    refine ⟨List.append_ne_nil_of_right_ne_nil _ (List.cons_ne_nil _ _), ?_, ?_⟩
    · exact List.forall_mem_append.mpr ⟨all, List.forall_mem_singleton.mpr (isDigit_digit _ small)⟩
    · rw [value_concat small, same]

theorem denotes_value (filled : digits ≠ []) (all : ∀ c ∈ digits, c.isDigit = true) : Denotes digits (value digits) := by
  -- The last digit is the one that was read last.
  induction digits using List.reverseRecOn with
  | nil => exact absurd rfl filled
  | append_singleton front c ih =>
    obtain ⟨before, last⟩ := List.forall_mem_append.mp all
    obtain ⟨d, small, rfl⟩ := exists_digit (last c List.mem_cons_self)
    rw [value_concat small]
    cases front with
    | nil =>
      change Denotes [digit d] (10 * 0 + d)
      rw [Nat.mul_zero, Nat.zero_add]
      exact .one small
    | cons c front => exact .more (ih (List.cons_ne_nil _ _) before) small

theorem denotes_iff : Denotes digits n ↔ digits ≠ [] ∧ (∀ c ∈ digits, c.isDigit = true) ∧ value digits = n := by
  refine ⟨Denotes.value_eq, fun ⟨filled, all, same⟩ => ?_⟩
  rw [← same]
  exact denotes_value filled all

theorem numeral_plus : Numeral ('+' :: digits) n ↔ Denotes digits n := by
  refine ⟨fun numeral => ?_, .plus⟩
  cases numeral with
  | plain denotes => exact absurd (denotes.value_eq.2.1 '+' List.mem_cons_self) (by decide)
  | plus denotes => exact denotes

theorem numeral_plain (unsigned : s.head? ≠ some '+') : Numeral s n ↔ Denotes s n := by
  refine ⟨fun numeral => ?_, .plain⟩
  cases numeral with
  | plain denotes => exact denotes
  | plus => exact absurd rfl unsigned

/-- A text denotes one number. -/
theorem Numeral.unique {m : Nat} (numeral : Numeral s n) (numeral' : Numeral s m) : n = m := by
  cases numeral with
  | plain denotes =>
    have unsigned : s.head? ≠ some '+' := fun plus =>
      absurd (denotes.value_eq.2.1 '+' (List.mem_of_head? plus)) (by decide)
    exact denotes.value_eq.2.2.symm.trans ((numeral_plain unsigned).mp numeral').value_eq.2.2
  | plus denotes => exact denotes.value_eq.2.2.symm.trans (numeral_plus.mp numeral').value_eq.2.2

/-- Only zeros denote zero. -/
theorem denotes_zero_iff : Denotes digits 0 ↔ ∃ k, digits = List.replicate (k + 1) '0' := by
  constructor
  · intro denotes
    generalize zero : 0 = n at denotes
    induction denotes with
    | one small =>
      subst zero
      exact ⟨0, rfl⟩
    | @more front n d before small ih =>
      obtain ⟨rest, rfl⟩ : 10 * n = 0 ∧ d = 0 := Nat.add_eq_zero_iff.mp zero.symm
      obtain ⟨k, rfl⟩ := ih (by omega)
      exact ⟨k + 1, List.replicate_succ'.symm⟩
  · rintro ⟨k, rfl⟩
    induction k with
    | zero => exact .one (Nat.zero_lt_succ _)
    | succ k ih =>
      rw [List.replicate_succ']
      exact .more ih (Nat.zero_lt_succ _)

/-- A run of digits is read as the number that it denotes, if that is in the range. -/
theorem run_eq_some_iff : (if digits ≠ [] ∧ digits.all Char.isDigit then
      if r.has (value digits) then some (value digits : Int) else none else none) = some i ↔
    ∃ n : Nat, i = n ∧ Denotes digits n ∧ r.has n = true := by
  simp only [denotes_iff, List.all_eq_true]
  constructor
  · intro done
    split at done
    · rename_i digital
      split at done
      · rename_i within
        exact ⟨value digits, (Option.some.inj done).symm, ⟨digital.1, digital.2, rfl⟩, within⟩
      · cases done
    · cases done
  · rintro ⟨n, rfl, ⟨filled, all, rfl⟩, within⟩
    rw [if_pos ⟨filled, all⟩, if_pos within]

/-- Without negative numbers in the range, what is read is a numeral of a number in it. -/
theorem inRange?_eq_some_iff (least : r.least = 0) :
    inRange? r s = some i ↔ ∃ n : Nat, i = n ∧ Numeral s n ∧ r.has n = true := by
  by_cases plus : s.head? = some '+'
  · obtain ⟨digits, rfl⟩ : ∃ digits, s = '+' :: digits := by
      cases s with
      | nil => cases plus
      | cons c digits => exact ⟨digits, congrArg (· :: digits) (Option.some.inj plus)⟩
    simp only [numeral_plus]
    exact run_eq_some_iff
  · simp only [numeral_plain plus]
    -- A minus sign is left standing before the digits.
    have whole : inRange? r s = if s ≠ [] ∧ s.all Char.isDigit then
        if r.has (value s) then some (value s : Int) else none else none := by
      unfold inRange?
      split
      rename_i negative digits parted
      split at parted
      · exact absurd rfl plus
      · rw [if_neg (by omega)] at parted
        cases parted
        rfl
      · cases parted
        rfl
    rw [whole]
    exact run_eq_some_iff

end ModelCatalog.Decimal
