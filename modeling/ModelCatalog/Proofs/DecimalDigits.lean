import Mathlib.Algebra.Group.Nat.Defs
import ModelCatalog.Number.Decimal

namespace ModelCatalog

/-- A step of a reader hands on what it has read. It is stated for the steps of a do block, which are not to be opened
into calls of `Option.bind`: where these are nested, simp takes a time that is exponential in their number. -/
theorem some_bind {α β : Type} (a : α) (f : α → Option β) : (some a >>= f) = f a :=
  rfl

theorem none_bind {α β : Type} (f : α → Option β) : (none >>= f) = none :=
  rfl

theorem bind_none {α β : Type} (x : Option α) : (x >>= fun _ => (none : Option β)) = none :=
  Option.bind_fun_none x

namespace Decimal

variable {n width most : Nat} {digits rest : List Char}

theorem isDigit_digit : ∀ d < 10, (digit d).isDigit = true := by
  decide

theorem toNat_digit : ∀ d < 10, (digit d).toNat - 48 = d := by
  decide

theorem value_append (more : List Char) :
    value (digits ++ more) = more.foldl (fun n c => 10 * n + (c.toNat - 48)) (value digits) :=
  List.foldl_append

theorem isDigit_natural (n : Nat) : ∀ c ∈ natural n, c.isDigit = true := by
  induction n using natural.induct with
  | case1 n small =>
    rw [natural, if_pos small]
    exact List.forall_mem_singleton.mpr (isDigit_digit n small)
  | case2 n large ih =>
    rw [natural, if_neg large]
    exact List.forall_mem_append.mpr ⟨ih, List.forall_mem_singleton.mpr (isDigit_digit _ (by omega))⟩

theorem value_natural (n : Nat) : value (natural n) = n := by
  induction n using natural.induct with
  | case1 n small =>
    rw [natural, if_pos small]
    simp [value, toNat_digit n small]
  | case2 n large ih =>
    rw [natural, if_neg large, value_append, ih]
    simp only [List.foldl_cons, List.foldl_nil, toNat_digit (n % 10) (by omega)]
    omega

theorem natural_injective : Function.Injective natural :=
  Function.LeftInverse.injective value_natural

/-- A number is written in digits, behind a sign if it is negative. -/
theorem of_mem_integer {i : Int} {c : Char} (member : c ∈ integer i) : c = '-' ∨ c.isDigit = true := by
  cases i with
  | ofNat n => exact .inr (isDigit_natural n c member)
  | negSucc n => exact (List.mem_cons.mp member).imp_right (isDigit_natural (n + 1) c)

theorem integer_injective : Function.Injective integer := by
  have signed : ∀ m n, natural m ≠ '-' :: natural n := fun m n same =>
    absurd (isDigit_natural m '-' (same ▸ List.mem_cons_self)) (by decide)
  intro i j same
  match i, j with
  | .ofNat m, .ofNat n => exact congrArg Int.ofNat (natural_injective same)
  | .negSucc m, .negSucc n => exact congrArg Int.negSucc (Nat.succ.inj (natural_injective (List.cons.inj same).2))
  | .ofNat m, .negSucc n => exact absurd same (signed m (n + 1))
  | .negSucc m, .ofNat n => exact absurd same.symm (signed n (m + 1))

theorem head?_natural (positive : 0 < n) : (natural n).head? ≠ some '0' := by
  have nonzero : ∀ d < 10, 0 < d → some (digit d) ≠ some '0' := by decide
  induction n using natural.induct with
  | case1 n small =>
    rw [natural, if_pos small]
    exact nonzero n small positive
  | case2 n large ih =>
    rw [natural, if_neg large, List.head?_append, List.head?_eq_some_head (natural_ne_nil _), Option.some_or,
      ← List.head?_eq_some_head (natural_ne_nil _)]
    exact ih (by omega)

theorem length_natural_le (positive : 0 < width) (small : n < 10 ^ width) : (natural n).length ≤ width := by
  induction n using natural.induct generalizing width with
  | case1 n one =>
    rw [natural, if_pos one]
    exact positive
  | case2 n large ih =>
    obtain ⟨less, rfl⟩ := Nat.exists_eq_succ_of_ne_zero (Nat.ne_of_gt positive)
    rw [Nat.pow_succ] at small
    cases less with
    | zero => exact absurd small large
    | succ less =>
      have shorter := ih (Nat.succ_pos less) (Nat.div_lt_of_lt_mul (by omega))
      rw [natural, if_neg large, List.length_append, List.length_singleton]
      omega

theorem isDigit_padded (width n : Nat) : ∀ c ∈ padded width n, c.isDigit = true := by
  refine List.forall_mem_append.mpr ⟨fun c member => ?_, isDigit_natural n⟩
  rw [List.eq_of_mem_replicate member]
  rfl

theorem value_padded (width n : Nat) : value (padded width n) = n := by
  have zeros : ∀ k : Nat, value (List.replicate k '0') = 0 := by
    intro k
    induction k with
    | zero => rfl
    | succ k ih => simpa [value, List.replicate_succ] using ih
  rw [padded, value_append, zeros]
  exact value_natural n

theorem padded_ne_nil (width n : Nat) : padded width n ≠ [] :=
  List.append_ne_nil_of_right_ne_nil _ (natural_ne_nil n)

theorem length_padded (positive : 0 < width) (small : n < 10 ^ width) : (padded width n).length = width := by
  have short := length_natural_le positive small
  rw [padded, List.length_append, List.length_replicate]
  omega

/-- Digits are read up to the greatest number of them, or to something else than a digit. -/
theorem read?_append (all : ∀ c ∈ digits, c.isDigit = true) (some : digits ≠ []) (short : digits.length ≤ most)
    (stop : digits.length = most ∨ ∀ c ∈ rest.head?, c.isDigit = false) :
    read? most (digits ++ rest) = .some (value digits, rest) := by
  have after : (rest.take (most - digits.length)).takeWhile Char.isDigit = [] := by
    rcases stop with full | other
    · rw [full, Nat.sub_self, List.take_zero, List.takeWhile_nil]
    · cases rest with
      | nil => simp
      | cons c more =>
        cases most - digits.length with
        | zero => rfl
        | succ k => rw [List.take_succ_cons, List.takeWhile_cons, other c rfl, if_neg Bool.false_ne_true]
  have front : ((digits ++ rest).take most).takeWhile Char.isDigit = digits := by
    rw [List.take_append, List.take_of_length_le short, List.takeWhile_append_of_pos all, after, List.append_nil]
  rw [read?, front]
  simp only [if_neg some, List.drop_left]

/-- A number that has been filled up is read back if it is as wide as a number may be there, or if no digit follows. -/
theorem read?_padded (short : (padded width n).length ≤ most)
    (stop : (padded width n).length = most ∨ ∀ c ∈ rest.head?, c.isDigit = false) :
    read? most (padded width n ++ rest) = some (n, rest) := by
  rw [read?_append (isDigit_padded width n) (padded_ne_nil width n) short stop, value_padded]

theorem readAll?_padded (stop : ∀ c ∈ rest.head?, c.isDigit = false) :
    readAll? (padded width n ++ rest) = some (n, rest) := by
  refine read?_padded ?_ (.inr stop)
  rw [List.length_append]
  exact Nat.le_add_right _ _

end Decimal

end ModelCatalog
