import Mathlib.Computability.RegularExpressions
import Mathlib.Data.String.Basic
import ModelCatalog.SchemaName
import ModelCatalog.Text.Blank

namespace ModelCatalog.SchemaName

/-- One of some characters. -/
def anyOf (chars : List Char) : RegularExpression Char :=
  (chars.map .char).sum

/-- The letters from `a` to `z` and the underscore. -/
def initials : List Char :=
  "abcdefghijklmnopqrstuvwxyz_".toList

/-- The characters with which a name goes on. -/
def followers : List Char :=
  initials ++ "0123456789".toList

/-- The grammar of schema names, which is `[a-z_][a-z0-9_]{0,62}`. -/
def grammar : RegularExpression Char :=
  anyOf initials * (1 + anyOf followers) ^ 62

def IsWellFormed (name : String) : Prop :=
  name.toList ∈ grammar.matches'

variable {chars word : List Char} {name : String} {c : Char}

theorem mem_anyOf : word ∈ (anyOf chars).matches' ↔ ∃ c ∈ chars, word = [c] := by
  induction chars with
  | nil => exact iff_of_false (Language.notMem_zero word) (by simp)
  | cons c rest ih =>
    have whole : (anyOf (c :: rest)).matches' = {[c]} + (anyOf rest).matches' := by
      rw [anyOf, List.map_cons, List.sum_cons]
      rfl
    rw [whole, Language.mem_add, ih, List.exists_mem_cons_iff]
    exact Iff.rfl

/-- Up to `n` characters of a class, as each of `n` places is taken or left out. -/
theorem mem_optional_pow (n : Nat) : word ∈ ((1 + anyOf chars) ^ n).matches' ↔
    word.length ≤ n ∧ ∀ c ∈ word, c ∈ chars := by
  induction n generalizing word with
  | zero =>
    rw [RegularExpression.matches'_pow, pow_zero, Language.mem_one]
    constructor
    · rintro rfl
      exact ⟨Nat.le_refl 0, nofun⟩
    · exact fun short => List.length_eq_zero_iff.mp (Nat.le_zero.mp short.1)
  | succ n ih =>
    rw [RegularExpression.matches'_pow, pow_succ', ← RegularExpression.matches'_pow, Language.mem_mul]
    simp only [ih, RegularExpression.matches'_add, Language.mem_add, RegularExpression.matches'_epsilon,
      Language.mem_one, mem_anyOf]
    constructor
    · rintro ⟨first, rfl | ⟨c, inside, rfl⟩, rest, ⟨short, all⟩, rfl⟩
      · exact ⟨Nat.le_succ_of_le short, all⟩
      · exact ⟨Nat.succ_le_succ short, List.forall_mem_cons.mpr ⟨inside, all⟩⟩
    · rintro ⟨short, all⟩
      cases word with
      | nil => exact ⟨[], .inl rfl, [], ⟨Nat.zero_le n, nofun⟩, rfl⟩
      | cons c rest =>
        obtain ⟨inside, all⟩ := List.forall_mem_cons.mp all
        exact ⟨[c], .inr ⟨c, inside, rfl⟩, rest, ⟨Nat.le_of_succ_le_succ short, all⟩, rfl⟩

theorem mem_grammar : word ∈ grammar.matches' ↔
    ∃ c ∈ initials, ∃ rest, word = c :: rest ∧ rest.length ≤ 62 ∧ ∀ c ∈ rest, c ∈ followers := by
  rw [grammar, RegularExpression.matches'_mul, Language.mem_mul]
  simp only [mem_anyOf, mem_optional_pow]
  constructor
  · rintro ⟨_, ⟨c, initial, rfl⟩, rest, goesOn, rfl⟩
    exact ⟨c, initial, rest, rfl, goesOn⟩
  · rintro ⟨c, initial, rest, rfl, goesOn⟩
    exact ⟨[c], ⟨c, initial, rfl⟩, rest, goesOn, rfl⟩

/-- The upper end of a range of characters, of which `Char.isLower` and `Char.isDigit` are two. -/
theorem toNat_le_of_within {low : Bool} {high : UInt32} (within : (low && c.val ≤ high) = true) :
    c.toNat ≤ high.toNat :=
  UInt32.le_iff_toNat_le.mp (of_decide_eq_true (Bool.and_eq_true_iff.mp within).2)

/-- A test that only small characters pass tells a list of small characters if it does so below 123. -/
theorem test_iff_mem (test : Char → Bool) (passed : ∀ c, test c = true → c.toNat < 123)
    (listed : chars.all (·.toNat < 123) = true)
    (small : ∀ n < 123, test (Char.ofNat n) = chars.contains (Char.ofNat n)) : test c = true ↔ c ∈ chars := by
  have same : c.toNat < 123 → test c = chars.contains c := fun low => by
    have here := small c.toNat low
    rwa [Char.ofNat_toNat] at here
  constructor
  · intro pass
    rw [same (passed c pass)] at pass
    exact List.contains_iff_mem.mp pass
  · intro member
    rw [same (of_decide_eq_true (List.all_eq_true.mp listed c member))]
    exact List.contains_iff_mem.mpr member

theorem initial_iff : (c.isLower || c == '_') = true ↔ c ∈ initials := by
  refine test_iff_mem (fun c => c.isLower || c == '_') (fun c passed => ?_) (by decide) (by decide +kernel)
  rcases Bool.or_eq_true_iff.mp passed with lower | underscore
  · exact Nat.lt_succ_of_le (toNat_le_of_within lower)
  · rw [eq_of_beq underscore]
    decide

theorem follower_iff : (c.isLower || c.isDigit || c == '_') = true ↔ c ∈ followers := by
  refine test_iff_mem (fun c => c.isLower || c.isDigit || c == '_') (fun c passed => ?_) (by decide)
    (by decide +kernel)
  rcases Bool.or_eq_true_iff.mp passed with letterOrDigit | underscore
  · rcases Bool.or_eq_true_iff.mp letterOrDigit with lower | digit
    · exact Nat.lt_succ_of_le (toNat_le_of_within lower)
    · exact Nat.lt_of_le_of_lt (toNat_le_of_within digit) (by decide)
  · rw [eq_of_beq underscore]
    decide

theorem isIdentifier_iff : isIdentifier name = true ↔ IsWellFormed name := by
  rw [IsWellFormed, mem_grammar, isIdentifier]
  cases name.toList with
  | nil => exact iff_of_false Bool.false_ne_true nofun
  | cons c rest =>
    simp only [Bool.and_eq_true, List.all_eq_true, follower_iff, initial_iff, decide_eq_true_eq]
    constructor
    · rintro ⟨⟨initial, all⟩, short⟩
      exact ⟨c, initial, rest, rfl, short, all⟩
    · rintro ⟨_, initial, _, ⟨⟩, short, all⟩
      exact ⟨⟨initial, all⟩, short⟩

theorem length_le_utf8Len (word : List Char) : word.length ≤ String.utf8Len word := by
  induction word with
  | nil => exact Nat.le_refl 0
  | cons c rest ih =>
    rw [List.length_cons, String.utf8Len_cons]
    exact Nat.add_le_add ih c.utf8Size_pos

/-- A follower is a character of ASCII, and takes one byte. -/
theorem utf8Size_of_mem (member : c ∈ followers) : c.utf8Size = 1 := by
  have all : followers.all (·.utf8Size == 1) = true := by decide
  exact eq_of_beq (List.all_eq_true.mp all c member)

theorem utf8Len_of_followers (all : ∀ c ∈ word, c ∈ followers) : String.utf8Len word = word.length := by
  induction word with
  | nil => rfl
  | cons c rest ih =>
    obtain ⟨inside, all⟩ := List.forall_mem_cons.mp all
    rw [List.length_cons, String.utf8Len_cons, ih all, utf8Size_of_mem inside]

/-- The limit of 63 is the same in characters and in bytes, because a longer character is in no name. -/
theorem isWellFormed_iff_bytes : IsWellFormed name ↔
    name.utf8ByteSize ≤ 63 ∧ (∃ c ∈ initials, name.toList.head? = some c) ∧ ∀ c ∈ name.toList, c ∈ followers := by
  rw [IsWellFormed, mem_grammar, ← String.utf8Len_toList]
  constructor
  · rintro ⟨c, initial, rest, whole, short, all⟩
    have goesOn : ∀ c ∈ name.toList, c ∈ followers := by
      rw [whole]
      exact List.forall_mem_cons.mpr ⟨List.mem_append_left _ initial, all⟩
    refine ⟨?_, ⟨c, initial, congrArg List.head? whole⟩, goesOn⟩
    rw [utf8Len_of_followers goesOn, whole]
    exact Nat.succ_le_succ short
  · rintro ⟨short, ⟨c, initial, head⟩, all⟩
    obtain ⟨rest, whole⟩ := List.head?_eq_some_iff.mp head
    have long := (length_le_utf8Len name.toList).trans short
    rw [whole] at long all
    exact ⟨c, initial, rest, whole, Nat.le_of_succ_le_succ long, (List.forall_mem_cons.mp all).2⟩

theorem IsWellFormed.followers (wellFormed : IsWellFormed name) : ∀ c ∈ name.toList, c ∈ followers :=
  (isWellFormed_iff_bytes.mp wellFormed).2.2

/-- Nothing in a name ends it, or the option or command in which it stands without quotes. -/
theorem plain_of_mem (member : c ∈ followers) : c.toNat < 128 ∧ c ∉ [' ', '\'', '"', ';', '='] := by
  have all : followers.all (fun c => c.toNat < 128 ∧ c ∉ [' ', '\'', '"', ';', '=']) = true := by decide
  exact of_decide_eq_true (List.all_eq_true.mp all c member)

theorem isBlank_of_mem (member : c ∈ followers) : isBlank c = false := by
  have all : followers.all (!isBlank ·) = true := by decide
  simpa using List.all_eq_true.mp all c member

end ModelCatalog.SchemaName
