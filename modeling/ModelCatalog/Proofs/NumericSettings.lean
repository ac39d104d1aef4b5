import ModelCatalog.Proofs.Numerals
import ModelCatalog.Proofs.PasswordMasking
import ModelCatalog.Proofs.TransactionRun
import ModelCatalog.Settings.Connection

namespace ModelCatalog.Settings

open Decimal (Numeral)

variable {default greatest n : Nat} {text : Option String} {lookup other : String → Option String} {s : Settings}

/-- The number that a variable sets is the one that its text denotes. A default stands in for a variable that is
missing, for a text that is no numeral and for a number above the greatest one. -/
inductive Sets (default greatest : Nat) (text : Option String) : Nat → Prop
  | given {chars : String} {n : Nat} (set : text = some chars) (numeral : Numeral chars.toList n)
      (within : n ≤ greatest) : Sets default greatest text n
  | fallback (unusable : ∀ chars n, text = some chars → Numeral chars.toList n → greatest < n) :
      Sets default greatest text default

/-- A text of zeros, perhaps behind one plus sign. -/
def AllZeros (text : String) : Prop :=
  ∃ k, text.toList = List.replicate (k + 1) '0' ∨ text.toList = '+' :: List.replicate (k + 1) '0'

theorem numeral_zero_iff {chars : String} : Numeral chars.toList 0 ↔ AllZeros chars := by
  constructor
  · intro numeral
    generalize same : chars.toList = cs at numeral
    cases numeral with
    | plain denotes =>
      obtain ⟨k, rfl⟩ := Decimal.denotes_zero_iff.mp denotes
      exact ⟨k, .inl same⟩
    | plus denotes =>
      obtain ⟨k, rfl⟩ := Decimal.denotes_zero_iff.mp denotes
      exact ⟨k, .inr same⟩
  · rintro ⟨k, zeros | zeros⟩ <;> rw [zeros]
    · exact .plain (Decimal.denotes_zero_iff.mpr ⟨k, rfl⟩)
    · exact .plus (Decimal.denotes_zero_iff.mpr ⟨k, rfl⟩)

theorem sets_numberOr (default greatest : Nat) (text : Option String) :
    Sets default greatest text (numberOr default ⟨0, greatest⟩ text) := by
  cases read : text.bind fun s => Decimal.inRange? ⟨0, greatest⟩ s.toList with
  | some i =>
    obtain ⟨chars, set, inside⟩ := Option.bind_eq_some_iff.mp read
    obtain ⟨n, rfl, numeral, within⟩ := (Decimal.inRange?_eq_some_iff rfl).mp inside
    rw [numberOr, read]
    exact .given set numeral (Int.ofNat_le.mp (Range.has_iff.mp within).2)
  | none =>
    rw [numberOr, read]
    refine .fallback fun chars n set numeral => ?_
    by_contra small
    have within : (Range.mk 0 greatest).has n = true := Range.has_iff.mpr ⟨by simp, by simpa using small⟩
    have inside := (Decimal.inRange?_eq_some_iff (r := ⟨0, greatest⟩) rfl).mpr ⟨n, rfl, numeral, within⟩
    subst set
    cases inside.symm.trans read

theorem Sets.le (sets : Sets default greatest text n) (small : default ≤ greatest) : n ≤ greatest := by
  cases sets with
  | given _ _ within => exact within
  | fallback => exact small

theorem Sets.eq_zero_iff (sets : Sets default greatest text n) (positive : 0 < default) :
    n = 0 ↔ ∃ chars, text = some chars ∧ AllZeros chars := by
  constructor
  · rintro rfl
    cases sets with
    | given set numeral => exact ⟨_, set, numeral_zero_iff.mp numeral⟩
    | fallback => exact absurd positive (Nat.lt_irrefl 0)
  · rintro ⟨chars, set, zeros⟩
    have zero := numeral_zero_iff.mpr zeros
    cases sets with
    | given set' numeral =>
      cases set.symm.trans set'
      exact numeral.unique zero
    | fallback unusable => exact absurd (unusable chars 0 set zero) (Nat.not_lt_zero _)

/-- The numbers of settings, and of a pool made from them, are those that two variables set. There is at least one
connection, and no more than a number of 32 bits counts. -/
structure Numbered (lookup : String → Option String) (s : Settings) : Prop where
  connections : Sets 10 4294967295 (lookup "MAX_CONNECTIONS") s.maxConnections
  positive : 1 ≤ s.maxConnections
  bounded : s.maxConnections ≤ 4294967295
  timeout : Sets 5 18446744073709551615 (lookup "POOL_TIMEOUT_SECS") s.timeoutSeconds
  pool : ∀ pool, s.pool = .ok pool → pool = ⟨0, s.maxConnections⟩

theorem sets_connections (lookup : String → Option String) :
    Sets 10 4294967295 (lookup "MAX_CONNECTIONS") (described lookup).maxConnections :=
  sets_numberOr 10 4294967295 _

theorem numbered_described (usable : (described lookup).maxConnections ≠ 0) : Numbered lookup (described lookup) where
  connections := sets_connections lookup
  positive := Nat.one_le_iff_ne_zero.mpr usable
  bounded := (sets_connections lookup).le (by decide)
  timeout := sets_numberOr 5 18446744073709551615 _
  pool pool made := by
    obtain ⟨_, _, made⟩ := bind_eq_ok.mp made
    split at made
    · cases made
    · exact (Except.ok.inj made).symm

/-- Settings are refused for their numbers only where zero connections are asked for. Otherwise the numbers are those
of the variables, or the defaults for what is no number in its range, and no other variable has a part in that. -/
theorem numbers_usable (lookup : String → Option String) :
    (∀ e, ofVariables lookup = .error e ↔
      e = .noConnections ∧ ∃ text, lookup "MAX_CONNECTIONS" = some text ∧ AllZeros text) ∧
    ((¬∃ text, lookup "MAX_CONNECTIONS" = some text ∧ AllZeros text) →
      ∃ s, ofVariables lookup = .ok s ∧ Numbered lookup s) ∧
    ∀ other : String → Option String,
      (other "MAX_CONNECTIONS" = lookup "MAX_CONNECTIONS" →
        (ofVariables other).map maxConnections = (ofVariables lookup).map maxConnections) ∧
      (other "POOL_TIMEOUT_SECS" = lookup "POOL_TIMEOUT_SECS" → ∀ s s', ofVariables lookup = .ok s →
        ofVariables other = .ok s' → s'.timeoutSeconds = s.timeoutSeconds) := by
  have zero := (sets_connections lookup).eq_zero_iff (by decide)
  refine ⟨fun e => ?_, fun asked => ?_, fun other => ⟨fun same => ?_, fun same s s' made made' => ?_⟩⟩
  · rw [ofVariables_eq, ← zero]
    split
    · exact ⟨fun refused => ⟨(Except.error.inj refused).symm, ‹_›⟩, fun both => congrArg _ both.1.symm⟩
    · exact iff_of_false nofun fun both => ‹¬_› both.2
  · have usable : (described lookup).maxConnections ≠ 0 := fun none => asked (zero.mp none)
    exact ⟨_, ofVariables_eq_ok_iff.mpr ⟨usable, rfl⟩, numbered_described usable⟩
  · have number : (described other).maxConnections = (described lookup).maxConnections :=
      congrArg (numberOr 10 .unsigned32) same
    rw [ofVariables_eq, ofVariables_eq, number]
    split
    · rfl
    · exact congrArg Except.ok number
  · obtain ⟨-, rfl⟩ := ofVariables_eq_ok_iff.mp made
    obtain ⟨-, rfl⟩ := ofVariables_eq_ok_iff.mp made'
    exact congrArg (numberOr 5 .unsigned64) same

/-- Variables with the greatest number of connections behind a sign and zeros, and with a time that is too long. -/
def crowded (host : Option String) (name : String) : Option String :=
  if name = "DB_HOST" then host
  else [("MAX_CONNECTIONS", "+0004294967295"), ("POOL_TIMEOUT_SECS", "18446744073709551616")].lookup name

theorem crowded_usable :
    (∃ s s', ofVariables (crowded none) = .ok s ∧ Numbered (crowded none) s ∧ s.maxConnections = 4294967295 ∧
      s.timeoutSeconds = 5 ∧ ofVariables (crowded (some "h")) = .ok s' ∧ s'.maxConnections = 4294967295 ∧
      s'.timeoutSeconds = 5) ∧
    ofVariables (fun _ => some "+00") = .error .noConnections := by
  obtain ⟨-, usable, apart⟩ := numbers_usable (crowded none)
  obtain ⟨refused, -, -⟩ := numbers_usable fun _ => some "+00"
  have asked : ¬∃ text, crowded none "MAX_CONNECTIONS" = some text ∧ AllZeros text := fun zeros =>
    absurd (((sets_connections (crowded none)).eq_zero_iff (by decide)).mpr zeros) (by decide +kernel)
  obtain ⟨s, made, numbered⟩ := usable asked
  obtain ⟨connections, timeout⟩ := apart (crowded (some "h"))
  have greatest : s.maxConnections = 4294967295 := by
    rw [← (ofVariables_eq_ok_iff.mp made).2]
    decide +kernel
  have default : s.timeoutSeconds = 5 := by
    rw [← (ofVariables_eq_ok_iff.mp made).2]
    decide +kernel
  have same := connections rfl
  rw [made] at same
  cases made' : ofVariables (crowded (some "h")) with
  | error e => cases made' ▸ same
  | ok s' =>
    rw [made'] at same
    exact ⟨⟨s, s', made, numbered, greatest, default, rfl, (Except.ok.inj same).trans greatest,
      (timeout rfl s s' made made').trans default⟩, (refused _).mpr ⟨rfl, "+00", rfl, 1, .inr (by decide)⟩⟩

end ModelCatalog.Settings
