namespace ModelCatalog

/-- The integers from `least` to `greatest`, both included. -/
structure Range where
  least : Int
  greatest : Int

namespace Range

def has (r : Range) (i : Int) : Bool :=
  r.least ≤ i && i ≤ r.greatest

/-- The range of version numbers, counters and tag positions. -/
def signed32 : Range := ⟨-2147483648, 2147483647⟩

def signed64 : Range := ⟨-9223372036854775808, 9223372036854775807⟩

def unsigned16 : Range := ⟨0, 65535⟩

def unsigned32 : Range := ⟨0, 4294967295⟩

def unsigned64 : Range := ⟨0, 18446744073709551615⟩

/-- A count as an integer of 32 bits: past the greatest one it goes on from the least. -/
def wrap32 (n : Nat) : Int :=
  Int.bmod n 4294967296

theorem has_iff {r : Range} {i : Int} : r.has i = true ↔ r.least ≤ i ∧ i ≤ r.greatest := by
  simp [has]

theorem wrap32_of_lt {n : Nat} (h : n < 2147483648) : wrap32 n = n := by
  unfold wrap32
  rw [Int.bmod_def]
  split <;> omega

theorem has_wrap32 (n : Nat) : signed32.has (wrap32 n) = true := by
  have inside : -2147483648 ≤ wrap32 n ∧ wrap32 n ≤ 2147483647 := by
    unfold wrap32
    rw [Int.bmod_def]
    split <;> omega
  exact has_iff.mpr inside

end Range

end ModelCatalog
