import Mathlib.Data.List.Infix
import ModelCatalog.Text.Search

namespace ModelCatalog

variable {pattern text before after : List Char} {mark : Char} {i j : Nat}

theorem splitFirst_eq_none_iff : splitFirst pattern text = none ↔ ¬pattern <:+: text := by
  induction text with
  | nil => simp [splitFirst]
  | cons c rest ih =>
    rw [splitFirst, List.infix_cons_iff, not_or, ← List.isPrefixOf_iff_prefix]
    split
    · rename_i here
      simp [here]
    · rename_i notHere
      rw [Option.map_eq_none_iff, ih]
      exact (and_iff_right notHere).symm

/-- A text occurs in another one if it is a contiguous run of its code points. -/
theorem occursIn_iff {needle text : String} : occursIn needle text = true ↔ needle.toList <:+: text.toList := by
  rw [occursIn, Option.isSome_iff_ne_none, ne_eq, splitFirst_eq_none_iff, not_not]

/-- A pattern is found where it stands if its first character does not stand before. -/
theorem splitFirst_append (absent : mark ∉ before) :
    splitFirst (mark :: pattern) (before ++ mark :: (pattern ++ after)) = some (before, after) := by
  induction before with
  | nil =>
    have here : (mark :: pattern).isPrefixOf (mark :: (pattern ++ after)) = true :=
      List.isPrefixOf_iff_prefix.mpr (List.prefix_append (mark :: pattern) after)
    simp [splitFirst, here]
  | cons c rest ih =>
    obtain ⟨other, absent⟩ := not_or.mp (List.mem_cons.not.mp absent)
    have notHere : (mark :: pattern).isPrefixOf (c :: (rest ++ mark :: (pattern ++ after))) = false := by
      simp [List.isPrefixOf, other]
    rw [List.cons_append, splitFirst, if_neg (ne_true_of_eq_false notHere), ih absent]
    rfl

/-- A pattern in which its first character does not come again is found where it stands if it does not stand before. -/
theorem splitFirst_append_of_not_infix (single : mark ∉ pattern) (absent : ¬mark :: pattern <:+: before) :
    splitFirst (mark :: pattern) (before ++ mark :: (pattern ++ after)) = some (before, after) := by
  induction before with
  | nil => exact splitFirst_append List.not_mem_nil
  | cons c rest ih =>
    have later : ¬mark :: pattern <:+: rest := fun inside => absent (inside.trans (List.suffix_cons c rest).isInfix)
    have notHere : ¬mark :: pattern <+: c :: (rest ++ mark :: (pattern ++ after)) := by
      intro here
      obtain ⟨rfl, start⟩ := List.cons_prefix_cons.mp here
      -- The pattern would end before the place where it stands, or have its first character there once more.
      have reaches : rest ++ [mark] <+: rest ++ mark :: (pattern ++ after) := by simp
      rcases List.prefix_or_prefix_of_prefix start reaches with short | long
      · rcases List.prefix_concat_iff.mp short with full | inside
        · exact single (full ▸ List.mem_concat_self)
        · exact absent (List.cons_prefix_cons.mpr ⟨rfl, inside⟩).isInfix
      · exact single (long.subset List.mem_concat_self)
    rw [List.cons_append, splitFirst, if_neg (List.isPrefixOf_iff_prefix.not.mpr notHere), ih later]
    rfl

/-- A pattern starts at this place of a text, and nowhere before it. -/
def FirstAt (pattern text : List Char) (i : Nat) : Prop :=
  pattern <+: text.drop i ∧ ∀ j < i, ¬pattern <+: text.drop j

/-- A mark stands at this place of a text, and nowhere after it. -/
def LastAt (mark : Char) (text : List Char) (i : Nat) : Prop :=
  text[i]? = some mark ∧ ∀ j > i, text[j]? ≠ some mark

theorem FirstAt.unique (one : FirstAt pattern text i) (other : FirstAt pattern text j) : i = j := by
  rcases Nat.lt_trichotomy i j with less | same | more
  · exact absurd one.1 (other.2 i less)
  · exact same
  · exact absurd other.1 (one.2 j more)

theorem FirstAt.infix (first : FirstAt pattern text i) : pattern <:+: text :=
  first.1.isInfix.trans (List.drop_suffix i text).isInfix

theorem splitFirst_eq_some (found : splitFirst pattern text = some (before, after)) :
    text = before ++ pattern ++ after ∧ FirstAt pattern text before.length := by
  induction text generalizing before with
  | nil =>
    rw [splitFirst] at found
    split at found
    · rename_i empty
      subst empty
      cases found
      exact ⟨rfl, List.nil_prefix, fun _ less => absurd less (Nat.not_lt_zero _)⟩
    · cases found
  | cons c rest ih =>
    rw [splitFirst] at found
    split at found
    · rename_i here
      cases found
      have start := List.isPrefixOf_iff_prefix.mp here
      exact ⟨(List.prefix_iff_eq_append.mp start).symm, start, fun _ less => absurd less (Nat.not_lt_zero _)⟩
    · rename_i notHere
      obtain ⟨⟨front, tail⟩, later, same⟩ := Option.map_eq_some_iff.mp found
      cases same
      obtain ⟨whole, first, least⟩ := ih later
      refine ⟨congrArg (c :: ·) whole, first, fun j less => ?_⟩
      cases j with
      | zero => exact fun start => notHere (List.isPrefixOf_iff_prefix.mpr start)
      | succ j => exact least j (Nat.lt_of_succ_lt_succ less)

/-- What stands before the first occurrence of a pattern does not hold it. -/
theorem not_infix_of_splitFirst (some : pattern ≠ []) (found : splitFirst pattern text = .some (before, after)) :
    ¬pattern <:+: before := by
  obtain ⟨rfl, -, least⟩ := splitFirst_eq_some found
  rintro ⟨front, tail, rfl⟩
  refine least front.length ?_ ?_
  · have positive := List.length_pos_iff.mpr some
    simp only [List.length_append]
    omega
  · rw [List.append_assoc, List.append_assoc, List.append_assoc, List.drop_left]
    exact List.prefix_append _ _

theorem splitLast_eq_none_iff : splitLast mark text = none ↔ mark ∉ text := by
  induction text with
  | nil => simp [splitLast]
  | cons c rest ih =>
    rw [List.mem_cons, not_or, ← ih, splitLast]
    cases later : splitLast mark rest with
    | some parts => simp
    | none => simp [eq_comm]

theorem splitLast_append (absent : mark ∉ after) :
    splitLast mark (before ++ mark :: after) = some (before, after) := by
  induction before with
  | nil => simp [splitLast, splitLast_eq_none_iff.mpr absent]
  | cons c rest ih => rw [List.cons_append, splitLast, ih]

theorem splitLast_eq_some_iff :
    splitLast mark text = some (before, after) ↔ text = before ++ mark :: after ∧ mark ∉ after := by
  refine ⟨fun found => ?_, fun ⟨whole, absent⟩ => whole ▸ splitLast_append absent⟩
  induction text generalizing before with
  | nil => cases found
  | cons c rest ih =>
    rw [splitLast] at found
    cases later : splitLast mark rest with
    | some parts =>
      obtain ⟨front, last⟩ := parts
      rw [later] at found ih
      cases found
      obtain ⟨whole, absent⟩ := ih rfl
      exact ⟨congrArg (c :: ·) whole, absent⟩
    | none =>
      simp only [later] at found
      split at found
      · rename_i same
        cases found
        exact ⟨congrArg (· :: after) same, splitLast_eq_none_iff.mp later⟩
      · cases found

theorem lastAt_append (absent : mark ∉ after) : LastAt mark (before ++ mark :: after) before.length := by
  refine ⟨by simp, fun j more there => absent ?_⟩
  rw [List.getElem?_append_right (Nat.le_of_lt more)] at there
  obtain ⟨k, place⟩ : ∃ k, j - before.length = k + 1 := ⟨j - before.length - 1, by omega⟩
  rw [place, List.getElem?_cons_succ] at there
  exact List.mem_of_getElem? there

/-- Where a mark follows a text, the first one there is comes after a part of the text. -/
theorem exists_first (mark : Char) (text : List Char) :
    ∃ before rest, text ++ [mark] = before ++ mark :: rest ∧ before <+: text ∧ mark ∉ before := by
  obtain ⟨before, rest, whole, absent⟩ := List.eq_append_cons_of_mem (show mark ∈ text ++ [mark] by simp)
  refine ⟨before, rest, whole, ?_, absent⟩
  have lengths := congrArg List.length whole
  simp only [List.length_append, List.length_cons, List.length_nil] at lengths
  exact List.prefix_of_prefix_length_le ⟨_, whole.symm⟩ ⟨_, rfl⟩ (by omega)

theorem exists_last (mark : Char) (text : List Char) :
    ∃ gap after, mark :: text = gap ++ mark :: after ∧ after <:+ text ∧ mark ∉ after := by
  cases found : splitLast mark (mark :: text) with
  | none => exact absurd List.mem_cons_self (splitLast_eq_none_iff.mp found)
  | some parts =>
    obtain ⟨gap, after⟩ := parts
    obtain ⟨whole, absent⟩ := splitLast_eq_some_iff.mp found
    refine ⟨gap, after, whole, ?_, absent⟩
    have lengths := congrArg List.length whole
    simp only [List.length_append, List.length_cons] at lengths
    exact List.suffix_of_suffix_length_le ⟨gap ++ [mark], by rw [List.append_assoc]; exact whole.symm⟩
      (List.suffix_cons _ _) (by omega)

end ModelCatalog
