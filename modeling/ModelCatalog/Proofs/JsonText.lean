import ModelCatalog.Json.Printer
import ModelCatalog.Json.Reader
import ModelCatalog.Proofs.DecimalDigits
import ModelCatalog.Proofs.PercentTriples

namespace ModelCatalog.Json

open Percent (hexDigit)

variable {v : Value} {vs : List Value} {ms : List (Option String × Value)} {c : Char} {s s' rest : List Char}
  {key : String} {level fuel k : Nat}

/-- A piece that puts one character in front of the text of the pieces after it. -/
def Piece.Spells (p : Piece) (c : Char) : Prop :=
  ∀ more, assemble? (p :: more) = (assemble? more).map (c :: ·)

theorem spells_char (c : Char) : Piece.Spells (.char c) c :=
  fun _ => rfl

theorem spells_code (control : c.toNat < 32) : Piece.Spells (.code c.toNat) c := by
  intro more
  rw [assemble?.eq_def]
  simp only
  rw [if_neg (by omega), if_neg (by omega), Char.ofNat_toNat]

theorem code?_control : ∀ n < 32, code? '0' '0' (hexDigit (n / 16)) (hexDigit (n % 16)).toLower = some n := by
  decide

theorem pieces?_cons (printed : ¬c.toNat < 32) (quote : c ≠ '"') (backslash : c ≠ '\\') :
    pieces? (c :: rest) = (pieces? rest).map fun (more, rest) => (.char c :: more, rest) := by
  rw [pieces?]
  · rw [if_neg (not_or.mpr ⟨printed, backslash⟩)]
    cases pieces? rest <;> rfl
  all_goals simp [quote, backslash]

/-- What is written for a character is read as one piece. -/
theorem exists_piece (c : Char) : ∃ p : Piece, p.Spells c ∧
    ∀ rest, pieces? (escape c ++ rest) = (pieces? rest).map fun (more, rest) => (p :: more, rest) := by
  unfold escape
  split
  case h_8 quote backslash _ _ _ _ _ =>
    split
    · rename_i control
      refine ⟨.code c.toNat, spells_code control, fun rest => ?_⟩
      simp only [List.cons_append, List.nil_append, pieces?, code?_control c.toNat control]
      cases pieces? rest <;> rfl
    · exact ⟨.char c, spells_char c, fun rest => pieces?_cons ‹_› quote backslash⟩
  all_goals
    refine ⟨.char _, spells_char _, fun rest => ?_⟩
    simp only [List.cons_append, List.nil_append, pieces?]
    cases pieces? rest <;> rfl

theorem pieces?_escaped (cs rest : List Char) :
    ∃ pieces, pieces? (cs.flatMap escape ++ '"' :: rest) = some (pieces, rest) ∧ assemble? pieces = some cs := by
  induction cs with
  | nil => exact ⟨[], by simp [pieces?], rfl⟩
  | cons c cs ih =>
    obtain ⟨pieces, read, whole⟩ := ih
    obtain ⟨p, spells, first⟩ := exists_piece c
    refine ⟨p :: pieces, ?_, ?_⟩
    · rw [List.flatMap_cons, List.append_assoc, first, read, Option.map_some]
    · rw [spells, whole, Option.map_some]

theorem unquote?_quote (s : String) (rest : List Char) :
    ∃ body, quote s ++ rest = '"' :: body ∧ unquote? body = some (some s, rest) := by
  obtain ⟨pieces, read, whole⟩ := pieces?_escaped s.toList rest
  refine ⟨s.toList.flatMap escape ++ '"' :: rest, by simp [quote], ?_⟩
  simp only [unquote?, read, Option.map_some, whole, String.ofList_toList]

theorem skipSpace_cons (plain : isSpace c = false) : skipSpace (c :: rest) = c :: rest := by
  rw [skipSpace, List.dropWhile_cons, plain, if_neg Bool.false_ne_true]

theorem skipSpace_newline : skipSpace (newline level ++ rest) = skipSpace rest := by
  refine List.dropWhile_append_of_pos fun c member => ?_
  rcases List.mem_cons.mp member with rfl | blank
  · rfl
  · rw [List.eq_of_mem_replicate blank]
    rfl

theorem value?_congr (same : skipSpace s = skipSpace s') : value? fuel s = value? fuel s' := by
  cases fuel with
  | zero => rw [value?, value?]
  | succ fuel => rw [value?, value?, same]

theorem elements?_congr (same : skipSpace s = skipSpace s') : elements? fuel s = elements? fuel s' := by
  cases fuel with
  | zero => rw [elements?, elements?]
  | succ fuel => rw [elements?, elements?, value?_congr same]

theorem members?_congr (same : skipSpace s = skipSpace s') : members? fuel s = members? fuel s' := by
  cases fuel with
  | zero => rw [members?, members?]
  | succ fuel => rw [members?, members?, same]

/-- Where a printed value ends: before a comma, at the end of its line, or at the end of the text. -/
def Ends (rest : List Char) : Prop :=
  ∀ c ∈ rest.head?, c = ',' ∨ c = '\n'

theorem ends_nil : Ends [] :=
  nofun

theorem ends_newline : Ends (newline level ++ rest) := by
  intro c first
  rw [newline, List.cons_append, List.head?_cons, Option.mem_some] at first
  exact .inr first.symm

theorem Ends.digits (ends : Ends rest) (all : ∀ c ∈ s, c.isDigit = true) : digits (s ++ rest) = (s, rest) := by
  have after : ∀ c ∈ rest.head?, c.isDigit = false := by
    intro c first
    rcases ends c first with rfl | rfl <;> rfl
  rw [Json.digits, List.takeWhile_append_of_pos all, List.dropWhile_append_of_pos all]
  cases rest with
  | nil => simp
  | cons c more => rw [List.takeWhile_cons, List.dropWhile_cons, after c rfl, if_neg Bool.false_ne_true,
      if_neg Bool.false_ne_true, List.append_nil]

theorem Ends.fraction? (ends : Ends rest) : fraction? rest = some ([], rest) := by
  cases rest with
  | nil => rfl
  | cons c more => rcases ends c rfl with rfl | rfl <;> rfl

theorem Ends.exponent? (ends : Ends rest) : exponent? rest = some ([], rest) := by
  cases rest with
  | nil => rfl
  | cons c more => rcases ends c rfl with rfl | rfl <;> rfl

theorem leadingZero_natural (n : Nat) :
    ¬(Decimal.natural n = [] ∨ ((Decimal.natural n).length ≠ 1 ∧ (Decimal.natural n).head? = some '0')) := by
  rintro (empty | ⟨long, zero⟩)
  · exact Decimal.natural_ne_nil n empty
  · rcases Nat.eq_zero_or_pos n with rfl | positive
    · exact long (by rw [Decimal.natural]; rfl)
    · exact Decimal.head?_natural positive zero

/-- Only a number below zero is printed with a sign, so zero is never read as a number of another kind. -/
theorem number?_integer (i : Int) (ends : Ends rest) :
    number? (Decimal.integer i ++ rest) = some (.integer i, rest) := by
  cases i with
  | ofNat n =>
    have all := Decimal.isDigit_natural n
    have unsigned : ∀ body, Decimal.natural n ++ rest ≠ '-' :: body := by
      intro body same
      cases whole : Decimal.natural n with
      | nil => exact Decimal.natural_ne_nil n whole
      | cons c more =>
        rw [whole, List.cons_append, List.cons.injEq] at same
        rw [whole, same.1] at all
        exact absurd (all '-' List.mem_cons_self) (by decide)
    have reads := number?.eq_def (Decimal.natural n ++ rest)
    split at reads
    rename_i parts
    split at parts
    · exact absurd ‹_› (unsigned _)
    cases parts
    simp only [ends.digits all, if_neg (leadingZero_natural n), ends.fraction?, ends.exponent?, Decimal.value_natural,
      Option.bind_eq_bind, Option.bind_some, Bool.false_eq_true, false_and, not_false_iff, and_self, if_true, if_false,
      Option.pure_def] at reads
    exact reads
  | negSucc n =>
    rw [Decimal.integer, List.cons_append, number?]
    simp only [ends.digits (Decimal.isDigit_natural (n + 1)), if_neg (leadingZero_natural (n + 1)), ends.fraction?,
      ends.exponent?, Decimal.value_natural, Option.bind_eq_bind, Option.bind_some, Nat.succ_ne_zero, and_false,
      not_false_iff, and_self, if_true, Option.pure_def]
    rw [Int.negSucc_eq]
    rfl

theorem isSpace_of_number (first : c.isDigit = true ∨ c = '-') : isSpace c = false := by
  simp only [isSpace, Bool.or_eq_false_iff, beq_eq_false_iff_ne]
  refine ⟨⟨⟨?_, ?_⟩, ?_⟩, ?_⟩ <;>
  · rintro rfl
    exact absurd first (by decide)

theorem value?_number (first : c.isDigit = true ∨ c = '-') : value? (fuel + 1) (c :: rest) = number? (c :: rest) := by
  rw [value?, skipSpace_cons (isSpace_of_number first)]
  split
  case h_7 => rfl
  all_goals
    rename_i same
    cases same
    exact absurd first (by decide)

/-- A value whose texts are all there and whose numbers are all integers. -/
inductive Plain : Value → Prop
  | null : Plain .null
  | boolean (b : Bool) : Plain (.boolean b)
  | integer (i : Int) : Plain (.integer i)
  | text (s : String) : Plain (.text s)
  | array {elements : List Value} (each : ∀ v ∈ elements, Plain v) : Plain (.array elements)
  | object {members : List (Option String × Value)} (keys : ∀ m ∈ members, m.1.isSome = true)
    (each : ∀ m ∈ members, Plain m.2) : Plain (.object members)

theorem head_integer (i : Int) : ∃ c more, Decimal.integer i = c :: more ∧ (c.isDigit = true ∨ c = '-') := by
  cases i with
  | ofNat n =>
    cases whole : Decimal.natural n with
    | nil => exact absurd whole (Decimal.natural_ne_nil n)
    | cons c more => exact ⟨c, more, whole, .inl (Decimal.isDigit_natural n c (whole ▸ List.mem_cons_self))⟩
  | negSucc n => exact ⟨'-', _, rfl, .inr rfl⟩

/-- No printed value starts with a space or with the bracket that ends a list. -/
theorem head_pretty (plain : Plain v) (level : Nat) :
    ∃ c more, pretty level v = c :: more ∧ isSpace c = false ∧ c ≠ ']' := by
  cases plain with
  | null => exact ⟨'n', _, by rw [pretty], rfl, by decide⟩
  | boolean b => cases b <;> exact ⟨_, _, by rw [pretty], rfl, by decide⟩
  | integer i =>
    obtain ⟨c, more, whole, first⟩ := head_integer i
    exact ⟨c, more, by rw [pretty, whole], isSpace_of_number first, fun bracket => by simp [bracket] at first⟩
  | text s => exact ⟨'"', _, by rw [Value.text, pretty, quote, List.cons_append], rfl, by decide⟩
  | @array elements each =>
    cases elements with
    | nil => exact ⟨'[', _, by rw [pretty], rfl, by decide⟩
    | cons v vs => exact ⟨'[', _, by rw [pretty]; rfl, rfl, by decide⟩
  | @object members keys each =>
    cases members with
    | nil => exact ⟨'\x7b', _, by rw [pretty], rfl, by decide⟩
    | cons m ms => exact ⟨'\x7b', _, by rw [pretty]; rfl, rfl, by decide⟩

/-- The reader gives a printed value back, and leaves what stands behind it. -/
def Reads (v : Value) : Prop :=
  ∀ level fuel rest, 2 * (pretty level v).length ≤ fuel → Ends rest →
    value? fuel (pretty level v ++ rest) = some (v, rest)

theorem ends_prettyRest : Ends (prettyRest level vs ++ (newline k ++ rest)) := by
  cases vs with
  | nil => exact ends_newline
  | cons v vs =>
    intro c first
    simp only [prettyRest, List.cons_append, List.head?_cons, Option.mem_some] at first
    exact .inl first.symm

theorem ends_prettyMembers : Ends (prettyMembers level ms ++ (newline k ++ rest)) := by
  cases ms with
  | nil => exact ends_newline
  | cons m ms =>
    intro c first
    simp only [prettyMembers, List.cons_append, List.head?_cons, Option.mem_some] at first
    exact .inl first.symm

/-- The elements up to the bracket. Each of them takes one unit of fuel besides its own, for the comma before it. -/
theorem elements?_pretty (each : ∀ w ∈ v :: vs, Reads w)
    (enough : 2 * ((pretty level v).length + (prettyRest level vs).length) < fuel) :
    elements? fuel (pretty level v ++ (prettyRest level vs ++ (newline k ++ ']' :: rest))) = some (v :: vs, rest) := by
  induction vs generalizing v fuel with
  | nil =>
    obtain ⟨fuel, rfl⟩ := Nat.exists_eq_add_one_of_ne_zero (Nat.ne_zero_of_lt enough)
    have first := each v List.mem_cons_self level fuel (newline k ++ ']' :: rest) (by omega) ends_newline
    simp only [prettyRest, List.nil_append, elements?, first, Option.bind_eq_bind, Option.bind_some, skipSpace_newline]
    rfl
  | cons w vs ih =>
    obtain ⟨fuel, rfl⟩ := Nat.exists_eq_add_one_of_ne_zero (Nat.ne_zero_of_lt enough)
    have first := each v List.mem_cons_self level fuel (prettyRest level (w :: vs) ++ (newline k ++ ']' :: rest))
      (by omega) ends_prettyRest
    have more : elements? fuel (pretty level w ++ (prettyRest level vs ++ (newline k ++ ']' :: rest))) =
        some (w :: vs, rest) := by
      refine ih (fun u member => each u (List.mem_cons_of_mem _ member)) ?_
      simp only [prettyRest, List.length_append, List.length_cons] at enough
      omega
    rw [elements?, first]
    simp only [prettyRest, List.cons_append, List.append_assoc, Option.bind_eq_bind, Option.bind_some,
      skipSpace_cons (c := ',') rfl, elements?_congr skipSpace_newline, more, Option.map_some]

/-- The steps by which a member is read: its key, and its value behind the colon. -/
theorem exists_member (reads : Reads v) (ends : Ends rest)
    (enough : 2 * (prettyMember level (some key, v)).length ≤ fuel) :
    ∃ body after, prettyMember level (some key, v) ++ rest = '"' :: body ∧
      unquote? body = some (some key, ':' :: after) ∧ value? fuel after = some (v, rest) := by
  simp only [prettyMember, Option.getD_some, List.length_append, List.length_cons] at enough
  obtain ⟨body, whole, text⟩ := unquote?_quote key (':' :: ' ' :: (pretty level v ++ rest))
  have blank : skipSpace (' ' :: (pretty level v ++ rest)) = skipSpace (pretty level v ++ rest) := rfl
  have value := reads level fuel rest (by omega) ends
  rw [← value?_congr blank] at value
  refine ⟨body, _, ?_, text, value⟩
  simp only [prettyMember, Option.getD_some, List.append_assoc, List.cons_append, whole]

/-- The members up to the brace, as for the elements of a list. -/
theorem members?_pretty (reads : Reads v) (each : ∀ m ∈ ms, m.1.isSome = true ∧ Reads m.2)
    (enough : 2 * ((prettyMember level (some key, v)).length + (prettyMembers level ms).length) < fuel) :
    members? fuel (prettyMember level (some key, v) ++ (prettyMembers level ms ++ (newline k ++ '\x7d' :: rest))) =
      some ((some key, v) :: ms, rest) := by
  induction ms generalizing key v fuel with
  | nil =>
    obtain ⟨fuel, rfl⟩ := Nat.exists_eq_add_one_of_ne_zero (Nat.ne_zero_of_lt enough)
    obtain ⟨body, after, whole, text, value⟩ :=
      @exists_member v (newline k ++ '\x7d' :: rest) key level fuel reads ends_newline (by omega)
    rw [prettyMembers, List.nil_append, whole]
    simp only [members?, skipSpace_cons (c := '"') rfl, skipSpace_cons (c := ':') rfl, text, value, some_bind,
      skipSpace_newline]
    rfl
  | cons m ms ih =>
    obtain ⟨fuel, rfl⟩ := Nat.exists_eq_add_one_of_ne_zero (Nat.ne_zero_of_lt enough)
    obtain ⟨present, read⟩ := each m List.mem_cons_self
    obtain ⟨next, known⟩ := Option.isSome_iff_exists.mp present
    obtain ⟨other, w⟩ := m
    subst known
    have more : members? fuel (prettyMember level (some next, w) ++
        (prettyMembers level ms ++ (newline k ++ '\x7d' :: rest))) = some ((some next, w) :: ms, rest) := by
      refine ih read (fun m member => each m (List.mem_cons_of_mem _ member)) ?_
      simp only [prettyMembers, List.length_append, List.length_cons] at enough
      omega
    obtain ⟨body, after, whole, text, value⟩ := @exists_member v
      (prettyMembers level ((some next, w) :: ms) ++ (newline k ++ '\x7d' :: rest)) key level fuel reads
      ends_prettyMembers (by omega)
    rw [whole]
    simp only [members?, skipSpace_cons (c := '"') rfl, skipSpace_cons (c := ':') rfl, text, value, some_bind,
      prettyMembers, List.cons_append, List.append_assoc, skipSpace_cons (c := ',') rfl,
      members?_congr skipSpace_newline, more, Option.map_some]

/-- A printed value is never empty, so there is a unit of fuel for the value itself. -/
theorem reads_of_succ (plain : Plain v) (step : ∀ level fuel rest, 2 * (pretty level v).length ≤ fuel + 1 → Ends rest →
    value? (fuel + 1) (pretty level v ++ rest) = some (v, rest)) : Reads v := by
  intro level fuel rest enough ends
  obtain ⟨c, more, whole, -⟩ := head_pretty plain level
  obtain ⟨less, rfl⟩ : ∃ less, fuel = less + 1 := by
    rw [whole, List.length_cons] at enough
    exact Nat.exists_eq_add_one_of_ne_zero (by omega)
  exact step level less rest enough ends

theorem value?_array (each : ∀ w ∈ v :: vs, Plain w) (reads : ∀ w ∈ v :: vs, Reads w)
    (enough : 2 * (pretty level (.array (v :: vs))).length ≤ fuel + 1) :
    value? (fuel + 1) (pretty level (.array (v :: vs)) ++ rest) = some (.array (v :: vs), rest) := by
  obtain ⟨c, more, whole, plain, notBracket⟩ := head_pretty (each v List.mem_cons_self) (level + 1)
  simp only [pretty, List.length_append, List.length_cons, List.length_nil] at enough
  have elements : elements? fuel (pretty (level + 1) v ++
      (prettyRest (level + 1) vs ++ (newline level ++ ']' :: rest))) = some (v :: vs, rest) :=
    elements?_pretty reads (by omega)
  simp only [pretty, List.cons_append, List.append_assoc, List.nil_append, value?, skipSpace_cons (c := '[') rfl,
    skipSpace_newline]
  rw [whole, List.cons_append] at elements ⊢
  rw [skipSpace_cons plain]
  split
  · rename_i same
    cases same
    exact absurd rfl notBracket
  · rw [elements, Option.map_some]

theorem value?_object (keys : ∀ m ∈ (some key, v) :: ms, m.1.isSome = true)
    (reads : ∀ m ∈ (some key, v) :: ms, Reads m.2)
    (enough : 2 * (pretty level (.object ((some key, v) :: ms))).length ≤ fuel + 1) :
    value? (fuel + 1) (pretty level (.object ((some key, v) :: ms)) ++ rest) =
      some (.object ((some key, v) :: ms), rest) := by
  simp only [pretty, List.length_append, List.length_cons, List.length_nil] at enough
  have members : members? fuel (prettyMember (level + 1) (some key, v) ++
      (prettyMembers (level + 1) ms ++ (newline level ++ '\x7d' :: rest))) = some ((some key, v) :: ms, rest) := by
    refine members?_pretty (reads (some key, v) List.mem_cons_self) (fun m member => ?_) (by omega)
    exact ⟨keys m (List.mem_cons_of_mem _ member), reads m (List.mem_cons_of_mem _ member)⟩
  simp only [pretty, List.cons_append, List.append_assoc, List.nil_append, value?, skipSpace_cons (c := '\x7b') rfl,
    skipSpace_newline]
  have first : ∃ more, prettyMember (level + 1) (some key, v) = '"' :: more := ⟨_, rfl⟩
  obtain ⟨more, whole⟩ := first
  rw [whole, List.cons_append] at members ⊢
  rw [skipSpace_cons rfl]
  split
  · rename_i same
    cases same
  · rw [members, Option.map_some]

/-- Every value is read from its printed form. -/
theorem reads_of_plain (plain : Plain v) : Reads v := by
  induction plain with
  | null =>
    refine reads_of_succ .null fun level fuel rest _ _ => ?_
    rw [pretty]
    rfl
  | boolean b =>
    refine reads_of_succ (.boolean b) fun level fuel rest _ _ => ?_
    cases b <;>
    · rw [pretty]
      rfl
  | integer i =>
    refine reads_of_succ (.integer i) fun level fuel rest _ ends => ?_
    obtain ⟨c, more, digits, first⟩ := head_integer i
    rw [pretty, digits, List.cons_append, value?_number first, ← List.cons_append, ← digits, number?_integer i ends]
  | text s =>
    refine reads_of_succ (.text s) fun level fuel rest _ _ => ?_
    obtain ⟨body, text, read⟩ := unquote?_quote s rest
    rw [Value.text, pretty, Option.getD_some, text, value?, skipSpace_cons (c := '"') rfl]
    simp only [read, Option.map_some]
  | @array elements each ih =>
    refine reads_of_succ (.array each) fun level fuel rest enough _ => ?_
    cases elements with
    | nil =>
      rw [pretty]
      rfl
    | cons v vs => exact value?_array each ih enough
  | @object members keys each ih =>
    refine reads_of_succ (.object keys each) fun level fuel rest enough _ => ?_
    cases members with
    | nil =>
      rw [pretty]
      rfl
    | cons m ms =>
      obtain ⟨key, known⟩ := Option.isSome_iff_exists.mp (keys m List.mem_cons_self)
      obtain ⟨_, v⟩ := m
      subst known
      exact value?_object keys ih enough

theorem read?_print (plain : Plain v) : read? (print v) = some v := by
  have whole := reads_of_plain plain 0 (2 * (pretty 0 v).length + 2) [] (Nat.le_add_right _ _) ends_nil
  rw [List.append_nil] at whole
  simp only [read?, print, String.toList_ofList, whole, Option.bind_eq_bind, Option.bind_some]
  rfl

end ModelCatalog.Json
