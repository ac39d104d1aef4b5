import ModelCatalog.Proofs.PasswordMasking

namespace ModelCatalog

variable {url shown : List Char}

theorem redactChars_eq_none : redactChars url = none ↔
    ∃ scheme rest, splitFirst [':', '/', '/'] url = some (scheme, rest) ∧ '@' ∈ scheme ∧ '@' ∉ rest := by
  unfold redactChars
  split
  · rename_i missing
    exact iff_of_false nofun fun ⟨_, _, found, _⟩ => by cases missing.symm.trans found
  · rename_i scheme rest found
    simp only [found, Option.some.injEq, Prod.mk.injEq, and_assoc, exists_and_left, exists_eq_left']
    split
    · rename_i unmarked
      simp [splitLast_eq_none_iff.mp unmarked]
    · rename_i credentials address marked
      have there : '@' ∈ rest := by
        rw [(splitLast_eq_some_iff.mp marked).1]
        exact List.mem_append_right _ List.mem_cons_self
      split <;> simp [there]

/-- The only URL that cannot be shown is one whose last `@` stands before its first `://`. -/
theorem redactChars_eq_none_iff : redactChars url = none ↔
    ∃ start finish, FirstAt [':', '/', '/'] url start ∧ LastAt '@' url finish ∧ finish < start := by
  rw [redactChars_eq_none]
  constructor
  · rintro ⟨scheme, rest, found, inside, absent⟩
    obtain ⟨rfl, first⟩ := splitFirst_eq_some found
    cases marked : splitLast '@' scheme with
    | none => exact absurd inside (splitLast_eq_none_iff.mp marked)
    | some parts =>
      obtain ⟨front, tail⟩ := parts
      obtain ⟨rfl, later⟩ := splitLast_eq_some_iff.mp marked
      refine ⟨_, front.length, first, ?_, by simp⟩
      rw [List.append_assoc, List.append_assoc, List.cons_append]
      exact lastAt_append (by simp [later, absent])
  · rintro ⟨start, finish, first, last, before⟩
    cases found : splitFirst [':', '/', '/'] url with
    | none => exact absurd first.infix (splitFirst_eq_none_iff.mp found)
    | some parts =>
      obtain ⟨scheme, rest⟩ := parts
      obtain ⟨rfl, least⟩ := splitFirst_eq_some found
      rw [first.unique least] at before
      refine ⟨scheme, rest, rfl, ?_, fun later => ?_⟩
      · have place := last.1
        rw [List.append_assoc, List.getElem?_append_left before] at place
        exact List.mem_of_getElem? place
      · obtain ⟨i, place⟩ := List.mem_iff_getElem?.mp later
        refine last.2 ((scheme ++ [':', '/', '/']).length + i) ?_ ?_
        · simp only [List.length_append]
          omega
        · rw [List.getElem?_append_right (Nat.le_add_right _ _), Nat.add_sub_cancel_left, place]

/-- What is shown of a URL is the URL itself, or one with three stars for a password. -/
theorem redactChars_eq_some (done : redactChars url = some shown) : shown = url ∨
    ∃ scheme user address, ¬[':', '/', '/'] <:+: scheme ∧ ':' ∉ user ∧ '@' ∉ address ∧
      shown = scheme ++ [':', '/', '/'] ++ user ++ [':', '*', '*', '*', '@'] ++ address := by
  unfold redactChars at done
  split at done
  · exact .inl (Option.some.inj done).symm
  · rename_i scheme rest found
    split at done
    · split at done
      · cases done
      · exact .inl (Option.some.inj done).symm
    · rename_i credentials address marked
      split at done
      · exact .inl (Option.some.inj done).symm
      · rename_i user secret colon
        have first : ':' ∉ user := by
          simpa [List.singleton_infix_iff] using not_infix_of_splitFirst (by decide) colon
        exact .inr ⟨scheme, user, address, not_infix_of_splitFirst (by decide) found, first,
          (splitLast_eq_some_iff.mp marked).2, (Option.some.inj done).symm⟩

theorem redactChars_of_redacted (done : redactChars url = some shown) : redactChars shown = some shown := by
  rcases redactChars_eq_some done with rfl | ⟨scheme, user, address, plain, first, last, rfl⟩
  · exact done
  · have masked := @redactChars_of_parts scheme user ['*', '*', '*'] address plain first last
    simpa using masked

/-- A URL cannot be shown exactly if its last `@` stands before its first `://`. What is shown of any other one is also
shown of itself. Where a URL has a password, three stars are shown for it, whatever it is and whichever marks it
holds. -/
theorem redact_shows_no_secret :
    (∀ url, redact url = none ↔ ∃ start finish,
      FirstAt "://".toList url.toList start ∧ LastAt '@' url.toList finish ∧ finish < start) ∧
    (∀ url shown, redact url = some shown → redact shown = some shown) ∧
    ∀ scheme user address : String, ¬"://".toList <:+: scheme.toList → ':' ∉ user.toList → '@' ∉ address.toList →
      ∀ secret : String, redact (scheme ++ "://" ++ user ++ ":" ++ secret ++ "@" ++ address) =
        some (scheme ++ "://" ++ user ++ ":***@" ++ address) := by
  have mark : "://".toList = [':', '/', '/'] := by decide
  refine ⟨fun url => ?_, fun url shown done => ?_, fun scheme user address plain first last secret => ?_⟩
  · rw [redact, Option.map_eq_none_iff, redactChars_eq_none_iff, mark]
  · obtain ⟨chars, made, rfl⟩ := Option.map_eq_some_iff.mp done
    rw [redact, String.toList_ofList, redactChars_of_redacted made, Option.map_some]
  · have parts : (scheme ++ "://" ++ user ++ ":" ++ secret ++ "@" ++ address).toList =
        scheme.toList ++ ':' :: '/' :: '/' :: (user.toList ++ ':' :: (secret.toList ++ '@' :: address.toList)) := by
      simp
    rw [redact, parts, redactChars_of_parts (mark ▸ plain) first last, Option.map_some, Option.some_inj,
      ← String.toList_inj]
    simp

/-- A password may hold every mark that is searched for. -/
theorem marks_hidden :
    redact "a@b://c" = none ∧
    redact "db://d@e:f:@://g/é@h:1/i" = some "db://d@e:***@h:1/i" ∧
    redact "db://d@e:***@h:1/i" = some "db://d@e:***@h:1/i" := by
  obtain ⟨unseen, again, masked⟩ := redact_shows_no_secret
  have plain : ¬"://".toList <:+: "db".toList := by decide
  have hidden : redact "db://d@e:f:@://g/é@h:1/i" = some "db://d@e:***@h:1/i" :=
    masked "db" "d@e" "h:1/i" plain (by decide) (by decide) "f:@://g/é"
  have first : FirstAt "://".toList "a@b://c".toList 3 := ⟨by decide, by decide⟩
  have last : LastAt '@' (['a'] ++ '@' :: "b://c".toList) 1 := lastAt_append (by decide)
  exact ⟨(unseen "a@b://c").mpr ⟨3, 1, first, last, by decide⟩, hidden, again _ _ hidden⟩

end ModelCatalog
