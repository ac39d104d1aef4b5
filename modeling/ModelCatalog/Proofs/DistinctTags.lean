import ModelCatalog.Catalog.Operation

namespace ModelCatalog

theorem nodup_eraseDups : ∀ tags : List String, tags.eraseDups.Nodup
  | [] => List.nodup_nil
  | tag :: rest => by
    rw [List.eraseDups_cons, List.nodup_cons]
    exact ⟨by simp, nodup_eraseDups _⟩
termination_by tags => tags.length
decreasing_by exact Nat.lt_succ_of_le (List.length_filter_le ..)

theorem eraseDups_of_nodup : ∀ {tags : List String}, tags.Nodup → tags.eraseDups = tags
  | [], _ => rfl
  | tag :: rest, distinct => by
    obtain ⟨new, distinct⟩ := List.nodup_cons.mp distinct
    have others : rest.filter (fun other => !other == tag) = rest :=
      List.filter_eq_self.mpr fun other member => by simpa using ne_of_mem_of_not_mem member new
    rw [List.eraseDups_cons, others, eraseDups_of_nodup distinct]

namespace Operation

/-- Both go through the list once and hold what they have kept in reverse. -/
theorem distinct_eq (tags : List String) : distinct tags = tags.eraseDups := by
  have fold : ∀ rest seen : List String,
      (rest.foldl (fun seen tag => if seen.contains tag then seen else tag :: seen) seen).reverse =
        List.eraseDupsBy.loop (· == ·) rest seen := by
    intro rest
    induction rest with
    | nil => exact fun seen => rfl
    | cons tag rest ih =>
      intro seen
      have found : seen.any (tag == ·) = seen.contains tag := List.contains_eq_any_beq.symm
      rw [List.foldl_cons, ih, List.eraseDupsBy.loop, found]
      cases seen.contains tag <;> rfl
  exact fold tags []

/-- A tag that occurs among the distinct ones was given. -/
theorem mem_distinct {tags : List String} {tag : String} (kept : tag ∈ distinct tags) : tag ∈ tags := by
  rw [distinct_eq] at kept
  exact List.mem_eraseDups.mp kept

end Operation

end ModelCatalog
