import Mathlib.Data.List.Sort
import ModelCatalog.Proofs.Integrity

namespace ModelCatalog.TagRow

variable {κ : Type} [DecidableEq κ] {owner other : κ} {tag : String} {rows more sorted : List (TagRow κ)}

omit [DecidableEq κ] in
theorem Ordered.filter (ordered : Ordered rows) (p : TagRow κ → Bool) : Ordered (rows.filter p) :=
  ordered.sublist (List.filter_sublist.map _)

omit [DecidableEq κ] in
/-- Rows stay apart from rows that are added if no added row takes the place of one of the same owner. -/
theorem Ordered.append (ordered : Ordered rows) (added : Ordered more)
    (apart : ∀ r ∈ rows, ∀ s ∈ more, r.owner = s.owner → r.position ≠ s.position) : Ordered (rows ++ more) := by
  rw [Ordered, List.map_append, List.nodup_append]
  refine ⟨ordered, added, ?_⟩
  simp only [List.forall_mem_map, ne_eq, Prod.mk.injEq, not_and]
  exact apart

omit [DecidableEq κ] in
theorem Ordered.rekey {owners : List κ} {move : κ → κ} (ordered : Ordered rows)
    (owned : ∀ r ∈ rows, r.owner ∈ owners)
    (apart : ∀ a ∈ owners, ∀ b ∈ owners, move a = move b → a = b) : Ordered (TagRow.rekey move rows) :=
  nodup_rekey owned apart (·.position) (fun _ _ => rfl) ordered

theorem front_lt {r : TagRow κ} (member : r ∈ rows) (owned : r.owner = owner) :
    front owner rows < r.position := by
  have place : r.position ∈ (rows.filter (·.owner = owner)).map (·.position) :=
    List.mem_map_of_mem (List.mem_filter.mpr ⟨member, decide_eq_true owned⟩)
  unfold front
  cases least : ((rows.filter (·.owner = owner)).map (·.position)).min? with
  | none =>
    rw [List.min?_eq_none_iff] at least
    rw [least] at place
    exact absurd place List.not_mem_nil
  | some p =>
    have bound := (List.min?_eq_some_iff.mp least).2 r.position place
    simp only [Option.getD_some]
    omega

omit [DecidableEq κ] in
theorem position_of_mem_listed {position : Nat} {tags : List String} {r : TagRow κ}
    (room : position + tags.length ≤ 2147483648) (member : r ∈ listed owner position tags) :
    (position : Int) ≤ r.position := by
  induction tags generalizing position with
  | nil => exact absurd member List.not_mem_nil
  | cons tag rest ih =>
    rw [List.length_cons] at room
    rcases List.mem_cons.mp member with rfl | later
    · have first : Range.wrap32 position = position := Range.wrap32_of_lt (by omega)
      simp only [first, le_refl]
    · have bound := ih (by omega) later
      omega

omit [DecidableEq κ] in
theorem exists_position_listed {position : Nat} {tags : List String} {r : TagRow κ}
    (member : r ∈ listed owner position tags) : ∃ n, r.position = Range.wrap32 n := by
  induction tags generalizing position with
  | nil => exact absurd member List.not_mem_nil
  | cons tag rest ih =>
    rcases List.mem_cons.mp member with rfl | later
    · exact ⟨position, by simp only⟩
    · exact ih later

omit [DecidableEq κ] in
/-- As long as the positions fit into 32 bits, tags that are written one after the other stand in the
order in which they are written. -/
theorem strict_listed {position : Nat} {tags : List String} (room : position + tags.length ≤ 2147483648) :
    (listed owner position tags).Pairwise (·.position < ·.position) := by
  induction tags generalizing position with
  | nil => exact List.Pairwise.nil
  | cons tag rest ih =>
    rw [List.length_cons] at room
    refine List.Pairwise.cons ?_ (ih (by omega))
    intro r later
    have bound := position_of_mem_listed (by omega) later
    have first : Range.wrap32 position = position := Range.wrap32_of_lt (by omega)
    simp only [first]
    omega

omit [DecidableEq κ] in
theorem Ordered.listed {position : Nat} {tags : List String} (room : position + tags.length ≤ 2147483648) :
    Ordered (TagRow.listed owner position tags) := by
  refine List.Pairwise.map _ ?_ (strict_listed room)
  intro r s before same
  have places := congrArg Prod.snd same
  simp only at places
  omega

omit [DecidableEq κ] in
theorem Ordered.append_listed {tags : List String} (ordered : Ordered rows) (free : ∀ r ∈ rows, r.owner ≠ owner)
    (room : tags.length ≤ 2147483648) : Ordered (rows ++ TagRow.listed owner 0 tags) :=
  ordered.append (listed (by omega)) fun r old _ new same =>
    absurd (same.trans (of_mem_listed new).1) (free r old)

theorem Ordered.append_front (ordered : Ordered rows) : Ordered (rows ++ [⟨owner, tag, front owner rows⟩]) := by
  refine ordered.append (List.nodup_singleton _) fun r old s new same => ?_
  obtain rfl := List.mem_singleton.mp new
  exact (front_lt old same).ne'

/-- The rows of an owner in the order of their positions. -/
structure Ranked (owner : κ) (rows sorted : List (TagRow κ)) : Prop where
  perm : sorted.Perm (rows.filter (·.owner = owner))
  strict : sorted.Pairwise (·.position < ·.position)

omit [DecidableEq κ] in
theorem ascending_mergeSort (rows : List (TagRow κ)) :
    (rows.mergeSort (·.position ≤ ·.position)).Pairwise (·.position ≤ ·.position) := by
  have sorted : (rows.mergeSort (·.position ≤ ·.position)).Pairwise
      fun r s => decide (r.position ≤ s.position) = true :=
    List.pairwise_mergeSort (by simp only [decide_eq_true_eq]; omega)
      (by simp only [Bool.or_eq_true, decide_eq_true_eq]; omega) rows
  exact sorted.imp of_decide_eq_true

section Own

omit [DecidableEq κ] in
theorem map_tag_listed {position : Nat} {tags : List String} :
    (TagRow.listed owner position tags).map (·.tag) = tags.map (cut tagWidth) := by
  have pairs : (labels (TagRow.listed owner position tags)).map Prod.snd =
      (tags.map fun tag => (owner, cut tagWidth tag)).map Prod.snd :=
    congrArg _ labels_listed
  simpa only [labels, List.map_map, Function.comp_def] using pairs

omit [DecidableEq κ] in
theorem map_tag_filter : (rows.filter (·.tag ≠ tag)).map (·.tag) = (rows.map (·.tag)).filter (· ≠ tag) := by
  rw [List.filter_map]
  rfl

theorem filter_listed {position : Nat} {tags : List String} :
    (TagRow.listed owner position tags).filter (·.owner = owner) = TagRow.listed owner position tags :=
  List.filter_eq_self.mpr fun _ member => decide_eq_true (of_mem_listed member).1

theorem filter_append_listed {tags : List String} (free : ∀ r ∈ rows, r.owner ≠ owner) :
    (rows ++ TagRow.listed owner 0 tags).filter (·.owner = owner) = TagRow.listed owner 0 tags := by
  have none : rows.filter (·.owner = owner) = [] :=
    List.filter_eq_nil_iff.mpr fun r member => by simpa using free r member
  rw [List.filter_append, none, List.nil_append, filter_listed]

theorem filter_append_own {r : TagRow κ} (own : r.owner = owner) :
    (rows ++ [r]).filter (·.owner = owner) = rows.filter (·.owner = owner) ++ [r] := by
  simp only [List.filter_append, List.filter_cons, List.filter_nil, own, decide_true, if_true]

theorem filter_append_other (apart : ∀ r ∈ more, r.owner ≠ other) :
    (rows ++ more).filter (·.owner = other) = rows.filter (·.owner = other) := by
  have none : more.filter (·.owner = other) = [] :=
    List.filter_eq_nil_iff.mpr fun r member => by simpa using apart r member
  rw [List.filter_append, none, List.append_nil]

theorem filter_remove : (TagRow.remove owner tag rows).filter (·.owner = owner) =
    (rows.filter (·.owner = owner)).filter (·.tag ≠ tag) := by
  rw [TagRow.remove, List.filter_filter, List.filter_filter]
  refine List.filter_congr fun r _ => ?_
  by_cases owned : r.owner = owner <;> simp [owned]

theorem filter_remove_other (apart : other ≠ owner) :
    (TagRow.remove owner tag rows).filter (·.owner = other) = rows.filter (·.owner = other) := by
  rw [TagRow.remove, List.filter_filter]
  refine List.filter_congr fun r _ => ?_
  by_cases owned : r.owner = other <;> simp [owned, apart]

theorem filter_removeOwners {gone : κ → Bool} (kept : gone owner = false) :
    (removeOwners gone rows).filter (·.owner = owner) = rows.filter (·.owner = owner) := by
  rw [removeOwners, List.filter_filter]
  refine List.filter_congr fun r _ => ?_
  by_cases owned : r.owner = owner <;> simp [owned, kept]

/-- Where owners move, the rows of the only one that gets to a place are found there. -/
theorem filter_rekey {move : κ → κ} (back : ∀ r ∈ rows, move r.owner = other ↔ r.owner = owner) :
    (TagRow.rekey move rows).filter (·.owner = other) =
      (rows.filter (·.owner = owner)).map fun r => { r with owner := move r.owner } := by
  rw [TagRow.rekey, List.filter_map]
  congr 1
  refine List.filter_congr fun r member => ?_
  simp only [Function.comp_apply, back r member]

end Own

namespace Ranked

/-- There is but one order of an owner's rows, and it is the one in which the tags are read. -/
theorem read (ranked : Ranked owner rows sorted) : read owner rows = sorted.map (·.tag) := by
  unfold TagRow.read
  have perm := (List.mergeSort_perm (rows.filter (·.owner = owner)) fun r s =>
    decide (r.position ≤ s.position)).trans ranked.perm.symm
  have places : (sorted.map (·.position)).Nodup :=
    ranked.strict.map _ fun _ _ before => by omega
  have weak : sorted.Pairwise (·.position ≤ ·.position) := ranked.strict.imp fun before => by omega
  congr 1
  refine List.Perm.eq_of_pairwise ?_ (ascending_mergeSort _) weak perm
  -- Sorting compares positions only, but rows of one owner that stand at the same position are one row.
  intro r s first second before after
  have same : r.position = s.position := by omega
  exact List.inj_on_of_nodup_map places (perm.mem_iff.mp first) second same

theorem listed {tags : List String} (room : tags.length ≤ 2147483648) :
    Ranked owner (TagRow.listed owner 0 tags) (TagRow.listed owner 0 tags) where
  perm := by rw [filter_listed]
  strict := strict_listed (by omega)

theorem prepend (ranked : Ranked owner rows sorted) :
    Ranked owner (rows ++ [⟨owner, tag, front owner rows⟩]) (⟨owner, tag, front owner rows⟩ :: sorted) where
  perm := by
    rw [filter_append_own (by rfl)]
    exact (ranked.perm.cons _).trans (List.perm_append_singleton _ _).symm
  strict := by
    refine List.Pairwise.cons (fun r member => ?_) ranked.strict
    obtain ⟨there, owned⟩ := List.mem_filter.mp (ranked.perm.mem_iff.mp member)
    exact front_lt there (of_decide_eq_true owned)

theorem remove (ranked : Ranked owner rows sorted) :
    Ranked owner (TagRow.remove owner tag rows) (sorted.filter (·.tag ≠ tag)) where
  perm := by
    rw [filter_remove]
    exact ranked.perm.filter _
  strict := ranked.strict.filter _

theorem congr (ranked : Ranked owner rows sorted)
    (same : more.filter (·.owner = owner) = rows.filter (·.owner = owner)) : Ranked owner more sorted where
  perm := same ▸ ranked.perm
  strict := ranked.strict

theorem rekey {move : κ → κ} (ranked : Ranked owner rows sorted)
    (back : ∀ r ∈ rows, move r.owner = other ↔ r.owner = owner) :
    Ranked other (TagRow.rekey move rows) (sorted.map fun r => { r with owner := move r.owner }) where
  perm := by
    rw [filter_rekey back]
    exact ranked.perm.map _
  strict := ranked.strict.map _ fun _ _ before => before

end Ranked

section Read

theorem mem_read : tag ∈ read owner rows ↔ (owner, tag) ∈ labels rows := by
  simp only [read, labels, List.mem_map, List.mem_mergeSort, List.mem_filter, decide_eq_true_eq, Prod.mk.injEq,
    and_assoc]

theorem nodup_read (unique : (labels rows).Nodup) : (read owner rows).Nodup := by
  have perm := List.mergeSort_perm (rows.filter (·.owner = owner)) fun r s => decide (r.position ≤ s.position)
  rw [read, (perm.map (·.tag)).nodup_iff]
  have own : ((rows.filter (·.owner = owner)).map fun r => (r.owner, r.tag)).Nodup :=
    unique.sublist (List.filter_sublist.map _)
  rw [List.nodup_map_iff_inj_on own.of_map]
  intro r first s second same
  have owner_eq : r.owner = s.owner :=
    (of_decide_eq_true (List.mem_filter.mp first).2).trans (of_decide_eq_true (List.mem_filter.mp second).2).symm
  exact List.inj_on_of_nodup_map own first second (Prod.ext owner_eq same)

/-- What is read for an owner depends on the rows of that owner only. -/
theorem read_congr (same : more.filter (·.owner = owner) = rows.filter (·.owner = owner)) :
    read owner more = read owner rows := by
  rw [read, read, same]

theorem read_perm (owner : κ) (rows : List (TagRow κ)) :
    (read owner rows).Perm ((rows.filter (·.owner = owner)).map (·.tag)) :=
  (List.mergeSort_perm _ _).map _

theorem read_append_listed {tags : List String} (free : ∀ r ∈ rows, r.owner ≠ owner)
    (room : tags.length ≤ 2147483648) :
    read owner (rows ++ listed owner 0 tags) = tags.map (cut tagWidth) := by
  have own : (rows ++ listed owner 0 tags).filter (·.owner = owner) =
      (listed owner 0 tags).filter (·.owner = owner) := by
    rw [filter_append_listed free, filter_listed]
  rw [read_congr own, (Ranked.listed room).read, map_tag_listed]

/-- Wherever the positions of new tags fall, the tags themselves are all that is read. -/
theorem read_append_listed_perm {tags : List String} (free : ∀ r ∈ rows, r.owner ≠ owner) :
    (read owner (rows ++ listed owner 0 tags)).Perm (tags.map (cut tagWidth)) := by
  have perm := read_perm owner (rows ++ listed owner 0 tags)
  rwa [filter_append_listed free, map_tag_listed] at perm

/-- Where owners move, the tags of the only one that gets to a place are read there. -/
theorem read_rekey {move : κ → κ} (back : ∀ r ∈ rows, move r.owner = other ↔ r.owner = owner) :
    read other (rekey move rows) = read owner rows := by
  have sorted : ((rows.filter (·.owner = owner)).mergeSort (·.position ≤ ·.position)).map
      (fun r => { r with owner := move r.owner }) =
      ((rows.filter (·.owner = owner)).map fun r => { r with owner := move r.owner }).mergeSort
        (·.position ≤ ·.position) :=
    List.map_mergeSort fun _ _ _ _ => rfl
  rw [read, filter_rekey back, ← sorted, List.map_map]
  rfl

end Read

end ModelCatalog.TagRow
