import Mathlib.Data.List.Nodup
import ModelCatalog.Database.Transaction

namespace ModelCatalog.TagRow

open Parameter (holdsZero)

variable {κ : Type} [DecidableEq κ] {owner : κ} {tag : String} {rows : List (TagRow κ)}

/-- The primary keys of a table of tags. -/
def labels (rows : List (TagRow κ)) : List (κ × String) :=
  rows.map fun r => (r.owner, r.tag)

/-- The rows for tags that are written one after the other, each at the next position. -/
def listed (owner : κ) (position : Nat) : List String → List (TagRow κ)
  | [] => []
  | tag :: rest => ⟨owner, cut tagWidth tag, Range.wrap32 position⟩ :: listed owner (position + 1) rest

omit [DecidableEq κ] in
@[simp] theorem mem_removeOwners {gone : κ → Bool} {r : TagRow κ} :
    r ∈ removeOwners gone rows ↔ r ∈ rows ∧ gone r.owner = false := by
  simp only [removeOwners, List.mem_filter, Bool.not_eq_eq_eq_not, Bool.not_true]

@[simp] theorem has_iff : has owner tag rows = true ↔ (owner, tag) ∈ labels rows := by
  simp only [has, labels, List.any_eq_true, Bool.and_eq_true, decide_eq_true_eq, List.mem_map,
    Prod.mk.injEq]

@[simp] theorem has_eq_false_iff : has owner tag rows = false ↔ (owner, tag) ∉ labels rows := by
  rw [← has_iff, Bool.not_eq_true]

theorem count_eq {wanted : List String} :
    count owner wanted rows = (rows.filter (·.owner = owner)).countP (wanted.contains ·.tag) := by
  rw [count, List.countP_filter]
  exact List.countP_congr fun r _ => by rw [Bool.and_comm]

omit [DecidableEq κ] in
@[simp] theorem labels_append (more : List (TagRow κ)) : labels (rows ++ more) = labels rows ++ labels more :=
  List.map_append

omit [DecidableEq κ] in
theorem labels_listed {position : Nat} {tags : List String} :
    labels (listed owner position tags) = tags.map fun tag => (owner, cut tagWidth tag) := by
  induction tags generalizing position with
  | nil => rfl
  | cons tag rest ih => exact congrArg _ ih

omit [DecidableEq κ] in
theorem of_mem_listed {position : Nat} {tags : List String} {r : TagRow κ}
    (member : r ∈ listed owner position tags) : r.owner = owner ∧ ∃ tag ∈ tags, r.tag = cut tagWidth tag := by
  have label : (r.owner, r.tag) ∈ labels (listed owner position tags) := List.mem_map_of_mem member
  rw [labels_listed, List.mem_map] at label
  obtain ⟨tag, given, same⟩ := label
  exact ⟨(congrArg Prod.fst same).symm, tag, given, (congrArg Prod.snd same).symm⟩

/-- Tags that can be added for an owner one after the other: the column takes all of them, and none is
stored like another or like one that the owner has. -/
structure Addable (owner : κ) (rows : List (TagRow κ)) (tags : List String) : Prop where
  clean : ∀ tag ∈ tags, holdsZero tag = false
  room : ∀ tag ∈ tags, fits tagWidth tag = true
  distinct : (tags.map (cut tagWidth)).Nodup
  new : ∀ tag ∈ tags, (owner, cut tagWidth tag) ∉ labels rows

omit [DecidableEq κ] in
@[simp] theorem addable_nil : Addable owner rows [] :=
  ⟨nofun, nofun, List.nodup_nil, nofun⟩

omit [DecidableEq κ] in
theorem addable_cons_iff {position : Int} {rest : List String} : Addable owner rows (tag :: rest) ↔
    holdsZero tag = false ∧ fits tagWidth tag = true ∧ (owner, cut tagWidth tag) ∉ labels rows ∧
      Addable owner (rows ++ [⟨owner, cut tagWidth tag, position⟩]) rest := by
  have single : labels [TagRow.mk owner (cut tagWidth tag) position] = [(owner, cut tagWidth tag)] := rfl
  constructor
  · intro good
    have distinct := good.distinct
    rw [List.map_cons, List.nodup_cons] at distinct
    refine ⟨good.clean tag List.mem_cons_self, good.room tag List.mem_cons_self, good.new tag List.mem_cons_self,
      fun s later => good.clean s (List.mem_cons_of_mem _ later),
      fun s later => good.room s (List.mem_cons_of_mem _ later), distinct.2, fun s later => ?_⟩
    rw [labels_append, single, List.mem_append, List.mem_singleton, Prod.mk.injEq, not_or]
    exact ⟨good.new s (List.mem_cons_of_mem _ later), fun same => distinct.1 (same.2 ▸ List.mem_map_of_mem later)⟩
  · intro holds
    obtain ⟨clean, room, new, good⟩ := holds
    have later : ∀ s ∈ rest, (owner, cut tagWidth s) ∉ labels rows ∧ cut tagWidth s ≠ cut tagWidth tag := by
      intro s member
      have free := good.new s member
      rw [labels_append, single, List.mem_append, List.mem_singleton, Prod.mk.injEq, not_or] at free
      exact ⟨free.1, fun same => free.2 ⟨rfl, same⟩⟩
    refine ⟨List.forall_mem_cons.mpr ⟨clean, good.clean⟩, List.forall_mem_cons.mpr ⟨room, good.room⟩, ?_,
      List.forall_mem_cons.mpr ⟨new, fun s member => (later s member).1⟩⟩
    rw [List.map_cons, List.nodup_cons]
    refine ⟨fun there => ?_, good.distinct⟩
    obtain ⟨s, member, same⟩ := List.mem_map.mp there
    exact (later s member).2 same

omit [DecidableEq κ] in
theorem Addable.apart {position : Nat} {tags : List String} (good : Addable owner rows tags) :
    ∀ label ∈ labels (listed owner position tags), label ∉ labels rows := by
  rw [labels_listed, List.forall_mem_map]
  exact good.new

end ModelCatalog.TagRow
