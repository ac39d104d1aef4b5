import Mathlib.Logic.Function.Basic
import ModelCatalog.Proofs.SessionRun
import ModelCatalog.Proofs.TagOrder

namespace ModelCatalog

/-- The tags of one owner, from the newest to the oldest. They are `ranked` if there was a position for each of those
that were given at its creation. -/
structure TagList where
  tags : List String
  ranked : Bool
deriving DecidableEq

/-- For every model and every version that is there, the list of its tags. -/
structure TagLists where
  models : String → Option TagList
  versions : VersionKey → Option TagList

namespace TagLists

/-- The tags given at creation, each at its first occurrence and as its column keeps it. -/
def created (tags : List String) : List String :=
  tags.eraseDups.map (cut tagWidth)

end TagLists

namespace TagList

def created (tags : List String) : TagList :=
  ⟨TagLists.created tags, decide (tags.eraseDups.length ≤ 2147483648)⟩

/-- A tag that is there already stays where it is. -/
def add (tag : String) (l : TagList) : TagList :=
  { l with tags := if cut tagWidth tag ∈ l.tags then l.tags else cut tagWidth tag :: l.tags }

def remove (tag : String) (l : TagList) : TagList :=
  { l with tags := l.tags.erase tag }

/-- What is reported of an owner: its tags, and in their order if they are ranked. -/
structure Told (l : TagList) (tags : List String) : Prop where
  perm : tags.Perm l.tags
  order : l.ranked = true → tags = l.tags

end TagList

/-- The account of all tags that the successful calls of a session give. A model that is renamed takes its
tags along and those of its versions, and what is deleted loses them. -/
def Ledger.tags : Ledger TagLists where
  blank := ⟨fun _ => none, fun _ => none⟩
  note lists
    | .createModel name _ tags, _ =>
      { lists with models := Function.update lists.models (cut nameWidth name) (some (TagList.created tags)) }
    | .renameModel name newName, _ =>
      { models := Function.update (Function.update lists.models newName (lists.models name)) name none
        versions := fun key =>
          if key.model = name then none
          else if key.model = newName then lists.versions ⟨name, key.number⟩
          else lists.versions key }
    | .deleteModel name, _ =>
      { models := Function.update lists.models name none
        versions := fun key => if key.model = name then none else lists.versions key }
    | .tagModel name tag, _ =>
      { lists with models := Function.update lists.models name ((lists.models name).map (TagList.add tag)) }
    | .untagModel name tag, _ =>
      { lists with models := Function.update lists.models name ((lists.models name).map (TagList.remove tag)) }
    | .createVersion name draft, .version v =>
      { lists with
        versions := Function.update lists.versions ⟨name, v.number⟩ (some (TagList.created draft.tags)) }
    | .deleteVersion key, _ => { lists with versions := Function.update lists.versions key none }
    | .tagVersion key tag, _ =>
      { lists with versions := Function.update lists.versions key ((lists.versions key).map (TagList.add tag)) }
    | .untagVersion key tag, _ =>
      { lists with versions := Function.update lists.versions key ((lists.versions key).map (TagList.remove tag)) }
    | _, _ => lists

namespace TagRow

variable {κ : Type} [DecidableEq κ] {owner other : κ} {tag : String} {owners owners' : List κ}
  {rows rows' : List (TagRow κ)} {l : TagList} {entry : Option TagList} {account : κ → Option TagList}

/-- The rows of an owner hold the tags of a list, and if it is ranked they stand in its order. -/
structure Tells (owner : κ) (rows : List (TagRow κ)) (l : TagList) : Prop where
  perm : ((rows.filter (·.owner = owner)).map (·.tag)).Perm l.tags
  order : l.ranked = true → ∃ sorted, Ranked owner rows sorted ∧ sorted.map (·.tag) = l.tags

namespace Tells

theorem told (tells : Tells owner rows l) : l.Told (read owner rows) where
  perm := (read_perm owner rows).trans tells.perm
  order := fun ranked => by
    obtain ⟨sorted, order, same⟩ := tells.order ranked
    rw [order.read, same]

theorem mem_iff (tells : Tells owner rows l) : tag ∈ l.tags ↔ (owner, tag) ∈ labels rows := by
  rw [← tells.told.perm.mem_iff, mem_read]

theorem nodup (tells : Tells owner rows l) (unique : (labels rows).Nodup) : l.tags.Nodup :=
  tells.told.perm.nodup_iff.mp (nodup_read unique)

/-- What the rows of an owner tell depends on the rows of that owner only. -/
theorem congr (tells : Tells owner rows l) (same : rows'.filter (·.owner = owner) = rows.filter (·.owner = owner)) :
    Tells owner rows' l where
  perm := same ▸ tells.perm
  order := fun ranked => by
    obtain ⟨sorted, order, tags⟩ := tells.order ranked
    exact ⟨sorted, order.congr same, tags⟩

theorem created {tags : List String} (free : ∀ r ∈ rows, r.owner ≠ owner) :
    Tells owner (rows ++ listed owner 0 tags.eraseDups) (.created tags) := by
  refine ⟨?_, fun ranked => ⟨listed owner 0 tags.eraseDups, ?_, map_tag_listed⟩⟩
  · rw [filter_append_listed free, map_tag_listed]
    exact .refl _
  · refine (Ranked.listed (of_decide_eq_true ranked)).congr ?_
    rw [filter_append_listed free, filter_listed]

theorem add (tells : Tells owner rows l) (new : (owner, cut tagWidth tag) ∉ labels rows) :
    Tells owner (rows ++ [⟨owner, cut tagWidth tag, front owner rows⟩]) (l.add tag) := by
  have grown : (l.add tag).tags = cut tagWidth tag :: l.tags := if_neg (tells.mem_iff.not.mpr new)
  refine ⟨?_, fun ranked => ?_⟩
  · rw [grown, filter_append_own (by rfl), List.map_append]
    exact (List.perm_append_singleton _ _).trans (tells.perm.cons _)
  · obtain ⟨sorted, order, same⟩ := tells.order ranked
    exact ⟨_, order.prepend, by rw [List.map_cons, same, grown]⟩

theorem add_again (tells : Tells owner rows l) (old : (owner, cut tagWidth tag) ∈ labels rows) :
    Tells owner rows (l.add tag) := by
  have kept : l.add tag = l := by rw [TagList.add, if_pos (tells.mem_iff.mpr old)]
  rw [kept]
  exact tells

theorem remove (tells : Tells owner rows l) (unique : (labels rows).Nodup) :
    Tells owner (remove owner tag rows) (l.remove tag) := by
  have distinct := tells.nodup unique
  have gone : (l.remove tag).tags = l.tags.filter (· ≠ tag) := by
    rw [TagList.remove, distinct.erase_eq_filter tag]
    exact List.filter_congr fun other _ => by by_cases same : other = tag <;> simp [same]
  refine ⟨?_, fun ranked => ?_⟩
  · rw [gone, filter_remove, map_tag_filter]
    exact tells.perm.filter _
  · obtain ⟨sorted, order, same⟩ := tells.order ranked
    exact ⟨_, order.remove, by rw [map_tag_filter, same, gone]⟩

theorem rekey {move : κ → κ} (tells : Tells owner rows l)
    (back : ∀ r ∈ rows, move r.owner = other ↔ r.owner = owner) : Tells other (rekey move rows) l := by
  refine ⟨?_, fun ranked => ?_⟩
  · rw [filter_rekey back, List.map_map]
    exact tells.perm
  · obtain ⟨sorted, order, same⟩ := tells.order ranked
    exact ⟨_, order.rekey back, by rw [List.map_map]; exact same⟩

end Tells

/-- What is known of an owner: the list that its rows tell, or nothing if it is not there. -/
def Agrees (owners : List κ) (rows : List (TagRow κ)) (owner : κ) : Option TagList → Prop
  | some l => owner ∈ owners ∧ Tells owner rows l
  | none => owner ∉ owners

/-- An account is right about every owner. -/
def Accounts (owners : List κ) (rows : List (TagRow κ)) (account : κ → Option TagList) : Prop :=
  ∀ owner, Agrees owners rows owner (account owner)

theorem Agrees.congr (known : Agrees owners rows owner entry) (there : owner ∈ owners' ↔ owner ∈ owners)
    (same : rows'.filter (·.owner = owner) = rows.filter (·.owner = owner)) : Agrees owners' rows' owner entry := by
  cases entry with
  | none => exact there.not.mpr known
  | some l => exact ⟨there.mpr known.1, known.2.congr same⟩

/-- The list of an owner that is there is changed together with its rows. -/
theorem Agrees.map {f : TagList → TagList} (known : Agrees owners rows owner entry)
    (change : ∀ l, Tells owner rows l → Tells owner rows' (f l)) : Agrees owners rows' owner (entry.map f) := by
  cases entry with
  | none => exact known
  | some l => exact ⟨known.1, change l known.2⟩

theorem Agrees.rekey {move : κ → κ} (sound : Sound owners rows) (known : Agrees owners rows owner entry)
    (back : ∀ old ∈ owners, move old = other ↔ old = owner) :
    Agrees (owners.map move) (rekey move rows) other entry := by
  have there : other ∈ owners.map move ↔ owner ∈ owners := by
    rw [List.mem_map]
    constructor
    · intro there
      obtain ⟨old, member, same⟩ := there
      exact (back old member).mp same ▸ member
    · intro member
      exact ⟨owner, member, (back owner member).mpr rfl⟩
  cases entry with
  | none => exact there.not.mpr known
  | some l => exact ⟨there.mpr known.1, known.2.rekey fun r member => back r.owner (sound.owned r member)⟩

namespace Accounts

theorem congr {account' : κ → Option TagList} (known : Accounts owners rows account)
    (same : ∀ owner, account' owner = account owner) : Accounts owners rows account' :=
  fun owner => same owner ▸ known owner

theorem told (known : Accounts owners rows account) (entry : account owner = some l) :
    owner ∈ owners ∧ Tells owner rows l := by
  have here := known owner
  rwa [entry] at here

theorem eq_none_iff (known : Accounts owners rows account) : account owner = none ↔ owner ∉ owners := by
  have here := known owner
  cases entry : account owner with
  | none =>
    rw [entry] at here
    exact iff_of_true rfl here
  | some l => exact iff_of_false nofun (not_not_intro (known.told entry).1)

theorem exists_told (known : Accounts owners rows account) (there : owner ∈ owners) :
    ∃ l, account owner = some l ∧ l.Told (read owner rows) := by
  cases entry : account owner with
  | none => exact absurd there (known.eq_none_iff.mp entry)
  | some l => exact ⟨l, rfl, (known.told entry).2.told⟩

theorem tag_iff (known : Accounts owners rows account) (sound : Sound owners rows) :
    (∃ l, account owner = some l ∧ tag ∈ l.tags) ↔ (owner, tag) ∈ labels rows := by
  constructor
  · rintro ⟨l, entry, member⟩
    exact (known.told entry).2.mem_iff.mp member
  · intro label
    obtain ⟨r, place, same⟩ := List.mem_map.mp label
    cases same
    obtain ⟨l, entry, -⟩ := known.exists_told (sound.owned r place)
    exact ⟨l, entry, (known.told entry).2.mem_iff.mpr label⟩

/-- An account that is brought up to date for one owner is right if nothing has changed for the others. -/
theorem update (known : Accounts owners rows account) (here : Agrees owners' rows' owner entry)
    (there : ∀ other ≠ owner, other ∈ owners' ↔ other ∈ owners)
    (same : ∀ other ≠ owner, rows'.filter (·.owner = other) = rows.filter (·.owner = other)) :
    Accounts owners' rows' (Function.update account owner entry) := by
  intro other
  by_cases own : other = owner
  · subst own
    rw [Function.update_self]
    exact here
  · rw [Function.update_of_ne own]
    exact (known other).congr (there other own) (same other own)

theorem addOwner {tags : List String} (known : Accounts owners rows account) (sound : Sound owners rows)
    (new : owner ∉ owners) : Accounts (owners ++ [owner]) (rows ++ listed owner 0 tags.eraseDups)
      (Function.update account owner (some (.created tags))) := by
  have free : ∀ r ∈ rows, r.owner ≠ owner := fun r member same => new (same ▸ sound.owned r member)
  refine known.update ⟨by simp, .created free⟩ (fun other apart => by simp [apart]) fun other apart => ?_
  exact filter_append_other fun r added => (of_mem_listed added).1 ▸ Ne.symm apart

theorem tagged (known : Accounts owners rows account) (new : (owner, cut tagWidth tag) ∉ labels rows) :
    Accounts owners (rows ++ [⟨owner, cut tagWidth tag, front owner rows⟩])
      (Function.update account owner ((account owner).map (TagList.add tag))) := by
  refine known.update ((known owner).map fun l tells => tells.add new) (fun _ _ => Iff.rfl) fun other apart => ?_
  exact filter_append_other fun r added => List.mem_singleton.mp added ▸ Ne.symm apart

theorem tagged_again (known : Accounts owners rows account) (old : (owner, cut tagWidth tag) ∈ labels rows) :
    Accounts owners rows (Function.update account owner ((account owner).map (TagList.add tag))) :=
  known.update ((known owner).map fun _ tells => tells.add_again old) (fun _ _ => Iff.rfl) fun _ _ => rfl

theorem untagged (known : Accounts owners rows account) (unique : (labels rows).Nodup) :
    Accounts owners (remove owner tag rows)
      (Function.update account owner ((account owner).map (TagList.remove tag))) :=
  known.update ((known owner).map fun _ tells => tells.remove unique) (fun _ _ => Iff.rfl) fun _ apart =>
    filter_remove_other apart

theorem removeOwners {gone kept : κ → Bool} (known : Accounts owners rows account)
    (rest : ∀ owner, kept owner = !gone owner) :
    Accounts (owners.filter kept) (removeOwners gone rows) fun owner => if gone owner then none else account owner := by
  intro owner
  beta_reduce
  by_cases away : gone owner = true
  · rw [if_pos away]
    change owner ∉ owners.filter kept
    simp [rest, away]
  · rw [if_neg away]
    have stays : gone owner = false := Bool.eq_false_iff.mpr away
    exact (known owner).congr (by simp [List.mem_filter, rest, stays]) (filter_removeOwners stays)

end Accounts

end TagRow

end ModelCatalog
