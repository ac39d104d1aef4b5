import ModelCatalog.Proofs.TableEdits
import ModelCatalog.Proofs.TransactionRun

namespace ModelCatalog

open Parameter (holdsZero)

/-- A text as a column of the given width can hold it. -/
structure Stored (width : Nat) (s : String) : Prop where
  clean : holdsZero s = false
  narrow : s.toList.length ≤ width

structure ModelRow.Sound (r : ModelRow) : Prop where
  named : r.name ≠ ""
  name : Stored nameWidth r.name
  description : ∀ d ∈ r.description, Stored descriptionWidth d

structure VersionRow.Sound (r : VersionRow) : Prop where
  id : Stored labelWidth r.id
  user : Stored labelWidth r.user
  experiment : Stored labelWidth r.experiment
  modelType : Stored labelWidth r.modelType
  dataset : ∀ d ∈ r.dataset, Stored datasetWidth d
  description : ∀ d ∈ r.description, Stored descriptionWidth d

/-- A table of tags for the given owners. -/
structure TagRow.Sound {κ : Type} (owners : List κ) (rows : List (TagRow κ)) : Prop where
  unique : (labels rows).Nodup
  owned : ∀ r ∈ rows, r.owner ∈ owners
  named : ∀ r ∈ rows, r.tag ≠ ""
  stored : ∀ r ∈ rows, Stored tagWidth r.tag

/-- What the operations keep up in the tables, whatever the counters say: every key is unique, every
reference leads to a row, and every text fits where it stands. -/
structure Tables.Sound (t : Tables) : Prop where
  names : t.names.Nodup
  keys : t.keys.Nodup
  models : ∀ r ∈ t.models, r.Sound
  versions : ∀ v ∈ t.versions, v.Sound
  owned : ∀ key ∈ t.keys, key.model ∈ t.names
  modelTags : TagRow.Sound t.names t.modelTags
  versionTags : TagRow.Sound t.keys t.versionTags

/-- The counter of every model has reached the number of each of its versions. -/
structure Tables.Counted (t : Tables) : Prop where
  bounded : ∀ r ∈ t.models, 0 ≤ r.counter ∧ r.counter ≤ 2147483647
  reached : ∀ key ∈ t.keys, ∃ r ∈ t.models, r.name = key.model ∧ 1 ≤ key.number ∧ key.number ≤ r.counter

/-- No two tags of one owner stand at the same position. -/
def TagRow.Ordered {κ : Type} (rows : List (TagRow κ)) : Prop :=
  (rows.map fun r => (r.owner, r.position)).Nodup

structure Tables.Ordered (t : Tables) : Prop where
  modelTags : TagRow.Ordered t.modelTags
  versionTags : TagRow.Ordered t.versionTags

theorem Tables.Ordered.empty : Tables.empty.Ordered :=
  ⟨List.nodup_nil, List.nodup_nil⟩

section Stored

variable {width : Nat} {s : String}

theorem stored_cut (clean : holdsZero s = false) : Stored width (cut width s) where
  clean := by
    simp only [holdsZero, cut, String.toList_ofList, List.contains_eq_mem, decide_eq_false_iff_not] at clean ⊢
    exact fun member => clean (List.mem_of_mem_take member)
  narrow := length_cut_le width s

theorem cut_ne_empty (filled : s ≠ "") (positive : 0 < width) : cut width s ≠ "" := by
  intro empty
  have gone : s.toList.take width = [] := by
    simpa only [cut, String.toList_ofList, String.toList_empty] using congrArg String.toList empty
  rcases List.take_eq_nil_iff.mp gone with none | nothing
  · omega
  · exact filled (String.toList_eq_nil_iff.mp nothing)

theorem Stored.cut_eq (stored : Stored width s) : cut width s = s :=
  cut_of_length_le stored.narrow

theorem Stored.fits (stored : Stored width s) : fits width s = true :=
  fits_of_length_le stored.narrow

theorem stored_map_cut {d : Option String} (clean : ∀ s ∈ d, holdsZero s = false) :
    ∀ s ∈ d.map (cut width), Stored width s := by
  simp only [Option.mem_def, Option.map_eq_some_iff, forall_exists_index, and_imp]
  rintro _ s given rfl
  exact stored_cut (clean s given)

end Stored

/-- Owners that move apart from each other take along what is unique among the rows of each. -/
theorem TagRow.nodup_rekey {κ β : Type} {owners : List κ} {rows : List (TagRow κ)} {move : κ → κ}
    (owned : ∀ r ∈ rows, r.owner ∈ owners)
    (apart : ∀ a ∈ owners, ∀ b ∈ owners, move a = move b → a = b) (g : TagRow κ → β)
    (blind : ∀ r owner, g { r with owner := owner } = g r)
    (unique : (rows.map fun r => (r.owner, g r)).Nodup) :
    ((rekey move rows).map fun r => (r.owner, g r)).Nodup := by
  have pairs : (rekey move rows).map (fun r => (r.owner, g r)) =
      (rows.map fun r => (r.owner, g r)).map fun (owner, b) => (move owner, b) := by
    simp only [rekey, List.map_map, Function.comp_def, blind]
  rw [pairs]
  refine unique.map_on ?_
  simp only [List.forall_mem_map, Prod.mk.injEq, and_imp]
  exact fun r member s member' same value => ⟨apart _ (owned r member) _ (owned s member') same, value⟩

namespace TagRow.Sound

variable {κ : Type} {owners owners' : List κ} {rows more : List (TagRow κ)}

theorem append (sound : Sound owners rows) (other : Sound owners more)
    (apart : ∀ label ∈ labels more, label ∉ labels rows) : Sound owners (rows ++ more) where
  unique := by
    rw [labels_append, List.nodup_append]
    exact ⟨sound.unique, other.unique, fun _ old _ new same => apart _ new (same ▸ old)⟩
  owned := List.forall_mem_append.mpr ⟨sound.owned, other.owned⟩
  named := List.forall_mem_append.mpr ⟨sound.named, other.named⟩
  stored := List.forall_mem_append.mpr ⟨sound.stored, other.stored⟩

theorem filter (sound : Sound owners rows) (p : TagRow κ → Bool) : Sound owners (rows.filter p) where
  unique := sound.unique.sublist (List.filter_sublist.map _)
  owned := fun r member => sound.owned r (List.mem_of_mem_filter member)
  named := fun r member => sound.named r (List.mem_of_mem_filter member)
  stored := fun r member => sound.stored r (List.mem_of_mem_filter member)

theorem ofOwners (sound : Sound owners rows) (owned : ∀ r ∈ rows, r.owner ∈ owners') : Sound owners' rows :=
  { sound with owned := owned }

theorem rekey (sound : Sound owners rows) {move : κ → κ}
    (apart : ∀ a ∈ owners, ∀ b ∈ owners, move a = move b → a = b) :
    Sound (owners.map move) (TagRow.rekey move rows) where
  unique := nodup_rekey sound.owned apart (·.tag) (fun _ _ => rfl) sound.unique
  owned := by
    simp only [TagRow.rekey, List.forall_mem_map]
    exact fun r member => List.mem_map_of_mem (sound.owned r member)
  named := by
    simp only [TagRow.rekey, List.forall_mem_map]
    exact sound.named
  stored := by
    simp only [TagRow.rekey, List.forall_mem_map]
    exact sound.stored

theorem listed {owner : κ} {position : Nat} {tags : List String} (there : owner ∈ owners)
    (named : ∀ tag ∈ tags, tag ≠ "") (good : Addable owner rows tags) :
    Sound owners (TagRow.listed owner position tags) where
  unique := by
    have pairs : tags.map (fun tag => (owner, cut tagWidth tag)) =
        (tags.map (cut tagWidth)).map (Prod.mk owner) := by
      rw [List.map_map, Function.comp_def]
    rw [labels_listed, pairs]
    exact good.distinct.map fun _ _ same => congrArg Prod.snd same
  owned := fun r member => (of_mem_listed member).1 ▸ there
  named := by
    intro r member
    obtain ⟨-, tag, given, same⟩ := of_mem_listed member
    exact same ▸ cut_ne_empty (named tag given) (by decide)
  stored := by
    intro r member
    obtain ⟨-, tag, given, same⟩ := of_mem_listed member
    exact same ▸ stored_cut (good.clean tag given)

theorem single {owner : κ} {tag : String} {position : Int} (there : owner ∈ owners) (named : tag ≠ "")
    (stored : Stored tagWidth tag) : Sound owners [⟨owner, tag, position⟩] where
  unique := List.nodup_singleton _
  owned := List.forall_mem_singleton.mpr there
  named := List.forall_mem_singleton.mpr named
  stored := List.forall_mem_singleton.mpr stored

end TagRow.Sound

/-- A name that is free keeps models apart. -/
theorem Tables.moved_apart {t : Tables} {name newName : String} (new : newName ∉ t.names) :
    ∀ a ∈ t.names, ∀ b ∈ t.names, ModelTags.moved name newName a = ModelTags.moved name newName b → a = b := by
  intro a first b second same
  unfold ModelTags.moved at same
  split at same <;> split at same
  · exact ‹a = name›.trans ‹b = name›.symm
  · exact absurd (same ▸ second) new
  · exact absurd (same ▸ first) new
  · exact same

namespace Tables.Sound

variable {t : Tables} {name newName tag : String} {key : VersionKey} {now : Timestamp}

theorem empty : Tables.empty.Sound where
  names := List.nodup_nil
  keys := List.nodup_nil
  models := List.forall_mem_nil _
  versions := List.forall_mem_nil _
  owned := List.forall_mem_nil _
  modelTags := ⟨List.nodup_nil, List.forall_mem_nil _, List.forall_mem_nil _, List.forall_mem_nil _⟩
  versionTags := ⟨List.nodup_nil, List.forall_mem_nil _, List.forall_mem_nil _, List.forall_mem_nil _⟩

theorem stored_name (sound : t.Sound) (there : name ∈ t.names) : Stored nameWidth name := by
  obtain ⟨r, member, same⟩ := List.mem_map.mp there
  exact same ▸ (sound.models r member).name

theorem stored_key (sound : t.Sound) (there : key ∈ t.keys) : Stored nameWidth key.model :=
  sound.stored_name (sound.owned key there)

theorem addModel {row : ModelRow} (sound : t.Sound) (good : row.Sound) (new : row.name ∉ t.names) :
    (t.addModel row).Sound :=
  { sound with
    names := by
      rw [names_addModel, List.nodup_append]
      exact ⟨sound.names, List.nodup_singleton _, fun a old b added same =>
        new (List.mem_singleton.mp added ▸ same ▸ old)⟩
    models := List.forall_mem_append.mpr ⟨sound.models, by simpa using good⟩
    owned := by
      rw [names_addModel]
      exact fun key there => List.mem_append_left _ (sound.owned key there)
    modelTags := sound.modelTags.ofOwners fun r member => by
      rw [names_addModel]
      exact List.mem_append_left _ (sound.modelTags.owned r member) }

theorem addVersion {row : VersionRow} (sound : t.Sound) (good : row.Sound) (new : row.key ∉ t.keys)
    (owned : row.key.model ∈ t.names) : (t.addVersion row).Sound :=
  { sound with
    keys := by
      rw [keys_addVersion, List.nodup_append]
      exact ⟨sound.keys, List.nodup_singleton _, fun a old b added same =>
        new (List.mem_singleton.mp added ▸ same ▸ old)⟩
    versions := List.forall_mem_append.mpr ⟨sound.versions, by simpa using good⟩
    owned := by
      rw [keys_addVersion]
      exact List.forall_mem_append.mpr ⟨sound.owned, by simpa using owned⟩
    versionTags := sound.versionTags.ofOwners fun r member => by
      rw [keys_addVersion]
      exact List.mem_append_left _ (sound.versionTags.owned r member) }

theorem addModelTags {rows : List (TagRow String)} (sound : t.Sound) (good : TagRow.Sound t.names rows)
    (apart : ∀ label ∈ TagRow.labels rows, label ∉ TagRow.labels t.modelTags) : (t.addModelTags rows).Sound :=
  { sound with modelTags := sound.modelTags.append good apart }

theorem addVersionTags {rows : List (TagRow VersionKey)} (sound : t.Sound) (good : TagRow.Sound t.keys rows)
    (apart : ∀ label ∈ TagRow.labels rows, label ∉ TagRow.labels t.versionTags) :
    (t.addVersionTags rows).Sound :=
  { sound with versionTags := sound.versionTags.append good apart }

theorem withoutModel (sound : t.Sound) : (t.withoutModel name).Sound where
  names := names_withoutModel ▸ sound.names.filter _
  keys := keys_withoutModel ▸ sound.keys.filter _
  models := fun r member => sound.models r (List.mem_of_mem_filter member)
  versions := fun v member => sound.versions v (List.mem_of_mem_filter member)
  owned := by
    rw [keys_withoutModel, names_withoutModel]
    intro key there
    rw [List.mem_filter] at there ⊢
    exact ⟨sound.owned key there.1, there.2⟩
  modelTags := by
    refine (sound.modelTags.filter _).ofOwners fun r member => ?_
    rw [names_withoutModel, List.mem_filter]
    rw [List.mem_filter] at member
    exact ⟨sound.modelTags.owned r member.1, by simpa using member.2⟩
  versionTags := by
    refine (sound.versionTags.filter _).ofOwners fun r member => ?_
    rw [keys_withoutModel, List.mem_filter]
    rw [List.mem_filter] at member
    exact ⟨sound.versionTags.owned r member.1, by simpa using member.2⟩

theorem withoutVersion (sound : t.Sound) : (t.withoutVersion key).Sound :=
  { sound with
    keys := keys_withoutVersion ▸ sound.keys.filter _
    versions := fun v member => sound.versions v (List.mem_of_mem_filter member)
    owned := by
      rw [keys_withoutVersion]
      exact fun key there => sound.owned key (List.mem_of_mem_filter there)
    versionTags := by
      refine (sound.versionTags.filter _).ofOwners fun r member => ?_
      rw [keys_withoutVersion, List.mem_filter]
      rw [List.mem_filter] at member
      exact ⟨sound.versionTags.owned r member.1, by simpa using member.2⟩ }

theorem moved_keys_apart (sound : t.Sound) (new : newName ∉ t.names) :
    ∀ a ∈ t.keys, ∀ b ∈ t.keys, Versions.moved name newName a = Versions.moved name newName b → a = b := by
  intro a first b second same
  have models := moved_apart new a.model (sound.owned a first) b.model (sound.owned b second)
    (by rw [← moved_model, ← moved_model, same])
  have numbers := congrArg VersionKey.number same
  rw [moved_number, moved_number] at numbers
  cases a
  cases b
  exact congrArg₂ VersionKey.mk models numbers

theorem renamed (sound : t.Sound) (filled : newName ≠ "") (stored : Stored nameWidth newName)
    (new : newName ∉ t.names) : (t.renamed name newName now).Sound where
  names := names_renamed ▸ sound.names.map_on (moved_apart new)
  keys := keys_renamed ▸ sound.keys.map_on (sound.moved_keys_apart new)
  models := by
    rw [renamed_models, List.forall_mem_map]
    intro r member
    split
    · exact { sound.models r member with named := filled, name := stored }
    · exact sound.models r member
  versions := by
    rw [renamed_versions, List.forall_mem_map]
    exact fun v member => { sound.versions v member with }
  owned := by
    rw [keys_renamed, names_renamed, List.forall_mem_map]
    intro key there
    rw [moved_model]
    exact List.mem_map_of_mem (sound.owned key there)
  modelTags := names_renamed ▸ sound.modelTags.rekey (moved_apart new)
  versionTags := keys_renamed ▸ sound.versionTags.rekey (sound.moved_keys_apart new)

theorem removeModelTag (sound : t.Sound) : (t.removeModelTag name tag).Sound :=
  { sound with modelTags := sound.modelTags.filter _ }

theorem removeVersionTag (sound : t.Sound) : (t.removeVersionTag key tag).Sound :=
  { sound with versionTags := sound.versionTags.filter _ }

theorem updateModel {f : ModelRow → ModelRow} (sound : t.Sound) (keeps : ∀ r, (f r).name = r.name)
    (good : ∀ r, r.Sound → (f r).Sound) : (t.updateModel name f).Sound :=
  { sound with
    names := (names_updateModel keeps).symm ▸ sound.names
    models := by
      simp only [Tables.updateModel, List.forall_mem_map]
      intro r member
      split
      · exact good r (sound.models r member)
      · exact sound.models r member
    owned := (names_updateModel keeps).symm ▸ sound.owned
    modelTags := (names_updateModel keeps).symm ▸ sound.modelTags }

theorem updateVersion {g : VersionRow → VersionRow} (sound : t.Sound) (keeps : ∀ r, (g r).key = r.key)
    (good : ∀ r, r.Sound → (g r).Sound) : (t.updateVersion key g).Sound :=
  { sound with
    keys := (keys_updateVersion keeps).symm ▸ sound.keys
    versions := by
      simp only [Tables.updateVersion, List.forall_mem_map]
      intro r member
      split
      · exact good r (sound.versions r member)
      · exact sound.versions r member
    owned := (keys_updateVersion keeps).symm ▸ sound.owned
    versionTags := (keys_updateVersion keeps).symm ▸ sound.versionTags }

theorem touchModel (sound : t.Sound) : (t.touchModel name now).Sound :=
  sound.updateModel (fun _ => rfl) fun _ good => { good with }

theorem touchVersion (sound : t.Sound) : (t.touchVersion key now).Sound :=
  sound.updateVersion (fun _ => rfl) fun _ good => { good with }

end Tables.Sound

namespace Tables.Counted

variable {t : Tables} {name newName : String} {key : VersionKey} {now : Timestamp}

theorem empty : Tables.empty.Counted :=
  ⟨List.forall_mem_nil _, List.forall_mem_nil _⟩

theorem addModel {row : ModelRow} (counted : t.Counted) (zero : row.counter = 0) : (t.addModel row).Counted where
  bounded := List.forall_mem_append.mpr ⟨counted.bounded, by simp [zero]⟩
  reached := by
    intro key there
    obtain ⟨r, member, bound⟩ := counted.reached key there
    exact ⟨r, List.mem_append_left _ member, bound⟩

theorem addVersion {row : VersionRow} (counted : t.Counted) {r : ModelRow} (member : r ∈ t.models)
    (owner : r.name = row.key.model) (positive : 1 ≤ row.key.number) (bound : row.key.number ≤ r.counter) :
    (t.addVersion row).Counted where
  bounded := counted.bounded
  reached := by
    rw [keys_addVersion]
    refine List.forall_mem_append.mpr ⟨counted.reached, ?_⟩
    rw [List.forall_mem_singleton]
    exact ⟨r, member, owner, positive, bound⟩

theorem withoutModel (counted : t.Counted) : (t.withoutModel name).Counted where
  bounded := fun r member => counted.bounded r (List.mem_of_mem_filter member)
  reached := by
    rw [keys_withoutModel]
    intro key there
    rw [List.mem_filter, decide_eq_true_eq] at there
    obtain ⟨r, member, same, bound⟩ := counted.reached key there.1
    exact ⟨r, List.mem_filter.mpr ⟨member, by simpa [same] using there.2⟩, same, bound⟩

theorem withoutVersion (counted : t.Counted) : (t.withoutVersion key).Counted where
  bounded := counted.bounded
  reached := by
    rw [keys_withoutVersion]
    exact fun key there => counted.reached key (List.mem_of_mem_filter there)

theorem renamed (counted : t.Counted) : (t.renamed name newName now).Counted where
  bounded := by
    rw [renamed_models, List.forall_mem_map]
    intro r member
    split <;> exact counted.bounded r member
  reached := by
    rw [keys_renamed, List.forall_mem_map]
    intro key there
    obtain ⟨r, member, same, bound⟩ := counted.reached key there
    refine ⟨_, renamed_models ▸ List.mem_map_of_mem member, ?_, ?_⟩
    · rw [moved_model, ModelTags.moved, ← same]
      split <;> rfl
    · rw [moved_number]
      split <;> exact bound

/-- A counter may be raised, within its range, but not lowered. -/
theorem updateModel {f : ModelRow → ModelRow} (counted : t.Counted) (keeps : ∀ r, (f r).name = r.name)
    (raised : ∀ r, r.counter ≤ (f r).counter)
    (room : ∀ r ∈ t.models, r.name = name → (f r).counter ≤ 2147483647) : (t.updateModel name f).Counted where
  bounded := by
    simp only [Tables.updateModel, List.forall_mem_map]
    intro r member
    have old := counted.bounded r member
    split
    · exact ⟨by have := raised r; omega, room r member ‹_›⟩
    · exact old
  reached := by
    intro key there
    obtain ⟨r, member, same, positive, bound⟩ := counted.reached key there
    refine ⟨if r.name = name then f r else r, List.mem_map_of_mem member, ?_⟩
    split
    · exact ⟨(keeps r).trans same, positive, Int.le_trans bound (raised r)⟩
    · exact ⟨same, positive, bound⟩

theorem updateVersion {g : VersionRow → VersionRow} (counted : t.Counted) (keeps : ∀ r, (g r).key = r.key) :
    (t.updateVersion key g).Counted where
  bounded := counted.bounded
  reached := (keys_updateVersion keeps).symm ▸ counted.reached

theorem touchModel (counted : t.Counted) : (t.touchModel name now).Counted :=
  counted.updateModel (fun _ => rfl) (fun _ => Int.le_refl _) fun r member _ => (counted.bounded r member).2

end Tables.Counted

end ModelCatalog
