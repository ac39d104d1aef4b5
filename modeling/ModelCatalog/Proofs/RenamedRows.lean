import ModelCatalog.Proofs.TagOrder

namespace ModelCatalog

/-- Where owners move to a place that is free, no row gets the key of another one. -/
theorem TagRow.clash?_eq_none {κ : Type} [DecidableEq κ] {rows : List (TagRow κ)} {move : κ → κ}
    (free : ∀ r ∈ rows, ∀ s ∈ rows, move r.owner ≠ r.owner → s.owner ≠ move r.owner) :
    clash? move rows = none := by
  simp only [clash?, List.find?_eq_none, Bool.and_eq_true, List.any_eq_true, decide_eq_true_eq]
  intro r member taken
  obtain ⟨away, s, other, ⟨-, same⟩, -⟩ := taken
  exact free r member s other away same

namespace Tables

variable {t : Tables} {name newName : String} {now : Timestamp}

theorem Sound.dangling?_eq_none (sound : t.Sound) : t.dangling? = none := by
  have tags : t.modelTags.find? (fun r => !t.hasModel r.owner) = none := by
    simpa using sound.modelTags.owned
  have versions : t.versions.find? (fun r => !t.hasModel r.key.model) = none := by
    simpa using fun (r : VersionRow) member => sound.owned r.key (List.mem_map_of_mem member)
  have versionTags : t.versionTags.find? (fun r => !t.hasVersion r.owner) = none := by
    simpa using sound.versionTags.owned
  simp only [dangling?, tags, versions, versionTags]

theorem moved_of_ne {owner : String} (away : ModelTags.moved name newName owner ≠ owner) :
    ModelTags.moved name newName owner = newName ∧ newName ≠ name := by
  unfold ModelTags.moved at away ⊢
  split at away
  · rename_i same
    rw [if_pos same]
    exact ⟨rfl, fun back => away (back.trans same.symm)⟩
  · exact absurd rfl away

theorem moved_key_of_ne {key : VersionKey} (away : Versions.moved name newName key ≠ key) :
    (Versions.moved name newName key).model = newName ∧ newName ≠ name := by
  rw [moved_model]
  exact moved_of_ne fun same => away (moved_key_eq_iff.mpr ⟨same, rfl⟩)

namespace Sound

theorem clash?_modelTags (sound : t.Sound) (free : newName ≠ name → newName ∉ t.names) :
    TagRow.clash? (ModelTags.moved name newName) t.modelTags = none := by
  refine TagRow.clash?_eq_none fun r _ s member away same => ?_
  obtain ⟨place, differ⟩ := moved_of_ne away
  exact free differ (place ▸ same ▸ sound.modelTags.owned s member)

theorem moved_notMem_keys (sound : t.Sound) (free : newName ≠ name → newName ∉ t.names) {key : VersionKey}
    (away : Versions.moved name newName key ≠ key) : Versions.moved name newName key ∉ t.keys := by
  intro there
  obtain ⟨place, differ⟩ := moved_key_of_ne away
  exact free differ (place ▸ sound.owned _ there)

theorem clash?_versionTags (sound : t.Sound) (free : newName ≠ name → newName ∉ t.names) :
    TagRow.clash? (Versions.moved name newName) t.versionTags = none := by
  refine TagRow.clash?_eq_none fun r _ s member away same => ?_
  exact sound.moved_notMem_keys free away (same ▸ sound.versionTags.owned s member)

end Sound

/-- No row of any table has a name that is free, be it the row of a model or one that refers to it. -/
theorem Sound.rows_apart (sound : t.Sound) (free : name ∉ t.names) :
    (∀ r ∈ t.models, r.name ≠ name) ∧ (∀ r ∈ t.modelTags, r.owner ≠ name) ∧
      (∀ r ∈ t.versions, r.key.model ≠ name) ∧ (∀ r ∈ t.versionTags, r.owner.model ≠ name) := by
  have away : ∀ other ∈ t.names, other ≠ name := fun other there => ne_of_mem_of_not_mem there free
  exact ⟨fun r member => away _ (List.mem_map_of_mem member),
    fun r member => away _ (sound.modelTags.owned r member),
    fun r member => away _ (sound.owned _ (List.mem_map_of_mem member)),
    fun r member => away _ (sound.owned _ (sound.versionTags.owned r member))⟩

theorem name_rekeyed (r : ModelRow) :
    (if r.name = name then { r with name := newName, updatedAt := now } else r).name =
      ModelTags.moved name newName r.name := by
  unfold ModelTags.moved
  split <;> rfl

theorem model?_renamed (new : newName ∉ t.names) (differ : newName ≠ name) (other : String) :
    (t.renamed name newName now).model? other =
      if other = name then none
      else if other = newName then (t.model? name).map fun r => { r with name := newName, updatedAt := now }
      else t.model? other := by
  by_cases old : other = name
  · rw [if_pos old, model?_eq_none_iff, names_renamed, List.mem_map, old]
    exact fun there => moved_ne_name differ there.choose_spec.2
  rw [if_neg old, model?, renamed_models]
  by_cases away : other = newName
  · subst away
    have back : ∀ r ∈ t.models,
        (if r.name = name then { r with name := other, updatedAt := now } else r).name = other ↔
          r.name = name := by
      intro r member
      have apart : r.name ≠ other := fun same => new (same ▸ List.mem_map_of_mem member)
      rw [name_rekeyed, moved_eq_newName_iff apart]
    rw [find?_key_moved back, if_pos rfl]
    exact Option.map_congr fun r there => if_pos (name_of_model? there)
  · have back : ∀ r ∈ t.models,
        (if r.name = name then { r with name := newName, updatedAt := now } else r).name = other ↔
          r.name = other := by
      intro r _
      rw [name_rekeyed, moved_eq_other_iff old away]
    rw [find?_key_moved back, if_neg away]
    refine (Option.map_congr fun r there => if_neg ?_).trans Option.map_id'
    exact fun same => old ((name_of_model? there).symm.trans same)

/-- The model is found under its new name. -/
theorem model?_renamed_new (new : newName ∉ t.names) (differ : newName ≠ name) {r : ModelRow}
    (found : t.model? name = some r) :
    (t.renamed name newName now).model? newName = some { r with name := newName, updatedAt := now } := by
  rw [model?_renamed new differ, if_neg differ, if_pos rfl, found]
  rfl

theorem version?_renamed (sound : t.Sound) (new : newName ∉ t.names) (differ : newName ≠ name)
    (key : VersionKey) :
    (t.renamed name newName now).version? key =
      if key.model = name then none
      else if key.model = newName then (t.version? ⟨name, key.number⟩).map fun r => { r with key := key }
      else t.version? key := by
  by_cases old : key.model = name
  · rw [if_pos old, version?_eq_none_iff, keys_renamed, List.mem_map]
    intro there
    obtain ⟨other, -, same⟩ := there
    exact moved_ne_name differ ((moved_key_eq_iff.mp same).1.trans old)
  rw [if_neg old, version?, renamed_versions]
  by_cases away : key.model = newName
  · have back : ∀ r ∈ t.versions, Versions.moved name newName r.key = key ↔ r.key = ⟨name, key.number⟩ := by
      intro r member
      have apart := (sound.rows_apart new).2.2.1 r member
      rw [moved_key_eq_iff, away, moved_eq_newName_iff apart]
      exact VersionKey.mk.injEq .. ▸ Iff.rfl
    rw [find?_key_moved back, if_pos away]
    refine Option.map_congr fun r there => ?_
    rw [(back r (List.mem_of_find?_eq_some there)).mpr (key_of_version? there)]
  · have back : ∀ r ∈ t.versions, Versions.moved name newName r.key = key ↔ r.key = key := by
      intro r member
      rw [moved_key_eq_iff, moved_eq_other_iff old away]
      exact VersionKey.mk.injEq .. ▸ Iff.rfl
    rw [find?_key_moved back, if_neg away]
    refine (Option.map_congr fun r there => ?_).trans Option.map_id'
    rw [(back r (List.mem_of_find?_eq_some there)).mpr (key_of_version? there), ← key_of_version? there]

/-- The tags of a model are read under its new name as they were under the old one. -/
theorem read_modelTags_renamed (sound : t.Sound) (new : newName ∉ t.names) :
    TagRow.read newName (t.renamed name newName now).modelTags = TagRow.read name t.modelTags := by
  exact TagRow.read_rekey fun r member => moved_eq_newName_iff ((sound.rows_apart new).2.1 r member)

theorem read_versionTags_renamed (sound : t.Sound) (new : newName ∉ t.names) (number : Int) :
    TagRow.read ⟨newName, number⟩ (t.renamed name newName now).versionTags =
      TagRow.read ⟨name, number⟩ t.versionTags := by
  refine TagRow.read_rekey fun r member => ?_
  have apart := (sound.rows_apart new).2.2.2 r member
  rw [moved_key_eq_iff, moved_eq_newName_iff apart]
  exact VersionKey.mk.injEq .. ▸ Iff.rfl

end Tables

end ModelCatalog
