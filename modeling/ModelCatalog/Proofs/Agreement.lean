import Mathlib.Data.Set.Basic
import Mathlib.Logic.Equiv.Basic
import ModelCatalog.Proofs.RenamedRows
import ModelCatalog.Proofs.StatementChecks

namespace ModelCatalog

/-- The names in a set have the same rows in both lists, each of them in the same order. -/
def SameRows {ρ : Type} (names : Set String) (key : ρ → String) (rows others : List ρ) : Prop :=
  ∀ name ∈ names, rows.filter (key · = name) = others.filter (key · = name)

namespace SameRows

variable {ρ : Type} {names fewer : Set String} {key : ρ → String} {rows others third : List ρ} {p : ρ → Bool}
  {name : String}

theorem refl : SameRows names key rows rows :=
  fun _ _ => rfl

theorem symm (same : SameRows names key rows others) : SameRows names key others rows :=
  fun name meant => (same name meant).symm

theorem trans (first : SameRows names key rows others) (second : SameRows names key others third) :
    SameRows names key rows third :=
  fun name meant => (first name meant).trans (second name meant)

theorem mono (same : SameRows names key rows others) (within : fewer ⊆ names) : SameRows fewer key rows others :=
  fun name meant => same name (within meant)

/-- What picks rows of one name only picks the same ones. -/
theorem filter_eq (same : SameRows names key rows others) (meant : name ∈ names)
    (own : ∀ r, p r = true → key r = name) : rows.filter p = others.filter p := by
  have through : ∀ l : List ρ, l.filter p = (l.filter (key · = name)).filter p := by
    intro l
    rw [List.filter_filter]
    refine List.filter_congr fun r _ => ?_
    cases picked : p r with
    | false => rfl
    | true => simp [own r picked]
  rw [through, same name meant, ← through]

theorem find?_eq (same : SameRows names key rows others) (meant : name ∈ names)
    (own : ∀ r, p r = true → key r = name) : rows.find? p = others.find? p := by
  rw [← List.head?_filter, same.filter_eq meant own, List.head?_filter]

theorem any_eq (same : SameRows names key rows others) (meant : name ∈ names)
    (own : ∀ r, p r = true → key r = name) : rows.any p = others.any p := by
  rw [← List.isSome_find?, same.find?_eq meant own, List.isSome_find?]

theorem countP_eq (same : SameRows names key rows others) (meant : name ∈ names)
    (own : ∀ r, p r = true → key r = name) : rows.countP p = others.countP p := by
  rw [List.countP_eq_length_filter, same.filter_eq meant own, ← List.countP_eq_length_filter]

theorem perm [DecidableEq ρ] (same : SameRows Set.univ key rows others) : rows.Perm others := by
  refine List.perm_iff_count.mpr fun r => ?_
  exact same.countP_eq (Set.mem_univ (key r)) fun s alike => congrArg key (beq_iff_eq.mp alike)

theorem append (same : SameRows names key rows others) (more : List ρ) :
    SameRows names key (rows ++ more) (others ++ more) :=
  fun name meant => by rw [List.filter_append, List.filter_append, same name meant]

theorem of_append {more : List ρ} (away : ∀ r ∈ more, key r ∉ names) :
    SameRows names key (rows ++ more) rows := by
  intro name meant
  have none : more.filter (key · = name) = [] :=
    List.filter_eq_nil_iff.mpr fun r member => by
      simpa using fun here : key r = name => away r member (here ▸ meant)
  rw [List.filter_append, none, List.append_nil]

theorem filter (same : SameRows names key rows others) (p : ρ → Bool) :
    SameRows names key (rows.filter p) (others.filter p) :=
  fun name meant => by rw [List.filter_comm, same name meant, List.filter_comm]

theorem of_filter (kept : ∀ r, key r ∈ names → p r = true) : SameRows names key (rows.filter p) rows := by
  intro name meant
  rw [List.filter_filter]
  refine List.filter_congr fun r _ => ?_
  by_cases here : key r = name
  · simp [here, kept r (here ▸ meant)]
  · simp [here]

/-- Rows that get other keys are the same under a name as those that get there were. -/
theorem filter_moved {f : ρ → ρ} {old : String} (back : ∀ r ∈ rows, key (f r) = name ↔ key r = old) :
    (rows.map f).filter (key · = name) = (rows.filter (key · = old)).map f := by
  rw [List.filter_map]
  congr 1
  exact List.filter_congr fun r member => by simp only [Function.comp_apply, back r member]

theorem moved {f : ρ → ρ} {back : String → String} (same : SameRows names key rows others)
    (meant : ∀ name ∈ names, back name ∈ names) (first : ∀ name, ∀ r ∈ rows, key (f r) = name ↔ key r = back name)
    (second : ∀ name, ∀ r ∈ others, key (f r) = name ↔ key r = back name) :
    SameRows names key (rows.map f) (others.map f) := by
  intro name here
  rw [filter_moved (first name), filter_moved (second name), same _ (meant name here)]

theorem map {f : ρ → ρ} (same : SameRows names key rows others) (keeps : ∀ r, key (f r) = key r) :
    SameRows names key (rows.map f) (others.map f) := by
  have back : ∀ name r, key (f r) = name ↔ key r = id name := fun name r => by rw [keeps, id]
  exact same.moved (fun _ here => here) (fun name r _ => back name r) fun name r _ => back name r

theorem of_moved {f : ρ → ρ} (back : ∀ name ∈ names, ∀ r ∈ rows, key (f r) = name ↔ key r = name)
    (kept : ∀ r, key r ∈ names → f r = r) : SameRows names key (rows.map f) rows := by
  intro name meant
  rw [filter_moved (back name meant)]
  refine (List.map_congr_left fun r member => ?_).trans (List.map_id _)
  have here : key r = name := by simpa using (List.mem_filter.mp member).2
  exact kept r (here ▸ meant)

end SameRows

/-- Rows that are told apart by what they are sorted by come in one order, however they stood before. -/
theorem mergeSort_eq_of_perm {ρ : Type} {le : ρ → ρ → Bool} {rows others : List ρ}
    (trans : ∀ a b c, le a b = true → le b c = true → le a c = true) (total : ∀ a b, (le a b || le b a) = true)
    (apart : ∀ a ∈ rows, ∀ b ∈ rows, le a b = true → le b a = true → a = b) (perm : rows.Perm others) :
    rows.mergeSort le = others.mergeSort le := by
  have sorted := (List.mergeSort_perm rows le).trans (perm.trans (List.mergeSort_perm others le).symm)
  refine List.Perm.eq_of_pairwise (fun a b first second => ?_) (List.pairwise_mergeSort trans total rows)
    (List.pairwise_mergeSort trans total others) sorted
  exact apart a (List.mem_mergeSort.mp first) b (List.mem_mergeSort.mp (sorted.mem_iff.mpr second))

/-- The names in a set have the same rows in all four tables. -/
structure Tables.Agree (names : Set String) (t t' : Tables) : Prop where
  models : SameRows names (·.name) t.models t'.models
  modelTags : SameRows names (·.owner) t.modelTags t'.modelTags
  versions : SameRows names (·.key.model) t.versions t'.versions
  versionTags : SameRows names (·.owner.model) t.versionTags t'.versionTags

namespace TagRow

variable {κ : Type} [DecidableEq κ] {owner : κ} {rows others : List (TagRow κ)}

theorem has_congr (same : rows.filter (·.owner = owner) = others.filter (·.owner = owner)) (tag : String) :
    has owner tag rows = has owner tag others := by
  have through : ∀ l : List (TagRow κ), has owner tag l = (l.filter (·.owner = owner)).any (·.tag = tag) := by
    intro l
    rw [has, List.any_filter]
  rw [through, same, ← through]

theorem front_congr (same : rows.filter (·.owner = owner) = others.filter (·.owner = owner)) :
    front owner rows = front owner others := by
  rw [front, same, ← front]

theorem count_congr (same : rows.filter (·.owner = owner) = others.filter (·.owner = owner))
    (wanted : List String) : count owner wanted rows = count owner wanted others := by
  rw [count_eq, same, ← count_eq]

end TagRow

namespace Tables.Agree

variable {t t' t'' : Tables} {names fewer : Set String} {name newName tag : String} {key : VersionKey}
  {now : Timestamp}

theorem refl : t.Agree names t :=
  ⟨.refl, .refl, .refl, .refl⟩

theorem symm (same : t.Agree names t') : t'.Agree names t :=
  ⟨same.models.symm, same.modelTags.symm, same.versions.symm, same.versionTags.symm⟩

theorem trans (first : t.Agree names t') (second : t'.Agree names t'') : t.Agree names t'' :=
  ⟨first.models.trans second.models, first.modelTags.trans second.modelTags,
    first.versions.trans second.versions, first.versionTags.trans second.versionTags⟩

theorem mono (same : t.Agree names t') (within : fewer ⊆ names) : t.Agree fewer t' :=
  ⟨same.models.mono within, same.modelTags.mono within, same.versions.mono within, same.versionTags.mono within⟩

/-- Names that no model has are the same as in tables without any rows. -/
theorem of_free (sound : t.Sound) (free : ∀ name ∈ names, name ∉ t.names) : t.Agree names .empty where
  models := fun name meant => List.filter_eq_nil_iff.mpr fun r member => by
    simpa using (sound.rows_apart (free name meant)).1 r member
  modelTags := fun name meant => List.filter_eq_nil_iff.mpr fun r member => by
    simpa using (sound.rows_apart (free name meant)).2.1 r member
  versions := fun name meant => List.filter_eq_nil_iff.mpr fun r member => by
    simpa using (sound.rows_apart (free name meant)).2.2.1 r member
  versionTags := fun name meant => List.filter_eq_nil_iff.mpr fun r member => by
    simpa using (sound.rows_apart (free name meant)).2.2.2 r member

section Reads

variable (same : t.Agree names t')
include same

theorem model?_eq (meant : name ∈ names) : t.model? name = t'.model? name :=
  same.models.find?_eq meant fun _ => of_decide_eq_true

theorem hasModel_eq (meant : name ∈ names) : t.hasModel name = t'.hasModel name :=
  same.models.any_eq meant fun _ => of_decide_eq_true

theorem version?_eq (meant : key.model ∈ names) : t.version? key = t'.version? key :=
  same.versions.find?_eq meant fun _ found => congrArg VersionKey.model (of_decide_eq_true found)

theorem hasVersion_eq (meant : key.model ∈ names) : t.hasVersion key = t'.hasVersion key :=
  same.versions.any_eq meant fun _ found => congrArg VersionKey.model (of_decide_eq_true found)

theorem modelTags_eq (meant : name ∈ names) :
    t.modelTags.filter (·.owner = name) = t'.modelTags.filter (·.owner = name) :=
  same.modelTags name meant

theorem versionTags_eq (meant : key.model ∈ names) :
    t.versionTags.filter (·.owner = key) = t'.versionTags.filter (·.owner = key) :=
  same.versionTags.filter_eq meant fun _ found => congrArg VersionKey.model (of_decide_eq_true found)

theorem modelEntry_eq {r : ModelRow} (meant : r.name ∈ names) : t.modelEntry r = t'.modelEntry r := by
  rw [modelEntry, TagRow.read_congr (same.modelTags_eq meant), ← modelEntry]

theorem versionEntry_eq {r : VersionRow} (meant : r.key.model ∈ names) :
    t.versionEntry r = t'.versionEntry r := by
  rw [versionEntry, TagRow.read_congr (same.versionTags_eq meant), ← versionEntry]

theorem listedVersions_eq (meant : name ∈ names) (wanted : List String) :
    t.listedVersions name wanted = t'.listedVersions name wanted := by
  have picked : (t.versions.filter fun r =>
        r.key.model = name && TagRow.count r.key wanted t.versionTags = wanted.length) =
      t'.versions.filter fun r =>
        r.key.model = name && TagRow.count r.key wanted t'.versionTags = wanted.length := by
    rw [same.versions.filter_eq meant fun r found => by simp at found; exact found.1]
    refine List.filter_congr fun r _ => ?_
    by_cases here : r.key.model = name
    · rw [TagRow.count_congr (same.versionTags_eq (here ▸ meant))]
    · simp [here]
  rw [listedVersions, picked]
  refine List.map_congr_left fun r member => same.versionEntry_eq ?_
  have here := (List.mem_filter.mp (List.mem_mergeSort.mp member)).2
  simp only [Bool.and_eq_true, decide_eq_true_eq] at here
  exact here.1 ▸ meant

end Reads

theorem listedModels_eq (same : t.Agree Set.univ t') (unique : t.names.Nodup) (filter : Option String)
    (wanted : List String) : t.listedModels filter wanted = t'.listedModels filter wanted := by
  have counts : ∀ r : ModelRow,
      TagRow.count r.name wanted t.modelTags = TagRow.count r.name wanted t'.modelTags :=
    fun r => TagRow.count_congr (same.modelTags_eq (Set.mem_univ _)) wanted
  have entries : t.modelEntry = t'.modelEntry := funext fun r => same.modelEntry_eq (Set.mem_univ _)
  simp only [listedModels, counts, entries]
  rw [mergeSort_eq_of_perm _ _ _ (same.models.perm.filter _)]
  · intro a b c
    simpa using String.le_trans
  · intro a b
    simpa using String.le_total _ _
  · intro a first b second before after
    simp only [decide_eq_true_eq] at before after
    exact List.inj_on_of_nodup_map unique (List.mem_of_mem_filter first) (List.mem_of_mem_filter second)
      (String.le_antisymm before after)

section Edits

variable (same : t.Agree names t')
include same

theorem addModel (row : ModelRow) : (t.addModel row).Agree names (t'.addModel row) :=
  { same with models := same.models.append _ }

theorem addVersion (row : VersionRow) : (t.addVersion row).Agree names (t'.addVersion row) :=
  { same with versions := same.versions.append _ }

theorem addModelTags (rows : List (TagRow String)) : (t.addModelTags rows).Agree names (t'.addModelTags rows) :=
  { same with modelTags := same.modelTags.append _ }

theorem addVersionTags (rows : List (TagRow VersionKey)) :
    (t.addVersionTags rows).Agree names (t'.addVersionTags rows) :=
  { same with versionTags := same.versionTags.append _ }

theorem removeModelTag : (t.removeModelTag name tag).Agree names (t'.removeModelTag name tag) :=
  { same with modelTags := same.modelTags.filter _ }

theorem removeVersionTag : (t.removeVersionTag key tag).Agree names (t'.removeVersionTag key tag) :=
  { same with versionTags := same.versionTags.filter _ }

theorem withoutModel : (t.withoutModel name).Agree names (t'.withoutModel name) :=
  ⟨same.models.filter _, same.modelTags.filter _, same.versions.filter _, same.versionTags.filter _⟩

theorem withoutVersion : (t.withoutVersion key).Agree names (t'.withoutVersion key) :=
  { same with versions := same.versions.filter _, versionTags := same.versionTags.filter _ }

theorem updateModel {f : ModelRow → ModelRow} (keeps : ∀ r, (f r).name = r.name) :
    (t.updateModel name f).Agree names (t'.updateModel name f) :=
  { same with models := same.models.map fun r => by split <;> simp only [keeps] }

theorem updateVersion {g : VersionRow → VersionRow} (keeps : ∀ r, (g r).key = r.key) :
    (t.updateVersion key g).Agree names (t'.updateVersion key g) :=
  { same with versions := same.versions.map fun r => by split <;> simp only [keeps] }

theorem touchModel : (t.touchModel name now).Agree names (t'.touchModel name now) :=
  same.updateModel fun _ => rfl

theorem countVersion : (t.countVersion name now).Agree names (t'.countVersion name now) :=
  same.updateModel fun _ => rfl

theorem touchVersion : (t.touchVersion key now).Agree names (t'.touchVersion key now) :=
  same.updateVersion fun _ => rfl

end Edits

section Frame

variable (away : name ∉ names)
include away

theorem of_addModel {row : ModelRow} (named : row.name = name) : (t.addModel row).Agree names t :=
  { refl with models := .of_append (List.forall_mem_singleton.mpr (named ▸ away)) }

theorem of_addModelTags {rows : List (TagRow String)} (owned : ∀ r ∈ rows, r.owner = name) :
    (t.addModelTags rows).Agree names t :=
  { refl with modelTags := .of_append fun r member => owned r member ▸ away }

theorem of_removeModelTag : (t.removeModelTag name tag).Agree names t :=
  { refl with modelTags := .of_filter fun r meant => by simp [ne_of_mem_of_not_mem meant away] }

theorem of_updateModel {f : ModelRow → ModelRow} (keeps : ∀ r, (f r).name = r.name) :
    (t.updateModel name f).Agree names t := by
  refine { refl with models := .of_moved (fun other _ r _ => ?_) fun r meant => ?_ }
  · split <;> simp only [keeps]
  · exact if_neg (ne_of_mem_of_not_mem meant away)

theorem of_touchModel : (t.touchModel name now).Agree names t :=
  of_updateModel away fun _ => rfl

theorem of_withoutModel : (t.withoutModel name).Agree names t := by
  have apart : ∀ other ∈ names, other ≠ name := fun other meant => ne_of_mem_of_not_mem meant away
  exact {
    models := .of_filter fun r meant => by simpa using apart _ meant
    modelTags := .of_filter fun r meant => by simpa using apart _ meant
    versions := .of_filter fun r meant => by simpa using apart _ meant
    versionTags := .of_filter fun r meant => by simpa using apart _ meant }

end Frame

section VersionFrame

variable (away : key.model ∉ names)
include away

theorem of_addVersion {row : VersionRow} (keyed : row.key = key) : (t.addVersion row).Agree names t :=
  { refl with versions := .of_append (List.forall_mem_singleton.mpr (keyed ▸ away)) }

theorem of_addVersionTags {rows : List (TagRow VersionKey)} (owned : ∀ r ∈ rows, r.owner = key) :
    (t.addVersionTags rows).Agree names t :=
  { refl with versionTags := .of_append fun r member => owned r member ▸ away }

theorem of_removeVersionTag : (t.removeVersionTag key tag).Agree names t := by
  refine { refl with versionTags := .of_filter fun r meant => ?_ }
  have apart : r.owner ≠ key := fun here => away (here ▸ meant)
  simp [apart]

theorem of_updateVersion {g : VersionRow → VersionRow} (keeps : ∀ r, (g r).key = r.key) :
    (t.updateVersion key g).Agree names t := by
  refine { refl with versions := .of_moved (fun other _ r _ => ?_) fun r meant => ?_ }
  · split <;> simp only [keeps]
  · exact if_neg fun here : r.key = key => away (here ▸ meant)

theorem of_touchVersion : (t.touchVersion key now).Agree names t :=
  of_updateVersion away fun _ => rfl

theorem of_withoutVersion : (t.withoutVersion key).Agree names t := by
  have apart : ∀ other : VersionKey, other.model ∈ names → other ≠ key :=
    fun other meant here => away (here ▸ meant)
  exact { refl with
    versions := .of_filter fun r meant => by simpa using apart _ meant
    versionTags := .of_filter fun r meant => by simpa using apart _ meant }

end VersionFrame

theorem of_renamed (old : name ∉ names) (new : newName ∉ names) : (t.renamed name newName now).Agree names t := by
  have owner : ∀ other ∈ names, ∀ owner, ModelTags.moved name newName owner = other ↔ owner = other :=
    fun other meant owner => moved_eq_other_iff (ne_of_mem_of_not_mem meant old) (ne_of_mem_of_not_mem meant new)
  have still : ∀ key : VersionKey, key.model ∈ names → Versions.moved name newName key = key :=
    fun key meant => moved_key_eq_iff.mpr ⟨(owner _ meant _).mpr rfl, rfl⟩
  refine ⟨.of_moved (fun other meant r _ => ?_) fun r meant => ?_,
    .of_moved (fun other meant r _ => owner other meant _) fun r meant => ?_,
    .of_moved (fun other meant r _ => ?_) fun r meant => ?_,
    .of_moved (fun other meant r _ => ?_) fun r meant => ?_⟩
  · rw [name_rekeyed, owner other meant]
  · exact if_neg (ne_of_mem_of_not_mem meant old)
  · rw [(owner _ meant r.owner).mpr rfl]
  · rw [moved_model, owner other meant]
  · rw [still r.key meant]
  · rw [moved_model, owner other meant]
  · rw [still r.owner meant]

/-- Where a name is free, only what has the old name gets to it. -/
theorem moved_eq_iff_swap {owner other : String} (new : owner ≠ newName) (differ : newName ≠ name) :
    ModelTags.moved name newName owner = other ↔ owner = Equiv.swap name newName other := by
  by_cases back : other = name
  · rw [back, Equiv.swap_apply_left]
    exact iff_of_false (moved_ne_name differ) new
  by_cases away : other = newName
  · rw [away, Equiv.swap_apply_right, moved_eq_newName_iff new]
  · rw [Equiv.swap_apply_of_ne_of_ne back away, moved_eq_other_iff back away]

theorem renamed (same : t.Agree names t') (old : name ∈ names) (new : newName ∈ names) (differ : newName ≠ name)
    (sound : t.Sound) (sound' : t'.Sound) (free : newName ∉ t.names) :
    (t.renamed name newName now).Agree names (t'.renamed name newName now) := by
  have meant : ∀ other ∈ names, Equiv.swap name newName other ∈ names := by
    intro other here
    rw [Equiv.swap_apply_def]
    split
    · exact new
    · split
      · exact old
      · exact here
  have free' : newName ∉ t'.names := by
    rwa [← hasModel_eq_false_iff, ← same.hasModel_eq new, hasModel_eq_false_iff]
  obtain ⟨models, modelTags, versions, versionTags⟩ := sound.rows_apart free
  obtain ⟨models', modelTags', versions', versionTags'⟩ := sound'.rows_apart free'
  refine ⟨same.models.moved meant (fun other r member => ?_) fun other r member => ?_,
    same.modelTags.moved meant (fun other r member => ?_) fun other r member => ?_,
    same.versions.moved meant (fun other r member => ?_) fun other r member => ?_,
    same.versionTags.moved meant (fun other r member => ?_) fun other r member => ?_⟩
  · rw [name_rekeyed, moved_eq_iff_swap (models r member) differ]
  · rw [name_rekeyed, moved_eq_iff_swap (models' r member) differ]
  · exact moved_eq_iff_swap (modelTags r member) differ
  · exact moved_eq_iff_swap (modelTags' r member) differ
  · rw [moved_model, moved_eq_iff_swap (versions r member) differ]
  · rw [moved_model, moved_eq_iff_swap (versions' r member) differ]
  · rw [moved_model, moved_eq_iff_swap (versionTags r member) differ]
  · rw [moved_model, moved_eq_iff_swap (versionTags' r member) differ]

end Tables.Agree

end ModelCatalog
