import Mathlib.Data.List.Find
import Mathlib.Data.List.Nodup
import ModelCatalog.Database.Tables

namespace ModelCatalog

section KeyedRows

variable {κ ρ : Type} [DecidableEq κ] {key : ρ → κ} {rows : List ρ} {k : κ}

theorem key_of_find? {r : ρ} (found : rows.find? (key · = k) = some r) : key r = k := by
  simpa only [decide_eq_true_eq] using List.find?_some found

theorem find?_key_eq_none_iff : rows.find? (key · = k) = none ↔ k ∉ rows.map key := by
  simp only [List.find?_eq_none, decide_eq_true_eq, List.mem_map, not_exists, not_and]

/-- In a table whose keys are unique, the row found under a key is the only one that has it. -/
theorem find?_key_iff (unique : (rows.map key).Nodup) {r : ρ} :
    rows.find? (key · = k) = some r ↔ r ∈ rows ∧ key r = k := by
  constructor
  · intro found
    exact ⟨List.mem_of_find?_eq_some found, key_of_find? found⟩
  · intro both
    obtain ⟨member, rfl⟩ := both
    cases found : rows.find? (key · = key r) with
    | none => exact absurd (List.mem_map_of_mem member) (find?_key_eq_none_iff.mp found)
    | some s =>
      have same := key_of_find? found
      rw [List.inj_on_of_nodup_map unique (List.mem_of_find?_eq_some found) member same]

/-- Where rows get other keys, those that get to a key are found there as they are found before. -/
theorem find?_key_moved {f : ρ → ρ} {k' : κ} (back : ∀ r ∈ rows, key (f r) = k' ↔ key r = k) :
    (rows.map f).find? (key · = k') = (rows.find? (key · = k)).map f := by
  rw [List.find?_map]
  congr 1
  exact List.find?_congr fun r member => by simp only [Function.comp_apply, back r member]

/-- A change of rows that leaves their keys alone shows under the keys of the rows it changes. -/
theorem find?_key_map {f : ρ → ρ} (keeps : ∀ r, key (f r) = key r) :
    (rows.map f).find? (key · = k) = (rows.find? (key · = k)).map f :=
  find?_key_moved fun r _ => by rw [keeps]

end KeyedRows

namespace Tables

variable {t : Tables} {name : String} {key : VersionKey}

def names (t : Tables) : List String :=
  t.models.map (·.name)

def keys (t : Tables) : List VersionKey :=
  t.versions.map (·.key)

@[simp] theorem hasModel_iff : t.hasModel name = true ↔ name ∈ t.names := by
  simp only [hasModel, names, List.any_eq_true, decide_eq_true_eq, List.mem_map]

@[simp] theorem hasModel_eq_false_iff : t.hasModel name = false ↔ name ∉ t.names := by
  rw [← hasModel_iff, Bool.not_eq_true]

@[simp] theorem hasVersion_iff : t.hasVersion key = true ↔ key ∈ t.keys := by
  simp only [hasVersion, keys, List.any_eq_true, decide_eq_true_eq, List.mem_map]

@[simp] theorem hasVersion_eq_false_iff : t.hasVersion key = false ↔ key ∉ t.keys := by
  rw [← hasVersion_iff, Bool.not_eq_true]

theorem model?_eq_some_iff (unique : t.names.Nodup) {r : ModelRow} :
    t.model? name = some r ↔ r ∈ t.models ∧ r.name = name :=
  find?_key_iff unique

@[simp] theorem model?_eq_none_iff : t.model? name = none ↔ name ∉ t.names :=
  find?_key_eq_none_iff

@[simp] theorem version?_eq_none_iff : t.version? key = none ↔ key ∉ t.keys :=
  find?_key_eq_none_iff

@[simp] theorem exists_model?_iff : (∃ r, t.model? name = some r) ↔ name ∈ t.names := by
  rw [← Option.ne_none_iff_exists', ne_eq, model?_eq_none_iff, not_not]

@[simp] theorem exists_version?_iff : (∃ r, t.version? key = some r) ↔ key ∈ t.keys := by
  rw [← Option.ne_none_iff_exists', ne_eq, version?_eq_none_iff, not_not]

theorem mem_names_of_model? {r : ModelRow} (found : t.model? name = some r) : name ∈ t.names :=
  exists_model?_iff.mp ⟨r, found⟩

theorem mem_keys_of_version? {r : VersionRow} (found : t.version? key = some r) : key ∈ t.keys :=
  exists_version?_iff.mp ⟨r, found⟩

theorem name_of_model? {r : ModelRow} (found : t.model? name = some r) : r.name = name :=
  key_of_find? found

theorem key_of_version? {r : VersionRow} (found : t.version? key = some r) : r.key = key :=
  key_of_find? found

section Update

variable {f : ModelRow → ModelRow} {g : VersionRow → VersionRow}

theorem names_updateModel (keeps : ∀ r, (f r).name = r.name) : (t.updateModel name f).names = t.names := by
  simp only [names, updateModel, List.map_map, Function.comp_def]
  congr 1
  funext r
  split <;> simp only [keeps]

theorem keys_updateVersion (keeps : ∀ r, (g r).key = r.key) : (t.updateVersion key g).keys = t.keys := by
  simp only [keys, updateVersion, List.map_map, Function.comp_def]
  congr 1
  funext r
  split <;> simp only [keeps]

/-- A change of one model's row shows under its name and nowhere else. -/
theorem model?_updateModel (keeps : ∀ r, (f r).name = r.name) (other : String) :
    (t.updateModel name f).model? other =
      if other = name then (t.model? other).map f else t.model? other := by
  have found : (t.updateModel name f).model? other =
      (t.model? other).map fun r => if r.name = name then f r else r :=
    find?_key_map fun r => by split <;> simp only [keeps]
  rw [found]
  cases at_ : t.model? other with
  | none => simp
  | some r =>
    rw [← name_of_model? at_]
    split <;> simp_all

theorem version?_updateVersion (keeps : ∀ r, (g r).key = r.key) (other : VersionKey) :
    (t.updateVersion key g).version? other =
      if other = key then (t.version? other).map g else t.version? other := by
  have found : (t.updateVersion key g).version? other =
      (t.version? other).map fun r => if r.key = key then g r else r :=
    find?_key_map fun r => by split <;> simp only [keeps]
  rw [found]
  cases at_ : t.version? other with
  | none => simp
  | some r =>
    rw [← key_of_version? at_]
    split <;> simp_all

theorem model?_changed (keeps : ∀ r, (f r).name = r.name) {r : ModelRow} (found : t.model? name = some r) :
    (t.updateModel name f).model? name = some (f r) := by
  rw [model?_updateModel keeps, if_pos rfl, found, Option.map_some]

theorem version?_changed (keeps : ∀ r, (g r).key = r.key) {r : VersionRow} (found : t.version? key = some r) :
    (t.updateVersion key g).version? key = some (g r) := by
  rw [version?_updateVersion keeps, if_pos rfl, found, Option.map_some]

end Update

end Tables

end ModelCatalog
