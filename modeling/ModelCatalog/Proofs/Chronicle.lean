import Mathlib.Logic.Function.Basic
import ModelCatalog.Proofs.Consistency
import ModelCatalog.Proofs.RenamedRows

namespace ModelCatalog

/-- When something was made, and when it was last changed. -/
structure Dates where
  created : Timestamp
  updated : Timestamp
deriving DecidableEq, Repr

def Dates.touched (now : Timestamp) (d : Dates) : Dates :=
  { d with updated := now }

def ModelRow.dates (r : ModelRow) : Dates :=
  ⟨r.createdAt, r.updatedAt⟩

def VersionRow.dates (r : VersionRow) : Dates :=
  ⟨r.createdAt, r.updatedAt⟩

/-- The dates of everything that is there. -/
@[ext] structure Chronicle where
  models : String → Option Dates
  versions : VersionKey → Option Dates

namespace Chronicle

variable (now : Timestamp) (s : Chronicle)

def empty : Chronicle :=
  ⟨fun _ => none, fun _ => none⟩

def addModel (name : String) : Chronicle :=
  { s with models := Function.update s.models name (some ⟨now, now⟩) }

def touchModel (name : String) : Chronicle :=
  { s with models := Function.update s.models name ((s.models name).map (·.touched now)) }

/-- What happens to a version happens to its model as well. -/
def setVersion (key : VersionKey) (dates : Option Dates) : Chronicle :=
  { s.touchModel now key.model with versions := Function.update s.versions key dates }

def touchVersion (key : VersionKey) : Chronicle :=
  s.setVersion now key ((s.versions key).map (·.touched now))

def removeModel (name : String) : Chronicle where
  models := Function.update s.models name none
  versions key := if key.model = name then none else s.versions key

/-- A model that is renamed is changed, its versions are only taken along. -/
def renameModel (name newName : String) : Chronicle where
  models := Function.update (Function.update s.models newName ((s.models name).map (·.touched now))) name none
  versions key :=
    if key.model = name then none
    else if key.model = newName then s.versions ⟨name, key.number⟩
    else s.versions key

/-- What a call that succeeds adds to the chronicle. Of the tables that it meets only the tags count: a tag that is
there already is not added again. -/
def note (t : Tables) : Call → Answer → Chronicle
  | .createModel name .., _ => s.addModel now (cut nameWidth name)
  | .describeModel name _, _ | .untagModel name _, _ => s.touchModel now name
  | .tagModel name tag, _ =>
    if cut tagWidth tag ∈ TagRow.read name t.modelTags then s else s.touchModel now name
  | .renameModel name newName, _ => s.renameModel now name newName
  | .deleteModel name, _ => s.removeModel name
  | .createVersion name _, .version v => s.setVersion now ⟨name, v.number⟩ (some ⟨now, now⟩)
  | .describeVersion key _, _ | .moveVersion key _, _ | .untagVersion key _, _ => s.touchVersion now key
  | .tagVersion key tag, _ =>
    if cut tagWidth tag ∈ TagRow.read key t.versionTags then s else s.touchVersion now key
  | .deleteVersion key, _ => s.setVersion now key none
  | _, _ => s

end Chronicle

section KeyedRows

variable {κ ρ : Type} [DecidableEq κ] {key : ρ → κ} {rows : List ρ}

/-- A row with a new key at the end is found under that key. -/
theorem find?_key_append {row : ρ} (new : key row ∉ rows.map key) (k : κ) :
    (rows ++ [row]).find? (key · = k) = if k = key row then some row else rows.find? (key · = k) := by
  rw [List.find?_append, List.find?_singleton]
  by_cases same : k = key row
  · subst same
    rw [find?_key_eq_none_iff.mpr new, if_pos rfl, if_pos (decide_eq_true rfl), Option.none_or]
  · rw [if_neg same, if_neg (by simpa using Ne.symm same), Option.or_none]

/-- Rows that are kept for their keys are found as before. -/
theorem find?_key_filter (keep : κ → Bool) (k : κ) :
    (rows.filter (keep ∘ key)).find? (key · = k) = if keep k then rows.find? (key · = k) else none := by
  split
  · rename_i kept
    rw [List.find?_filter]
    refine List.find?_congr fun r _ => ?_
    by_cases found : key r = k <;> simp [found, kept]
  · rename_i gone
    rw [find?_key_eq_none_iff]
    intro there
    obtain ⟨r, member, same⟩ := List.mem_map.mp there
    exact gone (same ▸ (List.mem_filter.mp member).2)

end KeyedRows

namespace Tables

variable {t t' : Tables} {name newName : String} {key : VersionKey} {now : Timestamp}

def modelDates (t : Tables) (name : String) : Option Dates :=
  (t.model? name).map ModelRow.dates

def versionDates (t : Tables) (key : VersionKey) : Option Dates :=
  (t.version? key).map VersionRow.dates

/-- The chronicle that the rows tell. -/
def chronicle (t : Tables) : Chronicle :=
  ⟨t.modelDates, t.versionDates⟩

theorem modelDates_addModel {row : ModelRow} (new : row.name ∉ t.names) :
    (t.addModel row).modelDates = Function.update t.modelDates row.name (some row.dates) := by
  funext other
  rw [Function.update_apply, modelDates, model?_addModel new]
  split <;> rfl

theorem modelDates_updateModel {f : ModelRow → ModelRow} (keeps : ∀ r, (f r).name = r.name) {d : Dates → Dates}
    (dates : ∀ r, (f r).dates = d r.dates) :
    (t.updateModel name f).modelDates = Function.update t.modelDates name ((t.modelDates name).map d) := by
  funext other
  rw [Function.update_apply, modelDates, modelDates, model?_updateModel keeps]
  by_cases same : other = name
  · subst same
    rw [if_pos rfl, if_pos rfl, Option.map_map, Option.map_map]
    exact congrArg (Option.map · _) (funext dates)
  · rw [if_neg same, if_neg same]
    rfl

theorem versionDates_updateVersion {f : VersionRow → VersionRow} (keeps : ∀ r, (f r).key = r.key)
    {d : Dates → Dates} (dates : ∀ r, (f r).dates = d r.dates) :
    (t.updateVersion key f).versionDates = Function.update t.versionDates key ((t.versionDates key).map d) := by
  funext other
  rw [Function.update_apply, versionDates, versionDates, version?_updateVersion keeps]
  by_cases same : other = key
  · subst same
    rw [if_pos rfl, if_pos rfl, Option.map_map, Option.map_map]
    exact congrArg (Option.map · _) (funext dates)
  · rw [if_neg same, if_neg same]
    rfl

theorem versionDates_addVersion {row : VersionRow} (new : row.key ∉ t.keys) :
    (t.addVersion row).versionDates = Function.update t.versionDates row.key (some row.dates) := by
  funext other
  rw [Function.update_apply, versionDates, version?, addVersion_versions, find?_key_append new]
  split <;> rfl

theorem modelDates_withoutModel :
    (t.withoutModel name).modelDates = Function.update t.modelDates name none := by
  funext other
  have found : (t.withoutModel name).model? other = if decide (other ≠ name) then t.model? other else none :=
    find?_key_filter (fun other => decide (other ≠ name)) other
  rw [Function.update_apply, modelDates, found]
  by_cases same : other = name <;> simp [same, modelDates]

theorem versionDates_withoutModel : (t.withoutModel name).versionDates =
    fun key => if key.model = name then none else t.versionDates key := by
  funext key
  have found : (t.withoutModel name).version? key =
      if decide (key.model ≠ name) then t.version? key else none :=
    find?_key_filter (fun key : VersionKey => decide (key.model ≠ name)) key
  rw [versionDates, found]
  by_cases same : key.model = name <;> simp [same, versionDates]

theorem versionDates_withoutVersion :
    (t.withoutVersion key).versionDates = Function.update t.versionDates key none := by
  funext other
  have found : (t.withoutVersion key).version? other = if decide (other ≠ key) then t.version? other else none :=
    find?_key_filter (fun other => decide (other ≠ key)) other
  rw [Function.update_apply, versionDates, found]
  by_cases same : other = key <;> simp [same, versionDates]

theorem modelDates_renamed (there : name ∈ t.names) (new : newName ∉ t.names) :
    (t.renamed name newName now).modelDates = (t.chronicle.renameModel now name newName).models := by
  have differ : newName ≠ name := fun same => new (same ▸ there)
  funext other
  rw [modelDates, model?_renamed new differ]
  simp only [Chronicle.renameModel, chronicle, Function.update_apply]
  split
  · rfl
  split
  · rw [modelDates, Option.map_map, Option.map_map]
    rfl
  · rfl

theorem versionDates_renamed (sound : t.Sound) (there : name ∈ t.names) (new : newName ∉ t.names) :
    (t.renamed name newName now).versionDates = (t.chronicle.renameModel now name newName).versions := by
  have differ : newName ≠ name := fun same => new (same ▸ there)
  funext key
  rw [versionDates, version?_renamed sound new differ]
  simp only [Chronicle.renameModel, chronicle]
  by_cases old : key.model = name
  · rw [if_pos old, if_pos old]
    rfl
  rw [if_neg old, if_neg old]
  by_cases moved : key.model = newName
  · rw [if_pos moved, if_pos moved, versionDates, Option.map_map]
    rfl
  · rw [if_neg moved, if_neg moved]
    rfl

theorem chronicle_updateModel {f : ModelRow → ModelRow} (keeps : ∀ r, (f r).name = r.name)
    (touches : ∀ r, (f r).dates = r.dates.touched now) :
    (t.updateModel name f).chronicle = t.chronicle.touchModel now name :=
  congrArg₂ Chronicle.mk (modelDates_updateModel keeps touches) rfl

theorem chronicle_touchModel : (t.touchModel name now).chronicle = t.chronicle.touchModel now name :=
  chronicle_updateModel (fun _ => rfl) fun _ => rfl

theorem chronicle_describeModel {text : String} :
    (t.describeModel name text now).chronicle = t.chronicle.touchModel now name :=
  chronicle_updateModel (fun _ => rfl) fun _ => rfl

theorem chronicle_countVersion : (t.countVersion name now).chronicle = t.chronicle.touchModel now name :=
  chronicle_updateModel (fun _ => rfl) fun _ => rfl

theorem chronicle_setCounter {number : Int} {n : Nat} (done : (Models.setCounter name number).on t = .ok (n, t')) :
    t'.chronicle = t.chronicle := by
  obtain ⟨-, rfl, -⟩ := Models.setCounter_ok.mp done
  have same : (t.writeCounter name number).modelDates =
      Function.update t.modelDates name ((t.modelDates name).map id) :=
    modelDates_updateModel (fun _ => by rfl) fun _ => by rfl
  rw [Option.map_id, id, Function.update_eq_self] at same
  exact congrArg₂ Chronicle.mk same rfl

theorem chronicle_setDataset {dataset : Option String} {n : Nat}
    (done : (Versions.setDataset key dataset).on t = .ok (n, t')) : t'.chronicle = t.chronicle := by
  obtain ⟨-, -, -, rfl, -⟩ := Versions.setDataset_ok.mp done
  have same : (t.writeDataset key dataset).versionDates =
      Function.update t.versionDates key ((t.versionDates key).map id) :=
    versionDates_updateVersion (fun _ => by rfl) fun _ => by rfl
  rw [Option.map_id, id, Function.update_eq_self] at same
  exact congrArg₂ Chronicle.mk rfl same

/-- A version whose dates change, and then the touch of its model. -/
theorem chronicle_setVersion {s : Tables} {dates : Option Dates} (models : s.modelDates = t.modelDates)
    (versions : s.versionDates = Function.update t.versionDates key dates) :
    (s.touchModel key.model now).chronicle = t.chronicle.setVersion now key dates := by
  rw [chronicle_touchModel]
  simp only [chronicle, Chronicle.setVersion, Chronicle.touchModel, models, versions]

theorem chronicle_touchVersion {s : Tables} {f : VersionRow → VersionRow} (models : s.modelDates = t.modelDates)
    (versions : s.versionDates = t.versionDates) (keeps : ∀ r, (f r).key = r.key)
    (touches : ∀ r, (f r).dates = r.dates.touched now) :
    ((s.updateVersion key f).touchModel key.model now).chronicle = t.chronicle.touchVersion now key := by
  refine chronicle_setVersion models ?_
  rw [versionDates_updateVersion keeps touches, versions]
  rfl

/-- After a call that succeeds, the rows have the dates that the call is known to give them. -/
theorem Sound.chronicle_afterEdit {call : Call} {a : Answer} (sound : t.Sound) (edit : t.Edit now call a t') :
    t'.chronicle = t.chronicle.note now t call a := by
  cases edit with
  | @read call a reads =>
    cases call with
    | getModel | getVersion | versionUri | listModels | listVersions => rfl
    | _ => exact absurd reads nofun
  | createModel row new => exact congrArg₂ Chronicle.mk (modelDates_addModel new) rfl
  | describeModel => exact chronicle_describeModel
  | renameModel there new =>
    exact congrArg₂ Chronicle.mk (modelDates_renamed there new) (versionDates_renamed sound there new)
  | deleteModel => exact congrArg₂ Chronicle.mk modelDates_withoutModel versionDates_withoutModel
  | tagModelAgain there old => exact (if_pos (TagRow.mem_read.mpr old)).symm
  | tagModel there new => exact chronicle_touchModel.trans (if_neg (new ∘ TagRow.mem_read.mp)).symm
  | untagModel => exact chronicle_touchModel
  | @createVersion name draft r v member named room new filled tagged row number =>
    have key : (VersionRow.drafted ⟨name, r.counter + 1⟩ draft now).key = ⟨name, r.counter + 1⟩ :=
      sound.drafted_key member named
    refine congrArg₂ Chronicle.mk (congrArg Chronicle.models chronicle_countVersion) ?_
    change ((t.countVersion name now).addVersion _).versionDates = Function.update _ _ _
    rw [versionDates_addVersion (by rwa [key]), key, number]
    rfl
  | describeVersion => exact chronicle_touchVersion rfl rfl (fun _ => rfl) fun _ => rfl
  | moveVersion => exact chronicle_touchVersion rfl rfl (fun _ => rfl) fun _ => rfl
  | deleteVersion => exact chronicle_setVersion rfl versionDates_withoutVersion
  | tagVersionAgain there old => exact (if_pos (TagRow.mem_read.mpr old)).symm
  | tagVersion there new =>
    refine .trans ?_ (if_neg (new ∘ TagRow.mem_read.mp)).symm
    exact chronicle_touchVersion rfl rfl (fun _ => rfl) fun _ => rfl
  | untagVersion => exact chronicle_touchVersion rfl rfl (fun _ => rfl) fun _ => rfl

end Tables

/-- How a catalog's calls are noted at the time of its clock. -/
def Chronicle.ledger (c : Catalog) : Ledger Chronicle where
  blank := .empty
  note s := s.note c.clock.reading.stored c.database.tables

namespace Catalog

variable {c : Catalog} {e : Event}

/-- The chronicle at the end of a session, from what is known at its start. -/
def chronicle (c : Catalog) (s : Chronicle) : List Event → Chronicle
  | [] => s
  | e :: rest =>
    (c.step e).2.chronicle ((Chronicle.ledger c).next (homeSchema c.schema) s (e, (c.step e).1)) rest

theorem Outcome.chronicle_eq {response : Response} {after : Catalog} (outcome : c.Outcome e response after)
    (sound : c.database.tables.Sound) : after.database.tables.Sound ∧ after.database.tables.chronicle =
      (Chronicle.ledger c).next (homeSchema c.schema) c.database.tables.chronicle (e, response) := by
  cases outcome with
  | refused err =>
    rw [Ledger.next_of_idle (by rfl)]
    exact ⟨sound, rfl⟩
  | brokenOff =>
    rw [Ledger.next_of_idle (by rfl)]
    exact ⟨sound, rfl⟩
  | @served _ t t' r live turn =>
    have here : c.database.tables = t := congrArg Database.tables live
    rw [here] at sound ⊢
    refine ⟨sound.afterTurn turn, ?_⟩
    cases turn with
    | call done =>
      have noted := sound.chronicle_afterEdit (sound.edit done)
      rw [← here] at noted ⊢
      exact noted
    | dataset done => exact Tables.chronicle_setDataset done
    | counter done => exact Tables.chronicle_setCounter done
  | dropped =>
    rw [Ledger.next_dropped, Database.tables_bare]
    exact ⟨.empty, rfl⟩
  | quiet same call drop =>
    rw [same, Ledger.next_quiet call drop]
    exact ⟨sound, rfl⟩

/-- The rows have the dates that the session is known to have given them. -/
theorem chronicle_steps (sound : c.database.tables.Sound) (events : List Event) :
    (c.steps events).2.database.tables.Sound ∧
      (c.steps events).2.database.tables.chronicle = c.chronicle c.database.tables.chronicle events := by
  induction events generalizing c with
  | nil => exact ⟨sound, rfl⟩
  | cons e rest ih =>
    obtain ⟨sound', noted⟩ := (c.step_outcome e).chronicle_eq sound
    rw [chronicle, ← noted]
    exact ih sound'

end Catalog

end ModelCatalog
