import Mathlib.Order.Basic
import ModelCatalog.Proofs.Chronicle
import ModelCatalog.Proofs.Deletion
import ModelCatalog.Proofs.StorageFaults

namespace ModelCatalog

/-- Times are compared as they are stored. -/
instance : Preorder Timestamp where
  le a b := a.micros ≤ b.micros
  le_refl a := Int.le_refl a.micros
  le_trans _ _ _ := Int.le_trans

instance : DecidableLE Timestamp :=
  fun a b => inferInstanceAs (Decidable (a.micros ≤ b.micros))

/-- The order of a clock, in which a leap second comes before the minute that it is stored in. -/
instance : LE Instant where
  le a b := a.seconds < b.seconds ∨ a.seconds = b.seconds ∧ a.nanos ≤ b.nanos

instance : DecidableLE Instant :=
  fun a b => inferInstanceAs (Decidable (a.seconds < b.seconds ∨ a.seconds = b.seconds ∧ a.nanos ≤ b.nanos))

namespace Timestamp

variable {a b : Timestamp}

/-- Stored times that are read back are in the order of the clock. -/
theorem instant_le_iff : a.instant ≤ b.instant ↔ a ≤ b := by
  change a.micros / 1000000 < b.micros / 1000000 ∨ a.micros / 1000000 = b.micros / 1000000 ∧
    (a.micros % 1000000).toNat * 1000 ≤ (b.micros % 1000000).toNat * 1000 ↔ a.micros ≤ b.micros
  omega

theorem instant_inj : a.instant = b.instant ↔ a = b := by
  refine ⟨fun same => ?_, congrArg instant⟩
  rw [← stored_instant a, same, stored_instant]

end Timestamp

/-- The clock may go forward while what is stored goes back. -/
example : ∃ a b : Instant, a ≤ b ∧ ¬ a.stored ≤ b.stored :=
  ⟨⟨59, 1500000000, by decide, by decide⟩, .ofSeconds 60, by decide, by decide⟩

/-- The account of the key that a version has, for as long as it is there. -/
def Ledger.currentKey : Ledger (Option VersionKey) where
  blank := none
  note current
    | .renameModel name newName, _ => current.map (Versions.moved name newName)
    | .deleteModel name, _ => current.filter (·.model ≠ name)
    | .deleteVersion key, _ => current.filter (· ≠ key)
    | _, _ => current

namespace Chronicle

variable {s : Chronicle} {latest : Option Timestamp} {now created : Timestamp} {name newName : String}
  {key : VersionKey} {t : Tables} {call : Call} {a : Answer}

/-- What a call that succeeds takes for granted: what it makes was not there before, and what it makes something of
was. -/
def Admits (s : Chronicle) : Call → Answer → Prop
  | .createModel name .., _ => s.models (cut nameWidth name) = none
  | .renameModel name newName, _ =>
    s.models name ≠ none ∧ s.models newName = none ∧ ∀ number, s.versions ⟨newName, number⟩ = none
  | .createVersion name _, .version v => s.models name ≠ none ∧ s.versions ⟨name, v.number⟩ = none
  | _, _ => True

theorem note_tagModel {tag : String} :
    s.note now t (.tagModel name tag) a = s ∨ s.note now t (.tagModel name tag) a = s.touchModel now name :=
  ite_eq_or_eq _ _ _

theorem note_tagVersion {tag : String} :
    s.note now t (.tagVersion key tag) a = s ∨ s.note now t (.tagVersion key tag) a = s.touchVersion now key :=
  ite_eq_or_eq _ _ _

/-- No model is older than its versions, nothing was changed before it was made, every change of a version was one of
its model, and nothing is later than the latest time. -/
structure Chained (latest : Option Timestamp) (s : Chronicle) : Prop where
  models : ∀ name d, s.models name = some d → d.created ≤ d.updated ∧ ∃ last ∈ latest, d.updated ≤ last
  versions : ∀ key d, s.versions key = some d → ∃ m, s.models key.model = some m ∧
    m.created ≤ d.created ∧ d.created ≤ d.updated ∧ d.updated ≤ m.updated

namespace Chained

theorem empty : Chained latest .empty :=
  ⟨nofun, nofun⟩

theorem past (chained : s.Chained latest) (later : ∀ last ∈ latest, last ≤ now) {d : Dates}
    (known : s.models name = some d) : d.created ≤ d.updated ∧ d.updated ≤ now := by
  obtain ⟨order, last, given, before⟩ := chained.models name d known
  exact ⟨order, le_trans before (later last given)⟩

theorem mono (chained : s.Chained latest) (later : ∀ last ∈ latest, last ≤ now) : s.Chained (some now) where
  models name d known := by
    obtain ⟨order, before⟩ := chained.past later known
    exact ⟨order, now, rfl, before⟩
  versions := chained.versions

theorem addModel (chained : s.Chained latest) (later : ∀ last ∈ latest, last ≤ now) (new : s.models name = none) :
    (s.addModel now name).Chained (some now) := by
  constructor
  case models =>
    intro other d known
    change Function.update s.models name _ other = some d at known
    rw [Function.update_apply] at known
    split at known
    · cases known
      exact ⟨le_rfl, now, rfl, le_rfl⟩
    · exact (chained.mono later).models other d known
  case versions =>
    intro key d known
    obtain ⟨m, there, order⟩ := chained.versions key d known
    have apart : key.model ≠ name := fun same => by
      rw [same, new] at there
      cases there
    exact ⟨m, (Function.update_of_ne apart _ _).trans there, order⟩

theorem touchModel (chained : s.Chained latest) (later : ∀ last ∈ latest, last ≤ now) :
    (s.touchModel now name).Chained (some now) := by
  constructor
  case models =>
    intro other d known
    change Function.update s.models name _ other = some d at known
    rw [Function.update_apply] at known
    split at known
    · obtain ⟨d, before, rfl⟩ := Option.map_eq_some_iff.mp known
      obtain ⟨order, before⟩ := chained.past later before
      exact ⟨le_trans order before, now, rfl, le_rfl⟩
    · exact (chained.mono later).models other d known
  case versions =>
    intro key d known
    obtain ⟨m, there, older, order, before⟩ := chained.versions key d known
    by_cases same : key.model = name
    · refine ⟨m.touched now, ?_, older, order, le_trans before (chained.past later there).2⟩
      change Function.update s.models name _ _ = _
      rw [same, Function.update_self, ← same, there]
      rfl
    · exact ⟨m, (Function.update_of_ne same _ _).trans there, older, order, before⟩

/-- A version may get any dates that lie between the making of its model and now. -/
theorem setVersion (chained : s.Chained latest) (later : ∀ last ∈ latest, last ≤ now) {dates : Option Dates}
    (fits : ∀ d, dates = some d → ∃ m, s.models key.model = some m ∧ m.created ≤ d.created ∧
      d.created ≤ d.updated ∧ d.updated ≤ now) : (s.setVersion now key dates).Chained (some now) := by
  have touched : (s.touchModel now key.model).Chained (some now) := chained.touchModel later
  constructor
  case models => exact touched.models
  case versions =>
    intro other d known
    change Function.update s.versions key dates other = some d at known
    rw [Function.update_apply] at known
    split at known
    · rename_i same
      subst same
      obtain ⟨m, there, order⟩ := fits d known
      refine ⟨m.touched now, ?_, order⟩
      change Function.update s.models _ _ _ = _
      rw [Function.update_self, there]
      rfl
    · exact touched.versions other d known

theorem touchVersion (chained : s.Chained latest) (later : ∀ last ∈ latest, last ≤ now) :
    (s.touchVersion now key).Chained (some now) := by
  refine chained.setVersion later fun d known => ?_
  obtain ⟨d, before, rfl⟩ := Option.map_eq_some_iff.mp known
  obtain ⟨m, there, older, order, before⟩ := chained.versions key d before
  have before := le_trans before (chained.past later there).2
  exact ⟨m, there, older, le_trans order before, le_rfl⟩

theorem removeModel (chained : s.Chained latest) : (s.removeModel name).Chained latest := by
  constructor
  case models =>
    intro other d known
    change Function.update s.models name none other = some d at known
    rw [Function.update_apply] at known
    split at known
    · cases known
    · exact chained.models other d known
  case versions =>
    intro key d known
    change (if key.model = name then none else s.versions key) = some d at known
    split at known
    · cases known
    · rename_i apart
      obtain ⟨m, there, order⟩ := chained.versions key d known
      exact ⟨m, (Function.update_of_ne apart _ _).trans there, order⟩

theorem renameModel (chained : s.Chained latest) (later : ∀ last ∈ latest, last ≤ now) :
    (s.renameModel now name newName).Chained (some now) := by
  constructor
  case models =>
    intro other d known
    change Function.update (Function.update s.models newName _) name none other = some d at known
    rw [Function.update_apply, Function.update_apply] at known
    split at known
    · cases known
    split at known
    · obtain ⟨d, before, rfl⟩ := Option.map_eq_some_iff.mp known
      obtain ⟨order, before⟩ := chained.past later before
      exact ⟨le_trans order before, now, rfl, le_rfl⟩
    · exact (chained.mono later).models other d known
  case versions =>
    intro key d known
    change (if key.model = name then none else if key.model = newName then s.versions ⟨name, key.number⟩
      else s.versions key) = some d at known
    change ∃ m, Function.update (Function.update s.models newName _) name none key.model = some m ∧ _
    split at known
    · cases known
    rename_i away
    rw [Function.update_of_ne away]
    split at known
    · rename_i moved
      obtain ⟨m, there, older, order, before⟩ := chained.versions ⟨name, key.number⟩ d known
      refine ⟨m.touched now, ?_, older, order, le_trans before (chained.past later there).2⟩
      change s.models name = some m at there
      rw [moved, Function.update_self, there]
      rfl
    · rename_i other
      obtain ⟨m, there, order⟩ := chained.versions key d known
      exact ⟨m, (Function.update_of_ne other _ _).trans there, order⟩

theorem note (chained : s.Chained latest) (admits : s.Admits call a)
    (later : call.stamps = true → ∀ last ∈ latest, last ≤ now) :
    (s.note now t call a).Chained (if call.stamps then some now else latest) := by
  cases call with
  | getModel | getVersion | versionUri | listModels | listVersions => exact chained
  | createModel => exact chained.addModel (later rfl) admits
  | describeModel | untagModel => exact chained.touchModel (later rfl)
  | renameModel => exact chained.renameModel (later rfl)
  | deleteModel => exact chained.removeModel
  | tagModel =>
    rcases note_tagModel with same | same <;> rw [same]
    · exact chained.mono (later rfl)
    · exact chained.touchModel (later rfl)
  | createVersion name draft =>
    cases a with
    | version v =>
      obtain ⟨m, there⟩ := Option.ne_none_iff_exists'.mp admits.1
      obtain ⟨order, before⟩ := chained.past (later rfl) there
      refine chained.setVersion (later rfl) fun d known => ?_
      cases known
      exact ⟨m, there, le_trans order before, le_rfl, le_rfl⟩
    | _ => exact chained.mono (later rfl)
  | describeVersion | moveVersion | untagVersion => exact chained.touchVersion (later rfl)
  | tagVersion =>
    rcases note_tagVersion with same | same <;> rw [same]
    · exact chained.mono (later rfl)
    · exact chained.touchVersion (later rfl)
  | deleteVersion => exact chained.setVersion (later rfl) nofun

end Chained

/-- When the models were made. -/
def born (s : Chronicle) (name : String) : Option Timestamp :=
  (s.models name).map (·.created)

/-- When the versions were made. -/
def versionBorn (s : Chronicle) (key : VersionKey) : Option Timestamp :=
  (s.versions key).map (·.created)

theorem born_touchModel : (s.touchModel now name).born = s.born := by
  funext other
  change (Function.update s.models name _ other).map _ = _
  rw [Function.update_apply]
  split
  · rename_i same
    rw [same, Option.map_map]
    rfl
  · rfl

theorem versionBorn_touchVersion : (s.touchVersion now key).versionBorn = s.versionBorn := by
  funext other
  change (Function.update s.versions key _ other).map _ = _
  rw [Function.update_apply]
  split
  · rename_i same
    rw [same, Option.map_map]
    rfl
  · rfl

/-- What is not there was never made. -/
theorem ne_of_born {free : String} (new : s.models free = none) (known : s.born name = some created) :
    name ≠ free := by
  intro same
  rw [born, same, new] at known
  cases known

theorem ne_of_versionBorn {free : VersionKey} (new : s.versions free = none)
    (known : s.versionBorn key = some created) : key ≠ free := by
  intro same
  rw [versionBorn, same, new] at known
  cases known

theorem born_renameModel {current : Option String} (there : s.models name ≠ none) (new : s.models newName = none)
    (known : ∀ other ∈ current, s.born other = some created) :
    ∀ other ∈ (if current = some name then some newName else current),
      (s.renameModel now name newName).born other = some created := by
  have differ : newName ≠ name := fun same => there (same ▸ new)
  intro other meant
  change (Function.update (Function.update s.models newName _) name none other).map _ = _
  split at meant
  · rename_i here
    cases meant
    rw [Function.update_of_ne differ, Function.update_self, Option.map_map]
    exact known name here
  · rename_i away
    have apart : other ≠ name := fun same => away (same ▸ meant)
    rw [Function.update_of_ne apart, Function.update_of_ne (ne_of_born new (known other meant))]
    exact known other meant

theorem versionBorn_renameModel {current : Option VersionKey} (there : s.models name ≠ none)
    (new : s.models newName = none) (free : ∀ number, s.versions ⟨newName, number⟩ = none)
    (known : ∀ other ∈ current, s.versionBorn other = some created) :
    ∀ other ∈ current.map (Versions.moved name newName),
      (s.renameModel now name newName).versionBorn other = some created := by
  have differ : newName ≠ name := fun same => there (same ▸ new)
  intro other meant
  obtain ⟨key, before, rfl⟩ := Option.map_eq_some_iff.mp meant
  have born := known key before
  unfold Versions.moved
  split
  · rename_i here
    change (if newName = name then none else if newName = newName then s.versions ⟨name, key.number⟩ else _).map _ = _
    rw [if_neg differ, if_pos rfl, ← here]
    exact born
  · rename_i away
    have apart : key.model ≠ newName := fun same => ne_of_versionBorn (free key.number) born (same ▸ rfl)
    change (if key.model = name then none else if key.model = newName then _ else s.versions key).map _ = _
    rw [if_neg away, if_neg apart]
    exact born

/-- A model that stays was made when it was made, whatever it is called. -/
theorem born_note {current : Option String} (admits : s.Admits call a)
    (known : ∀ name ∈ current, s.born name = some created) :
    ∀ name ∈ Ledger.currentName.note current call a, (s.note now t call a).born name = some created := by
  have touched : ∀ {other}, ∀ name ∈ current, (s.touchModel now other).born name = some created := by
    intro other
    rw [born_touchModel]
    exact known
  cases call with
  | getModel | getVersion | versionUri | listModels | listVersions => exact known
  | createModel given =>
    intro name meant
    change (Function.update s.models _ _ name).map _ = _
    rw [Function.update_of_ne (ne_of_born admits (known name meant))]
    exact known name meant
  | describeModel | untagModel => exact touched
  | renameModel old newName => exact born_renameModel admits.1 admits.2.1 known
  | deleteModel gone =>
    intro name meant
    change name ∈ (if current = some gone then none else current) at meant
    change (Function.update s.models gone none name).map _ = _
    split at meant
    · cases meant
    · rename_i away
      have apart : name ≠ gone := fun same => away (same ▸ meant)
      rw [Function.update_of_ne apart]
      exact known name meant
  | tagModel =>
    rcases note_tagModel with same | same <;> rw [same]
    · exact known
    · exact touched
  | createVersion name draft =>
    cases a with
    | version v => exact touched
    | _ => exact known
  | describeVersion | moveVersion | untagVersion | deleteVersion => exact touched
  | tagVersion =>
    rcases note_tagVersion with same | same <;> rw [same]
    · exact known
    · exact touched

/-- A version that stays was made when it was made, whatever its model is called. -/
theorem versionBorn_note {current : Option VersionKey} (admits : s.Admits call a)
    (known : ∀ key ∈ current, s.versionBorn key = some created) :
    ∀ key ∈ Ledger.currentKey.note current call a, (s.note now t call a).versionBorn key = some created := by
  have touched : ∀ {other}, ∀ key ∈ current, (s.touchVersion now other).versionBorn key = some created := by
    intro other
    rw [versionBorn_touchVersion]
    exact known
  cases call with
  | getModel | getVersion | versionUri | listModels | listVersions => exact known
  | createModel | describeModel | untagModel => exact known
  | renameModel old newName => exact versionBorn_renameModel admits.1 admits.2.1 admits.2.2 known
  | deleteModel gone =>
    intro key meant
    obtain ⟨meant, apart⟩ := Option.mem_filter_iff.mp meant
    change (if key.model = gone then none else s.versions key).map _ = _
    rw [if_neg (of_decide_eq_true apart)]
    exact known key meant
  | tagModel => rcases note_tagModel with same | same <;> rw [same] <;> exact known
  | createVersion name draft =>
    cases a with
    | version v =>
      intro key meant
      change (Function.update s.versions _ _ key).map _ = _
      rw [Function.update_of_ne (ne_of_versionBorn admits.2 (known key meant))]
      exact known key meant
    | _ => exact known
  | describeVersion | moveVersion | untagVersion => exact touched
  | deleteVersion gone =>
    intro key meant
    obtain ⟨meant, apart⟩ := Option.mem_filter_iff.mp meant
    change (Function.update s.versions gone none key).map _ = _
    rw [Function.update_of_ne (of_decide_eq_true apart)]
    exact known key meant
  | tagVersion =>
    rcases note_tagVersion with same | same <;> rw [same]
    · exact known
    · exact touched

end Chronicle

end ModelCatalog
