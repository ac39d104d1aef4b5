import ModelCatalog.Proofs.Agreement
import ModelCatalog.Proofs.OperationChecks

namespace ModelCatalog

/-- The name under which a model would be stored. A text that is too long is never stored, and stands for
itself. -/
def address (name : String) : String :=
  if fits nameWidth name then cut nameWidth name else name

theorem address_of_narrow {name : String} (narrow : name.toList.length ≤ nameWidth) : address name = name := by
  rw [address, if_pos (fits_of_length_le narrow), cut_of_length_le narrow]

theorem address_cut {name : String} (room : fits nameWidth name = true) :
    address (cut nameWidth name) = address name := by
  rw [address_of_narrow (length_cut_le _ _), address, if_pos room]

namespace Call

/-- The names by which a call addresses models. Listing the models of the catalog goes by no name. -/
def names? : Call → Option (List String)
  | listModels .. => none
  | createModel name .. | getModel name | describeModel name _ | deleteModel name => some [name]
  | tagModel name _ | untagModel name _ | createVersion name _ | listVersions name _ => some [name]
  | renameModel name newName => some [name, newName]
  | getVersion key | describeVersion key _ | moveVersion key _ | deleteVersion key => some [key.model]
  | versionUri key | tagVersion key _ | untagVersion key _ => some [key.model]

/-- The names with which a call can have to do: all that are stored where one of its own is. -/
def reach (call : Call) : Set String :=
  match call.names? with
  | none => Set.univ
  | some names => {other | ∃ name ∈ names, address other = address name}

theorem mem_reach {call : Call} {names : List String} {name : String} (addressed : call.names? = some names)
    (given : name ∈ names) : name ∈ call.reach := by
  rw [reach, addressed]
  exact ⟨name, given, rfl⟩

theorem cut_mem_reach {call : Call} {names : List String} {name : String} (addressed : call.names? = some names)
    (given : name ∈ names) (room : fits nameWidth name = true) : cut nameWidth name ∈ call.reach := by
  rw [reach, addressed]
  exact ⟨name, given, address_cut room⟩

end Call

/-- Two outcomes are the same error, or values that have to do with each other. -/
inductive SameOutcome {α : Type} (alike : α → α → Prop) : Except CatalogError α → Except CatalogError α → Prop
  | refused (e : CatalogError) : SameOutcome alike (.error e) (.error e)
  | served {a b : α} (related : alike a b) : SameOutcome alike (.ok a) (.ok b)

theorem SameOutcome.bind {α β : Type} {alike : α → α → Prop} {x : Except CatalogError β}
    {f g : β → Except CatalogError α} (later : ∀ b, x = .ok b → SameOutcome alike (f b) (g b)) :
    SameOutcome alike (x >>= f) (x >>= g) := by
  cases x with
  | error e => exact .refused e
  | ok b => exact later b rfl

/-- Two runs come to the same where it matters: the same error, or the same value and tables that agree. -/
abbrev Tables.SameRun {α : Type} (names : Set String) : (x y : Except CatalogError (α × Tables)) → Prop :=
  SameOutcome fun first second => first.1 = second.1 ∧ first.2.Agree names second.2

namespace Operation

open Tables (SameRun)

variable {t t' : Tables} {names : Set String} {name newName tag text : String} {key : VersionKey} {now : Instant}

theorem sameRun_answering {α : Type} {f : α → Answer} {operation : Except CatalogError (Operation α)}
    (same : SameRun names (attempt operation now t) (attempt operation now t')) :
    SameRun names (attempt (answering f operation) now t) (attempt (answering f operation) now t') := by
  rw [attempt_answering, attempt_answering]
  generalize attempt operation now t = first at same
  generalize attempt operation now t' = second at same
  cases same with
  | refused e => exact .refused e
  | served both => exact .served ⟨congrArg f both.1, both.2⟩

section Models

variable (sound : t.Sound) (sound' : t'.Sound) (same : t.Agree names t') (here : name ∈ names)

include same here in
theorem sameRun_getModel :
    SameRun names (attempt (getModel name) now t) (attempt (getModel name) now t') := by
  rw [attempt_getModel, attempt_getModel, same.model?_eq here]
  refine .bind fun _ _ => .bind fun r found => .served ⟨same.modelEntry_eq ?_, same⟩
  rwa [Tables.name_of_model? (expect_eq_ok.mp found)]

include same here in
theorem sameRun_describeModel :
    SameRun names (attempt (describeModel name text) now t) (attempt (describeModel name text) now t') := by
  rw [attempt_describeModel, attempt_describeModel, same.model?_eq here]
  refine .bind fun _ _ => .bind fun _ _ => .bind fun r found =>
    .served ⟨same.modelEntry_eq ?_, same.updateModel fun _ => rfl⟩
  rwa [Tables.name_of_model? (expect_eq_ok.mp found)]

include same here in
theorem sameRun_deleteModel :
    SameRun names (attempt (deleteModel name) now t) (attempt (deleteModel name) now t') := by
  rw [attempt_deleteModel, attempt_deleteModel, same.model?_eq here]
  exact .bind fun _ _ => .bind fun _ _ => .served ⟨rfl, same.withoutModel⟩

include sound sound' same in
theorem sameRun_createModel {description : Option String} {tags : List String}
    (stored : fits nameWidth name = true → cut nameWidth name ∈ names) :
    SameRun names (attempt (createModel name description tags) now t)
      (attempt (createModel name description tags) now t') := by
  rw [attempt_createModel sound, attempt_createModel sound']
  refine .bind fun _ _ => .bind fun tags _ => .bind fun _ _ => .bind fun owner fitted => ?_
  obtain ⟨room, rfl⟩ := fit_ok.mp fitted
  rw [same.hasModel_eq (stored room)]
  exact .bind fun _ _ => .bind fun _ _ => .bind fun _ _ => .served ⟨rfl, (same.addModel _).addModelTags _⟩

include sound sound' same here in
theorem sameRun_renameModel (new : newName ∈ names)
    (stored : fits nameWidth newName = true → cut nameWidth newName ∈ names) :
    SameRun names (attempt (renameModel name newName) now t) (attempt (renameModel name newName) now t') := by
  have tags := TagRow.read_congr (same.modelTags_eq here)
  rw [attempt_renameModel sound, attempt_renameModel sound', same.model?_eq here, same.hasModel_eq new, tags]
  refine .bind fun _ _ => .bind fun _ differ => .bind fun _ _ => .bind fun r _ => .bind fun _ _ =>
    .bind fun _ free => .bind fun _ _ => .bind fun owner fitted => ?_
  obtain ⟨room, rfl⟩ := fit_ok.mp fitted
  rw [same.hasModel_eq (stored room)]
  refine .bind fun _ _ => .bind fun _ _ => .served ⟨rfl, same.renamed here new ?_ sound sound' ?_⟩
  · exact Ne.symm (by simpa using differ)
  · rw [← same.hasModel_eq new] at free
    simpa using free

include sound sound' same here in
theorem sameRun_tagModel :
    SameRun names (attempt (tagModel name tag) now t) (attempt (tagModel name tag) now t') := by
  have rows := same.modelTags_eq here
  rw [attempt_tagModel sound, attempt_tagModel sound', same.model?_eq here, TagRow.front_congr rows]
  refine .bind fun _ _ => .bind fun _ _ => .bind fun _ _ => .bind fun _ _ => .bind fun _ _ =>
    .bind fun stored _ => ?_
  rw [TagRow.has_congr rows]
  split
  · exact .served ⟨rfl, same⟩
  · exact .bind fun _ _ => .served ⟨rfl, (same.addModelTags _).touchModel⟩

include same here in
theorem sameRun_untagModel :
    SameRun names (attempt (untagModel name tag) now t) (attempt (untagModel name tag) now t') := by
  rw [attempt_untagModel, attempt_untagModel, same.model?_eq here, TagRow.has_congr (same.modelTags_eq here)]
  exact .bind fun _ _ => .bind fun _ _ => .bind fun _ _ => .bind fun _ _ => .bind fun _ _ => .bind fun _ _ =>
    .served ⟨rfl, same.removeModelTag.touchModel⟩

include same here in
theorem sameRun_listVersions {tags : List String} :
    SameRun names (attempt (listVersions name tags) now t) (attempt (listVersions name tags) now t') := by
  rw [attempt_listVersions, attempt_listVersions, same.listedVersions_eq here]
  exact .bind fun _ _ => .served ⟨rfl, same⟩

include sound sound' same here in
theorem sameRun_createVersion {draft : VersionDraft} :
    SameRun names (attempt (createVersion name draft) now t) (attempt (createVersion name draft) now t') := by
  rw [attempt_createVersion sound, attempt_createVersion sound', same.model?_eq here]
  refine .bind fun tags _ => .bind fun _ _ => .bind fun r _ => ?_
  have taken : t.hasVersion ⟨name, r.counter + 1⟩ = t'.hasVersion ⟨name, r.counter + 1⟩ := same.hasVersion_eq here
  rw [taken]
  exact .bind fun _ _ => .bind fun _ _ => .bind fun _ _ => .bind fun _ _ => .served
    ⟨rfl, (same.countVersion.addVersion _).addVersionTags _⟩

end Models

section Versions

variable (sound : t.Sound) (sound' : t'.Sound) (same : t.Agree names t') (here : key.model ∈ names)

include same here in
theorem sameRun_getVersion :
    SameRun names (attempt (getVersion key) now t) (attempt (getVersion key) now t') := by
  rw [attempt_getVersion, attempt_getVersion, same.version?_eq here]
  refine .bind fun _ _ => .bind fun r found => .served ⟨same.versionEntry_eq ?_, same⟩
  rwa [Tables.key_of_version? (expect_eq_ok.mp found)]

include same here in
theorem sameRun_versionUri :
    SameRun names (attempt (versionUri key) now t) (attempt (versionUri key) now t') := by
  rw [attempt_versionUri, attempt_versionUri, same.version?_eq here]
  exact .bind fun _ _ => .bind fun _ _ => .served ⟨rfl, same⟩

include sound sound' same here in
theorem sameRun_describeVersion :
    SameRun names (attempt (describeVersion key text) now t) (attempt (describeVersion key text) now t') := by
  rw [attempt_describeVersion sound, attempt_describeVersion sound', same.version?_eq here]
  refine .bind fun _ _ => .bind fun _ _ => .bind fun r found =>
    .served ⟨same.versionEntry_eq ?_, Tables.Agree.touchModel (same.updateVersion fun _ => rfl)⟩
  rwa [Tables.key_of_version? (expect_eq_ok.mp found)]

include sound sound' same here in
theorem sameRun_moveVersion :
    SameRun names (attempt (moveVersion key text) now t) (attempt (moveVersion key text) now t') := by
  rw [attempt_moveVersion sound, attempt_moveVersion sound', same.version?_eq here]
  refine .bind fun _ _ => .bind fun _ _ => .bind fun r found =>
    .served ⟨same.versionEntry_eq ?_, Tables.Agree.touchModel (same.updateVersion fun _ => rfl)⟩
  rwa [Tables.key_of_version? (expect_eq_ok.mp found)]

include sound sound' same here in
theorem sameRun_deleteVersion :
    SameRun names (attempt (deleteVersion key) now t) (attempt (deleteVersion key) now t') := by
  rw [attempt_deleteVersion sound, attempt_deleteVersion sound', same.version?_eq here]
  exact .bind fun _ _ => .bind fun _ _ => .bind fun _ _ => .served ⟨rfl, same.withoutVersion.touchModel⟩

include sound sound' same here in
theorem sameRun_tagVersion :
    SameRun names (attempt (tagVersion key tag) now t) (attempt (tagVersion key tag) now t') := by
  have rows := same.versionTags_eq here
  rw [attempt_tagVersion sound, attempt_tagVersion sound', same.version?_eq here, TagRow.front_congr rows]
  refine .bind fun _ _ => .bind fun _ _ => .bind fun _ _ => .bind fun _ _ => .bind fun _ _ =>
    .bind fun stored _ => ?_
  rw [TagRow.has_congr rows]
  split
  · exact .served ⟨rfl, same⟩
  · exact .bind fun _ _ => .served ⟨rfl, (same.addVersionTags _).touchVersion.touchModel⟩

include sound sound' same here in
theorem sameRun_untagVersion :
    SameRun names (attempt (untagVersion key tag) now t) (attempt (untagVersion key tag) now t') := by
  rw [attempt_untagVersion sound, attempt_untagVersion sound', same.version?_eq here,
    TagRow.has_congr (same.versionTags_eq here)]
  exact .bind fun _ _ => .bind fun _ _ => .bind fun _ _ => .bind fun _ _ => .bind fun _ _ => .bind fun _ _ =>
    .served ⟨rfl, same.removeVersionTag.touchVersion.touchModel⟩

end Versions

theorem sameRun_listModels {filter : Option String} {tags : List String} (unique : t.names.Nodup)
    (same : t.Agree Set.univ t') :
    SameRun Set.univ (attempt (listModels filter tags) now t) (attempt (listModels filter tags) now t') := by
  rw [attempt_listModels, attempt_listModels, same.listedModels_eq unique]
  exact .bind fun _ _ => .served ⟨rfl, same⟩

end Operation

/-- Tables that agree on all names with which a call can have to do are alike to it. -/
theorem Call.sameRun {t t' : Tables} {names : Set String} {now : Instant} (call : Call) (sound : t.Sound)
    (sound' : t'.Sound) (same : t.Agree names t') (within : call.reach ⊆ names) :
    Tables.SameRun names (Operation.attempt call.operation? now t)
      (Operation.attempt call.operation? now t') := by
  have here : ∀ {given name}, call.names? = some given → name ∈ given → name ∈ names :=
    fun addressed member => within (mem_reach addressed member)
  have stored : ∀ {given name}, call.names? = some given → name ∈ given → fits nameWidth name = true →
      cut nameWidth name ∈ names :=
    fun addressed member room => within (cut_mem_reach addressed member room)
  cases call <;> simp only [operation?] <;> apply Operation.sameRun_answering
  case createModel => exact Operation.sameRun_createModel sound sound' same (stored rfl (by simp))
  case getModel => exact Operation.sameRun_getModel same (here rfl (by simp))
  case describeModel => exact Operation.sameRun_describeModel same (here rfl (by simp))
  case renameModel =>
    exact Operation.sameRun_renameModel sound sound' same (here rfl (by simp)) (here rfl (by simp))
      (stored rfl (by simp))
  case deleteModel => exact Operation.sameRun_deleteModel same (here rfl (by simp))
  case listModels =>
    cases Set.univ_subset_iff.mp within
    exact Operation.sameRun_listModels sound.names same
  case tagModel => exact Operation.sameRun_tagModel sound sound' same (here rfl (by simp))
  case untagModel => exact Operation.sameRun_untagModel same (here rfl (by simp))
  case createVersion => exact Operation.sameRun_createVersion sound sound' same (here rfl (by simp))
  case getVersion => exact Operation.sameRun_getVersion same (here rfl (by simp))
  case describeVersion => exact Operation.sameRun_describeVersion sound sound' same (here rfl (by simp))
  case moveVersion => exact Operation.sameRun_moveVersion sound sound' same (here rfl (by simp))
  case deleteVersion => exact Operation.sameRun_deleteVersion sound sound' same (here rfl (by simp))
  case listVersions => exact Operation.sameRun_listVersions same (here rfl (by simp))
  case versionUri => exact Operation.sameRun_versionUri same (here rfl (by simp))
  case tagVersion => exact Operation.sameRun_tagVersion sound sound' same (here rfl (by simp))
  case untagVersion => exact Operation.sameRun_untagVersion sound sound' same (here rfl (by simp))

/-- What a call changes stays within its reach. -/
theorem Operation.Succeeds.agree_outside {t t' : Tables} {call : Call} {a : Answer} {now : Instant}
    (sound : t.Sound) (done : Succeeds call.operation? now t a t') : t'.Agree (call.reachᶜ) t := by
  have away : ∀ {given name}, call.names? = some given → name ∈ given → name ∉ call.reachᶜ :=
    fun addressed member out => out (Call.mem_reach addressed member)
  cases sound.edit done with
  | read => exact .refl
  | @createModel name description tags a row new named tagged =>
    obtain ⟨m, made, -⟩ := succeeds_answering.mp done
    obtain ⟨-, -, -, -, -, room, -⟩ := createModel_succeeds.mp made
    have away : cut nameWidth name ∉ (Call.createModel name description tags).reachᶜ :=
      fun out => out (Call.cut_mem_reach rfl (by simp) room)
    exact (Tables.Agree.of_addModelTags away fun r member => (TagRow.of_mem_listed member).1).trans
      (.of_addModel away rfl)
  | describeModel => exact .of_updateModel (away rfl (by simp)) fun _ => rfl
  | renameModel => exact .of_renamed (away rfl (by simp)) (away rfl (by simp))
  | deleteModel => exact .of_withoutModel (away rfl (by simp))
  | tagModelAgain => exact .refl
  | tagModel =>
    have away := away rfl List.mem_cons_self
    exact (Tables.Agree.of_touchModel away).trans (.of_addModelTags away fun r member => by simp_all)
  | untagModel =>
    have away := away rfl List.mem_cons_self
    exact (Tables.Agree.of_touchModel away).trans (.of_removeModelTag away)
  | @createVersion name draft r v member named =>
    have away : name ∉ (Call.createVersion name draft).reachᶜ := away rfl List.mem_cons_self
    have key : (VersionRow.drafted ⟨name, r.counter + 1⟩ draft now.stored).key = ⟨name, r.counter + 1⟩ :=
      sound.drafted_key member named
    refine (Tables.Agree.of_addVersionTags ?_ fun r member => (TagRow.of_mem_listed member).1).trans
      ((Tables.Agree.of_addVersion ?_ key).trans (.of_updateModel away fun _ => rfl))
    · exact away
    · exact away
  | describeVersion | moveVersion =>
    have away := away rfl List.mem_cons_self
    exact (Tables.Agree.of_touchModel away).trans (.of_updateVersion away fun _ => rfl)
  | deleteVersion =>
    have away := away rfl List.mem_cons_self
    exact (Tables.Agree.of_touchModel away).trans (.of_withoutVersion away)
  | tagVersionAgain => exact .refl
  | tagVersion =>
    have away := away rfl List.mem_cons_self
    exact (Tables.Agree.of_touchModel away).trans ((Tables.Agree.of_touchVersion away).trans
      (.of_addVersionTags away fun r member => by simp_all))
  | untagVersion =>
    have away := away rfl List.mem_cons_self
    exact (Tables.Agree.of_touchModel away).trans ((Tables.Agree.of_touchVersion away).trans
      (.of_removeVersionTag away))

end ModelCatalog
