import ModelCatalog.Proofs.OperationChecks

namespace ModelCatalog

open Parameter (holdsZero)

namespace Call

/-- The model that a call needs to be there. Making one, and listing, needs none. -/
def needs? : Call → Option String
  | createModel .. | listModels .. | listVersions .. => none
  | getModel name | describeModel name _ | renameModel name _ | deleteModel name => some name
  | tagModel name _ | untagModel name _ | createVersion name _ => some name
  | getVersion key | describeVersion key _ | moveVersion key _ | deleteVersion key => some key.model
  | versionUri key | tagVersion key _ | untagVersion key _ => some key.model

/-- The texts that a call hands to the database, each with the width of the column it is meant for. -/
def texts : Call → List (Nat × String)
  | createModel name description tags =>
    (nameWidth, name) :: description.toList.map (descriptionWidth, ·) ++ tags.map (tagWidth, ·)
  | getModel name | deleteModel name => [(nameWidth, name)]
  | describeModel name text => [(nameWidth, name), (descriptionWidth, text)]
  | renameModel name newName => [(nameWidth, name), (nameWidth, newName)]
  | listModels filter tags => filter.toList.map (nameWidth, ·) ++ tags.map (tagWidth, ·)
  | tagModel name tag | untagModel name tag => [(nameWidth, name), (tagWidth, tag)]
  | createVersion name draft =>
    (nameWidth, name) :: [draft.id, draft.user, draft.experiment, draft.modelType].map (labelWidth, ·) ++
      draft.description.toList.map (descriptionWidth, ·) ++ draft.tags.map (tagWidth, ·)
  | getVersion key | versionUri key | moveVersion key _ | deleteVersion key => [(nameWidth, key.model)]
  | describeVersion key text => [(nameWidth, key.model), (descriptionWidth, text)]
  | listVersions name tags => (nameWidth, name) :: tags.map (tagWidth, ·)
  | tagVersion key tag | untagVersion key tag => [(nameWidth, key.model), (tagWidth, tag)]

/-- A call whose texts are clean and fit their columns, and whose arguments pass its own checks. -/
structure WellFormed (call : Call) : Prop where
  clean : ∀ w s, (w, s) ∈ call.texts → holdsZero s = false
  fits : ∀ w s, (w, s) ∈ call.texts → fits w s = true
  accepted : ∃ run, call.operation? = .ok run

end Call

/-- An outcome that something was not found. -/
def Missing {α : Type} (x : Except CatalogError α) : Prop :=
  ∃ e, x = .error e ∧ e.kind = .notFound

namespace Missing

variable {α β : Type} {x : Except CatalogError β} {f : β → Except CatalogError α}

theorem expect {e : CatalogError} (kind : e.kind = .notFound) : Missing (expect (none : Option α) e) :=
  ⟨e, rfl, kind⟩

theorem bind (missing : Missing x) : Missing (x >>= f) := by
  obtain ⟨e, rfl, kind⟩ := missing
  exact ⟨e, rfl, kind⟩

/-- What is missing is noticed after the checks that are passed. -/
theorem after {b : β} (passed : x = .ok b) (missing : Missing (f b)) : Missing (x >>= f) := by
  rw [passed]
  exact missing

end Missing

theorem Tables.Sound.version?_eq_none {t : Tables} {key : VersionKey} (sound : t.Sound)
    (free : key.model ∉ t.names) : t.version? key = none :=
  version?_eq_none_iff.mpr fun there => free (sound.owned key there)

namespace Operation

variable {α : Type} {t : Tables} {now : Instant}

theorem accepted_of_answering {f : α → Answer} {operation : Except CatalogError (Operation α)}
    (accepted : ∃ run, answering f operation = .ok run) : ∃ run, operation = .ok run := by
  obtain ⟨run, accepted⟩ := accepted
  cases operation with
  | error e => exact absurd accepted nofun
  | ok run => exact ⟨run, rfl⟩

theorem missing_answering {f : α → Answer} {operation : Except CatalogError (Operation α)}
    (missing : Missing (attempt operation now t)) : Missing (attempt (answering f operation) now t) := by
  rw [attempt_answering]
  exact missing.bind

end Operation

open Operation in
/-- A call whose model is missing says so, whatever else it was to do. -/
theorem Call.missing {t : Tables} {call : Call} {name : String} {now : Instant} (sound : t.Sound)
    (free : name ∉ t.names) (needs : call.needs? = some name) (formed : call.WellFormed)
    (timely : now.stored.isStorable = true) : Missing (attempt call.operation? now t) := by
  obtain ⟨clean, room, accepted⟩ := formed
  have read : ∀ {w s}, (w, s) ∈ call.texts → given [.text s] = .ok () := fun there => by
    simpa using clean _ _ there
  have absent := Tables.model?_eq_none_iff.mpr free
  have absentVersion : ∀ {key : VersionKey}, key.model = name → t.version? key = none :=
    fun here => sound.version?_eq_none (here ▸ free)
  cases call <;> cases needs <;> simp only [operation?] at accepted ⊢ <;> apply missing_answering <;>
    replace accepted := accepted_of_answering accepted <;> obtain ⟨run, accepted⟩ := accepted
  case getModel =>
    rw [attempt_getModel, absent]
    exact .after (read List.mem_cons_self) (.bind (.expect rfl))
  case deleteModel =>
    rw [attempt_deleteModel, absent]
    exact .after (read List.mem_cons_self) (.bind (.expect rfl))
  case describeModel text =>
    have cleanText := clean descriptionWidth text (by simp [texts])
    have read : given [.text name, .text text, .time now.stored] = .ok () := by
      simpa [cleanText, timely] using clean _ _ List.mem_cons_self
    have fitted := fit_ok.mpr ⟨room descriptionWidth text (by simp [texts]), rfl⟩
    rw [attempt_describeModel, absent]
    exact .after read (.after fitted (.bind (.expect rfl)))
  case renameModel newName =>
    obtain ⟨_, filled, accepted⟩ := bind_eq_ok.mp accepted
    obtain ⟨_, differ, -⟩ := bind_eq_ok.mp accepted
    rw [attempt_renameModel sound, absent]
    exact .after filled (.after differ (.after (read List.mem_cons_self) (.bind (.expect rfl))))
  case tagModel tag =>
    obtain ⟨_, filled, -⟩ := bind_eq_ok.mp accepted
    rw [attempt_tagModel sound, absent]
    exact .after filled (.after (read List.mem_cons_self) (.bind (.expect rfl)))
  case untagModel tag =>
    obtain ⟨_, filled, -⟩ := bind_eq_ok.mp accepted
    rw [attempt_untagModel, absent]
    exact .after filled (.after (read List.mem_cons_self) (.bind (.expect rfl)))
  case createVersion draft =>
    obtain ⟨tags, filled, -⟩ := bind_eq_ok.mp accepted
    have read : given [.text name, .time now.stored] = .ok () := by
      simpa [timely] using clean _ _ List.mem_cons_self
    rw [attempt_createVersion sound, absent]
    exact .after filled (.after read (.bind (.expect rfl)))
  case getVersion key =>
    rw [attempt_getVersion, absentVersion rfl]
    exact .after (read List.mem_cons_self) (.bind (.expect rfl))
  case versionUri key =>
    rw [attempt_versionUri, absentVersion rfl]
    exact .after (read List.mem_cons_self) (.bind (.expect rfl))
  case describeVersion key text =>
    have cleanText := clean descriptionWidth text (by simp [texts])
    have read : given [.text key.model, .text text, .time now.stored] = .ok () := by
      simpa [cleanText, timely] using clean _ _ List.mem_cons_self
    have fitted := fit_ok.mpr ⟨room descriptionWidth text (by simp [texts]), rfl⟩
    rw [attempt_describeVersion sound, absentVersion rfl]
    exact .after read (.after fitted (.bind (.expect rfl)))
  case moveVersion key text =>
    obtain ⟨stage, meant, -⟩ := bind_eq_ok.mp accepted
    have read : given [.text key.model, .time now.stored] = .ok () := by
      simpa [timely] using clean _ _ List.mem_cons_self
    rw [attempt_moveVersion sound, absentVersion rfl]
    exact .after meant (.after read (.bind (.expect rfl)))
  case deleteVersion key =>
    rw [attempt_deleteVersion sound, absentVersion rfl]
    exact .after (read List.mem_cons_self) (.bind (.expect rfl))
  case tagVersion key tag =>
    obtain ⟨_, filled, -⟩ := bind_eq_ok.mp accepted
    rw [attempt_tagVersion sound, absentVersion rfl]
    exact .after filled (.after (read List.mem_cons_self) (.bind (.expect rfl)))
  case untagVersion key tag =>
    obtain ⟨_, filled, -⟩ := bind_eq_ok.mp accepted
    rw [attempt_untagVersion sound, absentVersion rfl]
    exact .after filled (.after (read List.mem_cons_self) (.bind (.expect rfl)))

end ModelCatalog
