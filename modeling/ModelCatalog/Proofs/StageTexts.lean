import ModelCatalog.Proofs.Consistency

namespace ModelCatalog

/-- A letter from `a` to `z` as the capital it has, and any other character as it is. -/
def capital (c : Char) : Char :=
  if 'a' ≤ c ∧ c ≤ 'z' then Char.ofNat (c.toNat - 32) else c

/-- Two texts have the same length, and the same characters once the letters from `a` to `z` are capitals. -/
def SameButCase (s s' : String) : Prop :=
  s.length = s'.length ∧
    ∀ (i : Nat) (c d : Char), s.toList[i]? = some c → s'.toList[i]? = some d → capital c = capital d

variable {s s' : String} {stage : Stage}

theorem toUpper_eq_capital (c : Char) : c.toUpper = capital c := by
  have small : ∀ n < 123, (Char.ofNat n).toUpper = capital (Char.ofNat n) := by decide
  by_cases letter : 'a' ≤ c ∧ c ≤ 'z'
  · have upper := small c.toNat (Nat.lt_succ_of_le (UInt32.le_iff_toNat_le.mp letter.2))
    rwa [Char.ofNat_toNat] at upper
  · rw [capital, if_neg letter]
    exact dif_neg letter

theorem sameButCase_iff : SameButCase s s' ↔ s.toList.map Char.toUpper = s'.toList.map Char.toUpper := by
  have raise : Char.toUpper = capital := funext toUpper_eq_capital
  rw [SameButCase, raise, ← String.length_toList, ← String.length_toList]
  constructor
  · rintro ⟨long, same⟩
    refine List.ext_getElem (by simpa using long) fun i first second => ?_
    rw [List.getElem_map, List.getElem_map]
    rw [List.length_map] at first second
    exact same i _ _ (List.getElem?_eq_getElem first) (List.getElem?_eq_getElem second)
  · intro same
    refine ⟨by simpa using congrArg List.length same, fun i c d first second => ?_⟩
    have place := congrArg (·[i]?) same
    simpa [first, second] using place

theorem SameButCase.symm (same : SameButCase s s') : SameButCase s' s :=
  sameButCase_iff.mpr (sameButCase_iff.mp same).symm

theorem SameButCase.trans {s'' : String} (one : SameButCase s s') (other : SameButCase s' s'') : SameButCase s s'' :=
  sameButCase_iff.mpr ((sameButCase_iff.mp one).trans (sameButCase_iff.mp other))

namespace Stage

theorem toUpper_name (stage : Stage) : stage.name.toList.map Char.toUpper = stage.name.toList := by
  cases stage <;> decide

/-- A text is read as the stage whose name it is up to the case of its letters. -/
theorem ofText?_eq_some_iff : ofText? s = some stage ↔ SameButCase s stage.name := by
  rw [sameButCase_iff, toUpper_name]
  constructor
  · intro found
    have matched := List.find?_some (p := fun stage : Stage => stage.name.toList == s.toList.map Char.toUpper) found
    exact (eq_of_beq matched).symm
  · intro same
    rw [ofText?, same]
    cases stage <;> decide

theorem ofText?_name (stage : Stage) : ofText? stage.name = some stage :=
  ofText?_eq_some_iff.mpr (sameButCase_iff.mpr rfl)

/-- The error for a text that is no stage holds the text as it was given. -/
theorem message_unknownStage (s : String) : (CatalogError.argument (.unknownStage s)).message =
    "Invalid argument: Invalid model stage '" ++ s ++
      "'. Expected one of: NONE, DEVELOPING, PRODUCTION, ARCHIVED" := by
  have joined : "Invalid argument: Invalid model stage '" = "Invalid argument: " ++ "Invalid model stage '" := by decide
  rw [joined, String.append_assoc, String.append_assoc]
  unfold CatalogError.message ArgumentFault.message
  simp only [ToString.toString, String.append_assoc]

end Stage

namespace Tables

variable {t t' : Tables} {key : VersionKey} {now : Timestamp}

/-- The stages of all versions. -/
def stages (t : Tables) : List Stage :=
  t.versions.map (·.stage)

theorem stages_updateVersion {g : VersionRow → VersionRow} (keeps : ∀ r, (g r).stage = r.stage) :
    (t.updateVersion key g).stages = t.stages := by
  simp only [stages, updateVersion, List.map_map]
  refine List.map_congr_left fun r _ => ?_
  simp only [Function.comp_apply]
  split <;> simp only [keeps]

theorem mem_stages_moveVersion {asked : Stage} (member : stage ∈ (t.moveVersion key asked now).stages) :
    stage ∈ t.stages ∨ stage = asked := by
  obtain ⟨_, changed, rfl⟩ := List.mem_map.mp member
  obtain ⟨r, old, rfl⟩ := List.mem_map.mp changed
  split
  · exact .inr rfl
  · exact .inl (List.mem_map_of_mem old)

/-- A call brings no stages into the tables but the first one and the one that it names. -/
theorem Edit.mem_stages {call : Call} {a : Answer} (edit : t.Edit now call a t') (member : stage ∈ t'.stages) :
    stage ∈ t.stages ∨ stage = .initial ∨ ∃ key text, call = .moveVersion key text ∧ SameButCase text stage.name := by
  cases edit with
  | renameModel =>
    refine .inl ?_
    rw [stages, renamed_versions, List.map_map] at member
    exact member
  | deleteModel | deleteVersion => exact .inl ((List.filter_sublist.map _).subset member)
  | createVersion =>
    obtain ⟨r, there, rfl⟩ := List.mem_map.mp member
    rcases List.mem_append.mp there with old | new
    · exact .inl (List.mem_map_of_mem old)
    · exact .inr (.inl (congrArg VersionRow.stage (List.mem_singleton.mp new)))
  | @describeVersion key text =>
    have kept : (t.describeVersion key text now).stages = t.stages := stages_updateVersion fun _ => rfl
    exact .inl (kept ▸ member)
  | moveVersion there meant =>
    rcases mem_stages_moveVersion member with old | rfl
    · exact .inl old
    · exact .inr (.inr ⟨_, _, rfl, Stage.ofText?_eq_some_iff.mp meant⟩)
  | @tagVersion key | @untagVersion key =>
    have kept : (t.touchVersion key now).stages = t.stages := stages_updateVersion fun _ => rfl
    exact .inl (kept ▸ member)
  | _ => exact .inl member

theorem Turn.mem_stages {now : Instant} {e : Event} {r : Reply} (sound : t.Sound) (turn : t.Turn now e r t')
    (member : stage ∈ t'.stages) : stage ∈ t.stages ∨ stage = .initial ∨
      ∃ key text, e = .call (.moveVersion key text) ∧ SameButCase text stage.name := by
  cases turn with
  | call done =>
    rcases (sound.edit done).mem_stages member with old | first | ⟨key, text, rfl, meant⟩
    · exact .inl old
    · exact .inr (.inl first)
    · exact .inr (.inr ⟨key, text, rfl, meant⟩)
  | @dataset key dataset n t' done =>
    obtain ⟨-, -, -, rfl, -⟩ := Versions.setDataset_ok.mp done
    have kept : (t.writeDataset key dataset).stages = t.stages := stages_updateVersion fun _ => rfl
    exact .inl (kept ▸ member)
  | counter done =>
    obtain ⟨-, rfl, -⟩ := Models.setCounter_ok.mp done
    exact .inl member

end Tables

/-- A stage is the first one of every version, or one that some call names. -/
def Stage.NamedBy (events : List Event) (stage : Stage) : Prop :=
  stage = .initial ∨ ∃ key text, .call (.moveVersion key text) ∈ events ∧ SameButCase text stage.name

namespace Catalog

variable {c : Catalog} {events : List Event}

/-- In a session no version gets to a stage that no call has named. -/
theorem named_steps (fresh : c.Fresh) (events : List Event) :
    ∀ stage ∈ (c.steps events).2.database.tables.stages, stage.NamedBy events := by
  have all : ∀ e ∈ events, e ∈ events := fun _ => id
  have both := steps_holds (fun t => t.Sound ∧ ∀ stage ∈ t.stages, stage.NamedBy events) (· ∈ events) ⟨.empty, nofun⟩
    (fun asked ⟨sound, known⟩ turn => ⟨sound.afterTurn turn, fun stage member => ?_⟩) fresh all
  · exact both.2
  · rcases turn.mem_stages sound member with old | first | ⟨key, text, rfl, meant⟩
    · exact known stage old
    · exact .inl first
    · exact .inr ⟨key, text, asked, meant⟩

/-- A text is a stage exactly if it is the name of the stage up to the case of the letters from `a` to `z`, and no text
is two stages. Any other one is refused in an error that quotes it. The case of a text that is a stage makes no
difference to a call, and a version is only ever at one of the four stages: at the first one, or at one that a call
named. -/
theorem stages_told_by_name :
    (∀ s stage, Operation.stageOf s = .ok stage ↔ SameButCase s stage.name) ∧
    (∀ s (stage other : Stage), SameButCase s stage.name → SameButCase s other.name → stage = other) ∧
    (∀ stage, Operation.stageOf stage.name = .ok stage) ∧
    (∀ s, (∀ stage : Stage, ¬SameButCase s stage.name) → ∃ e, Operation.stageOf s = .error e ∧
      e.kind = .invalidArgument ∧ e.message = "Invalid argument: Invalid model stage '" ++ s ++
        "'. Expected one of: NONE, DEVELOPING, PRODUCTION, ARCHIVED") ∧
    (∀ s s' stage, Operation.stageOf s = .ok stage → SameButCase s s' → ∀ (db : Database) key now,
      db.call (.moveVersion key s) now = db.call (.moveVersion key s') now ∧
        db.perform? (.moveVersion key s) now = db.perform? (.moveVersion key s') now) ∧
    ∀ (c : Catalog) events, c.Fresh → ∀ r ∈ (c.steps events).2.database.tables.versions,
      r.stage.name ∈ ["NONE", "DEVELOPING", "PRODUCTION", "ARCHIVED"] ∧ r.stage.NamedBy events := by
  have read : ∀ s stage, Operation.stageOf s = .ok stage ↔ SameButCase s stage.name := by
    intro s stage
    rw [Operation.stageOf, expect_eq_ok, Stage.ofText?_eq_some_iff]
  refine ⟨read, fun s stage other one two => ?_, fun stage => ?_, fun s none => ?_,
    fun s s' stage meant same db key now => ?_, fun c events fresh r member => ⟨?_, ?_⟩⟩
  · exact Option.some.inj ((Stage.ofText?_eq_some_iff.mpr one).symm.trans (Stage.ofText?_eq_some_iff.mpr two))
  · rw [Operation.stageOf, Stage.ofText?_name]
    rfl
  · have missing : Stage.ofText? s = .none :=
      Option.eq_none_iff_forall_ne_some.mpr fun stage found => none stage (Stage.ofText?_eq_some_iff.mp found)
    refine ⟨.argument (.unknownStage s), ?_, rfl, Stage.message_unknownStage s⟩
    rw [Operation.stageOf, missing]
    rfl
  · have again := (read s' stage).mpr (same.symm.trans ((read s stage).mp meant))
    have asked : (Call.moveVersion key s).operation? = (Call.moveVersion key s').operation? := by
      simp only [Call.operation?, Operation.moveVersion, meant, again]
    have called : db.call (.moveVersion key s) now = db.call (.moveVersion key s') now := by
      rw [Database.call, asked]
      rfl
    exact ⟨called, by rw [Database.perform?, called, ← Database.perform?]⟩
  · cases r.stage <;> decide
  · exact named_steps fresh events r.stage (List.mem_map_of_mem member)

/-- A version is moved by a text in another case than the name of a stage; a text that is only the start of the name of
a stage is refused. -/
theorem moved_in_any_case :
    let now := opened.clock.reading
    let events : List Event := [.call (.createModel "a" none []),
      .call (.createVersion "a" ⟨"run", "user", "trial", "tree", none, []⟩),
      .call (.moveVersion ⟨"a", 1⟩ "DevElopIng")]
    let db := (opened.steps events).2.database
    Operation.stageOf "DevElopIng" = .ok .developing ∧ SameButCase "DevElopIng" "developing" ∧
      (∃ e, Operation.stageOf "DEVELOP" = .error e ∧ e.kind = .invalidArgument) ∧
      db.call (.moveVersion ⟨"a", 1⟩ "DevElopIng") now = db.call (.moveVersion ⟨"a", 1⟩ "developing") now ∧
      opened.Fresh ∧ db.tables.stages = [.developing] ∧ Stage.developing.NamedBy events := by
  intro now events db
  obtain ⟨read, -, -, refused, same, known⟩ := stages_told_by_name
  have alike : SameButCase "DevElopIng" Stage.developing.name := sameButCase_iff.mpr (by decide)
  have lower : SameButCase "DevElopIng" "developing" := sameButCase_iff.mpr (by decide)
  have meant := (read "DevElopIng" .developing).mpr alike
  have short : ∀ stage : Stage, ¬SameButCase "DEVELOP" stage.name := by
    intro stage
    rw [sameButCase_iff]
    cases stage <;> decide
  obtain ⟨e, failed, kind, -⟩ := refused "DEVELOP" short
  have stages : db.tables.stages = [.developing] := by decide +kernel
  have member : Stage.developing ∈ db.tables.stages := stages ▸ List.mem_singleton_self _
  obtain ⟨r, there, stage⟩ := List.mem_map.mp member
  exact ⟨meant, lower, ⟨e, failed, kind⟩, (same _ _ _ meant lower db ⟨"a", 1⟩ now).1, fresh_opened, stages,
    stage ▸ (known opened events fresh_opened r there).2⟩

end Catalog

end ModelCatalog
