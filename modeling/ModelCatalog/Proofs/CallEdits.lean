import ModelCatalog.Proofs.Integrity
import ModelCatalog.Proofs.OperationRun

namespace ModelCatalog

open Operation (Succeeds)
open Parameter (holdsZero)

variable {t t' : Tables} {name newName tag text : String} {key : VersionKey} {now : Instant}

/-- The calls that only look something up. -/
def Call.isRead : Call → Bool
  | getModel _ | getVersion _ | versionUri _ | listModels .. | listVersions .. => true
  | _ => false

theorem Operation.Succeeds.same_of_isRead {call : Call} {a : Answer} (done : Succeeds call.operation? now t a t')
    (reads : call.isRead = true) : t' = t := by
  cases call <;> simp only [Call.operation?, Operation.succeeds_answering] at done <;>
    obtain ⟨b, done, rfl⟩ := done
  case getModel name => exact (Operation.getModel_succeeds.mp done).2.1
  case getVersion key => exact (Operation.getVersion_succeeds.mp done).2.1
  case versionUri key => exact (Operation.versionUri_succeeds.mp done).2.1
  case listModels filter tags => exact (Operation.listModels_succeeds.mp done).2.2.1
  case listVersions name tags => exact (Operation.listVersions_succeeds.mp done).2.2.1
  all_goals exact absurd reads nofun

/-- What a call that succeeds does to sound tables, all that is needed to tell the tables after it. -/
inductive Tables.Edit (now : Timestamp) (t : Tables) : Call → Answer → Tables → Prop
  | read {call : Call} {a : Answer} (reads : call.isRead = true) : Edit now t call a t
  | createModel {name : String} {description : Option String} {tags : List String} {a : Answer}
    (row : (ModelRow.registered name now description).Sound) (new : cut nameWidth name ∉ t.names)
    (named : ∀ tag ∈ tags.eraseDups, tag ≠ "")
    (tagged : TagRow.Addable (cut nameWidth name) t.modelTags tags.eraseDups) :
    Edit now t (.createModel name description tags) a
      ((t.addModel (.registered name now description)).addModelTags
        (TagRow.listed (cut nameWidth name) 0 tags.eraseDups))
  | describeModel {name text : String} {a : Answer} (there : name ∈ t.names) (clean : holdsZero text = false) :
    Edit now t (.describeModel name text) a (t.describeModel name text now)
  | renameModel {name newName : String} {a : Answer} (there : name ∈ t.names) (new : newName ∉ t.names)
    (filled : newName ≠ "") (stored : Stored nameWidth newName) :
    Edit now t (.renameModel name newName) a (t.renamed name newName now)
  | deleteModel {name : String} {a : Answer} (there : name ∈ t.names) :
    Edit now t (.deleteModel name) a (t.withoutModel name)
  | tagModelAgain {name tag : String} {a : Answer} (there : name ∈ t.names)
    (old : (name, cut tagWidth tag) ∈ TagRow.labels t.modelTags) : Edit now t (.tagModel name tag) a t
  | tagModel {name tag : String} {a : Answer} (there : name ∈ t.names)
    (new : (name, cut tagWidth tag) ∉ TagRow.labels t.modelTags) (filled : cut tagWidth tag ≠ "")
    (stored : Stored tagWidth (cut tagWidth tag)) :
    Edit now t (.tagModel name tag) a ((t.addModelTags
      [⟨name, cut tagWidth tag, TagRow.front name t.modelTags⟩]).touchModel name now)
  | untagModel {name tag : String} {a : Answer} (there : (name, tag) ∈ TagRow.labels t.modelTags) :
    Edit now t (.untagModel name tag) a ((t.removeModelTag name tag).touchModel name now)
  | createVersion {name : String} {draft : VersionDraft} {r : ModelRow} {v : Version} (member : r ∈ t.models)
    (named : r.name = name) (room : r.counter + 1 ≤ 2147483647)
    (new : (VersionKey.mk name (r.counter + 1)) ∉ t.keys) (filled : ∀ tag ∈ draft.tags.eraseDups, tag ≠ "")
    (tagged : TagRow.Addable ⟨name, r.counter + 1⟩ t.versionTags draft.tags.eraseDups)
    (row : (VersionRow.drafted ⟨name, r.counter + 1⟩ draft now).Sound) (number : v.number = r.counter + 1) :
    Edit now t (.createVersion name draft) (.version v) (((t.countVersion name now).addVersion
      (.drafted ⟨name, r.counter + 1⟩ draft now)).addVersionTags
      (TagRow.listed ⟨name, r.counter + 1⟩ 0 draft.tags.eraseDups))
  | describeVersion {key : VersionKey} {text : String} {a : Answer} (there : key ∈ t.keys)
    (clean : holdsZero text = false) :
    Edit now t (.describeVersion key text) a ((t.describeVersion key text now).touchModel key.model now)
  | moveVersion {key : VersionKey} {text : String} {stage : Stage} {a : Answer} (there : key ∈ t.keys)
    (meant : Stage.ofText? text = some stage) :
    Edit now t (.moveVersion key text) a ((t.moveVersion key stage now).touchModel key.model now)
  | deleteVersion {key : VersionKey} {a : Answer} (there : key ∈ t.keys) :
    Edit now t (.deleteVersion key) a ((t.withoutVersion key).touchModel key.model now)
  | tagVersionAgain {key : VersionKey} {tag : String} {a : Answer} (there : key ∈ t.keys)
    (old : (key, cut tagWidth tag) ∈ TagRow.labels t.versionTags) : Edit now t (.tagVersion key tag) a t
  | tagVersion {key : VersionKey} {tag : String} {a : Answer} (there : key ∈ t.keys)
    (new : (key, cut tagWidth tag) ∉ TagRow.labels t.versionTags) (filled : cut tagWidth tag ≠ "")
    (stored : Stored tagWidth (cut tagWidth tag)) :
    Edit now t (.tagVersion key tag) a (((t.addVersionTags
      [⟨key, cut tagWidth tag, TagRow.front key t.versionTags⟩]).touchVersion key now).touchModel key.model now)
  | untagVersion {key : VersionKey} {tag : String} {a : Answer}
    (there : (key, tag) ∈ TagRow.labels t.versionTags) :
    Edit now t (.untagVersion key tag) a
      (((t.removeVersionTag key tag).touchVersion key now).touchModel key.model now)

theorem VersionKey.stored_eq (stored : Stored nameWidth key.model) : key.stored = key := by
  rw [VersionKey.stored, stored.cut_eq]

/-- A version of a model that is there is stored under the name it is created with. -/
theorem Tables.Sound.drafted_key {r : ModelRow} {number : Int} {draft : VersionDraft} {now : Timestamp}
    (sound : t.Sound) (member : r ∈ t.models) (named : r.name = name) :
    (VersionRow.drafted ⟨name, number⟩ draft now).key = ⟨name, number⟩ :=
  VersionKey.stored_eq (named ▸ (sound.models r member).name)

/-- Once the rows are taken along, the new name is looked up as it was given, so that none that the
column would have cut gets through. -/
theorem Tables.renamed_uncut {r : ModelRow} {now : Timestamp} (new : newName ∉ t.names)
    (found : (t.renamed name (cut nameWidth newName) now).model? newName = some r) :
    cut nameWidth newName = newName := by
  have there := mem_names_of_model? found
  rw [names_renamed, List.mem_map] at there
  obtain ⟨other, old, same⟩ := there
  unfold ModelTags.moved at same
  split at same
  · exact same
  · exact absurd (same ▸ old) new

namespace Tables.Sound

theorem edit_renameModel (done : Succeeds (Operation.renameModel name newName) now t m t') (a : Answer) :
    t.Edit now.stored (.renameModel name newName) a t' := by
  obtain ⟨filled, -, -, there, clean, new, -, -, -, -, -, -, rfl, -, r, found, -⟩ :=
    Operation.renameModel_succeeds.mp done
  have uncut := renamed_uncut new found
  have stored : Stored nameWidth newName := uncut ▸ stored_cut clean
  rw [uncut]
  exact .renameModel there new filled stored

theorem edit_createVersion {draft : VersionDraft} {v : Version} (sound : t.Sound)
    (done : Succeeds (Operation.createVersion name draft) now t v t') :
    t.Edit now.stored (.createVersion name draft) (.version v) t' := by
  obtain ⟨named, clean, -, r, found, room, cleanId, cleanUser, cleanExperiment, cleanType, cleanText,
    -, -, -, -, -, -, new, -, good, rfl, rfl⟩ := Operation.createVersion_succeeds.mp done
  obtain ⟨member, same⟩ := (model?_eq_some_iff sound.names).mp found
  have key : (VersionKey.mk name (r.counter + 1)).stored = ⟨name, r.counter + 1⟩ :=
    VersionKey.stored_eq (sound.stored_name (mem_names_of_model? found))
  rw [key] at new good ⊢
  refine .createVersion member same (Range.has_iff.mp room).2 new
    (fun tag given => named tag (List.mem_eraseDups.mp given)) good ?_ rfl
  exact ⟨stored_cut cleanId, stored_cut cleanUser, stored_cut cleanExperiment, stored_cut cleanType, nofun,
    stored_map_cut cleanText⟩

theorem edit_tagModel {u : Unit} (sound : t.Sound) (done : Succeeds (Operation.tagModel name tag) now t u t')
    (a : Answer) : t.Edit now.stored (.tagModel name tag) a t' := by
  obtain ⟨filled, -, there, clean, -, -, -, write⟩ := Operation.tagModel_succeeds.mp done
  rw [(sound.stored_name there).cut_eq] at write
  rcases write with ⟨old, rfl⟩ | ⟨new, -, -, rfl⟩
  · exact .tagModelAgain there old
  · exact .tagModel there new (cut_ne_empty filled (by decide)) (stored_cut clean)

theorem edit_tagVersion {u : Unit} (sound : t.Sound) (done : Succeeds (Operation.tagVersion key tag) now t u t')
    (a : Answer) : t.Edit now.stored (.tagVersion key tag) a t' := by
  obtain ⟨filled, -, there, clean, -, -, -, write⟩ := Operation.tagVersion_succeeds.mp done
  rw [VersionKey.stored_eq (sound.stored_key there)] at write
  rcases write with ⟨old, rfl⟩ | ⟨new, -, -, -, rfl⟩
  · exact .tagVersionAgain there old
  · exact .tagVersion there new (cut_ne_empty filled (by decide)) (stored_cut clean)

theorem edit {call : Call} {a : Answer} (sound : t.Sound) (done : Succeeds call.operation? now t a t') :
    t.Edit now.stored call a t' := by
  by_cases reads : call.isRead = true
  · rw [done.same_of_isRead reads]
    exact .read reads
  cases call <;> simp only [Call.operation?, Operation.succeeds_answering] at done <;>
    obtain ⟨b, done, rfl⟩ := done
  case createModel name description tags =>
    obtain ⟨filled, named, clean, -, cleanText, -, -, new, good, rfl, -⟩ :=
      Operation.createModel_succeeds.mp done
    exact .createModel ⟨cut_ne_empty filled (by decide), stored_cut clean, stored_map_cut cleanText⟩ new
      (fun tag given => named tag (List.mem_eraseDups.mp given)) good
  case describeModel name text =>
    obtain ⟨-, clean, -, -, there, rfl, -⟩ := Operation.describeModel_succeeds.mp done
    exact .describeModel there clean
  case renameModel name newName =>
    exact edit_renameModel done _
  case deleteModel name =>
    obtain ⟨-, there, rfl⟩ := Operation.deleteModel_succeeds.mp done
    exact .deleteModel there
  case tagModel name tag =>
    exact sound.edit_tagModel done _
  case untagModel name tag =>
    obtain ⟨-, -, -, -, there, -, rfl⟩ := Operation.untagModel_succeeds.mp done
    exact .untagModel there
  case createVersion name draft =>
    exact sound.edit_createVersion done
  case describeVersion key text =>
    obtain ⟨-, clean, -, -, there, -, rfl, -⟩ := Operation.describeVersion_succeeds.mp done
    exact .describeVersion there clean
  case moveVersion key text =>
    obtain ⟨stage, meant, -, -, there, -, rfl, -⟩ := Operation.moveVersion_succeeds.mp done
    exact .moveVersion there meant
  case deleteVersion key =>
    obtain ⟨-, there, -, -, rfl⟩ := Operation.deleteVersion_succeeds.mp done
    exact .deleteVersion there
  case tagVersion key tag =>
    exact sound.edit_tagVersion done _
  case untagVersion key tag =>
    obtain ⟨-, -, -, -, there, -, -, rfl⟩ := Operation.untagVersion_succeeds.mp done
    exact .untagVersion there
  all_goals exact absurd rfl reads

end Tables.Sound

end ModelCatalog
