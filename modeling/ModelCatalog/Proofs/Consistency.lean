import ModelCatalog.Proofs.CallEdits
import ModelCatalog.Proofs.SessionRun
import ModelCatalog.Proofs.TagOrder

namespace ModelCatalog

/-- The events that leave the counters to the operations. -/
def Event.KeepsCounters : Event → Prop
  | writeCounter .. => False
  | _ => True

/-- The events that write tags at no more positions than there are from 0 on in 32 bits. -/
def Event.FitsPositions : Event → Prop
  | call (.createModel _ _ tags) => tags.eraseDups.length ≤ 2147483648
  | call (.createVersion _ draft) => draft.tags.eraseDups.length ≤ 2147483648
  | _ => True

variable {t t' : Tables} {now : Instant} {e : Event} {r : Reply}

namespace Tables.Sound

theorem afterEdit {now : Timestamp} {call : Call} {a : Answer} (sound : t.Sound) (edit : t.Edit now call a t') :
    t'.Sound := by
  cases edit with
  | read => exact sound
  | createModel row new named tagged =>
    refine (sound.addModel row new).addModelTags (.listed ?_ named tagged) tagged.apart
    rw [names_addModel]
    exact List.mem_append_right _ (List.mem_singleton_self _)
  | describeModel there clean =>
    exact sound.updateModel (fun _ => rfl) fun _ good =>
      { good with description := fun _ given => Option.some.inj given ▸ stored_cut clean }
  | renameModel there new filled stored =>
    exact sound.renamed filled stored new
  | deleteModel => exact sound.withoutModel
  | tagModelAgain => exact sound
  | tagModel there new filled stored =>
    refine (sound.addModelTags (TagRow.Sound.single there filled stored) ?_).touchModel
    exact List.forall_mem_singleton.mpr new
  | untagModel => exact sound.removeModelTag.touchModel
  | @createVersion name draft r v member named room new filled tagged row number =>
    have counted : (t.countVersion name now).Sound := sound.updateModel (fun _ => rfl) fun _ good => { good with }
    have key : (VersionRow.drafted ⟨name, r.counter + 1⟩ draft now).key = ⟨name, r.counter + 1⟩ :=
      sound.drafted_key member named
    refine (counted.addVersion row ?_ ?_).addVersionTags (.listed ?_ filled tagged) tagged.apart
    · rw [key]
      exact new
    · rw [key, names_countVersion]
      exact List.mem_map.mpr ⟨r, member, named⟩
    · rw [keys_addVersion, key]
      exact List.mem_append_right _ (List.mem_singleton_self _)
  | describeVersion there clean =>
    refine touchModel (sound.updateVersion (fun _ => rfl) fun _ good => ?_)
    exact { good with description := fun _ given => Option.some.inj given ▸ stored_cut clean }
  | moveVersion => exact touchModel (sound.updateVersion (fun _ => rfl) fun _ good => { good with })
  | deleteVersion => exact sound.withoutVersion.touchModel
  | tagVersionAgain => exact sound
  | tagVersion there new filled stored =>
    refine (sound.addVersionTags (TagRow.Sound.single there filled stored) ?_).touchVersion.touchModel
    exact List.forall_mem_singleton.mpr new
  | untagVersion => exact sound.removeVersionTag.touchVersion.touchModel

/-- Every event keeps the tables sound, also one that writes a column directly. -/
theorem afterTurn (sound : t.Sound) (turn : t.Turn now e r t') : t'.Sound := by
  cases turn with
  | call done => exact sound.afterEdit (sound.edit done)
  | dataset done =>
    obtain ⟨-, clean, -, rfl, -⟩ := Versions.setDataset_ok.mp done
    exact sound.updateVersion (fun _ => rfl) fun _ good => { good with dataset := stored_map_cut clean }
  | counter done =>
    obtain ⟨-, rfl, -⟩ := Models.setCounter_ok.mp done
    exact sound.updateModel (fun _ => rfl) fun _ good => { good with }

end Tables.Sound

namespace Tables.Counted

theorem afterEdit {now : Timestamp} {call : Call} {a : Answer} (sound : t.Sound) (counted : t.Counted)
    (edit : t.Edit now call a t') : t'.Counted := by
  cases edit with
  | read => exact counted
  | @createModel name description =>
    have added : (t.addModel (.registered name now description)).Counted := counted.addModel rfl
    exact { added with }
  | describeModel => exact counted.updateModel (fun _ => rfl) (fun _ => Int.le_refl _) fun r member _ =>
      (counted.bounded r member).2
  | renameModel => exact counted.renamed
  | deleteModel => exact counted.withoutModel
  | tagModelAgain => exact counted
  | tagModel => exact touchModel { counted with }
  | untagModel => exact touchModel { counted with }
  | @createVersion name draft r v member named room new filled tagged row number =>
    -- The room that was found for the row is all that is needed, since no other row has its name.
    have only : ∀ other ∈ t.models, other.name = name → other = r := fun other there same =>
      List.inj_on_of_nodup_map sound.names there member (same.trans named.symm)
    have counts : (t.countVersion name now).Counted :=
      counted.updateModel (fun _ => rfl) (fun _ => by simp only; omega) fun other there same =>
        only other there same ▸ room
    have key : (VersionRow.drafted ⟨name, r.counter + 1⟩ draft now).key = ⟨name, r.counter + 1⟩ :=
      sound.drafted_key member named
    have raised : { r with counter := r.counter + 1, updatedAt := now } ∈ (t.countVersion name now).models :=
      List.mem_map.mpr ⟨r, member, if_pos named⟩
    have positive := (counted.bounded r member).1
    have added : ((t.countVersion name now).addVersion (.drafted ⟨name, r.counter + 1⟩ draft now)).Counted :=
      counts.addVersion raised (by rw [key]; exact named) (by rw [key]; simp only; omega) (by rw [key])
    exact { added with }
  | describeVersion => exact touchModel (counted.updateVersion fun _ => rfl)
  | moveVersion => exact touchModel (counted.updateVersion fun _ => rfl)
  | deleteVersion => exact counted.withoutVersion.touchModel
  | tagVersionAgain => exact counted
  | tagVersion => exact touchModel (updateVersion { counted with } fun _ => rfl)
  | untagVersion => exact touchModel (updateVersion { counted with } fun _ => rfl)

theorem afterTurn (sound : t.Sound) (counted : t.Counted) (kept : e.KeepsCounters) (turn : t.Turn now e r t') :
    t'.Counted := by
  cases turn with
  | call done => exact counted.afterEdit sound (sound.edit done)
  | dataset done =>
    obtain ⟨-, -, -, rfl, -⟩ := Versions.setDataset_ok.mp done
    exact counted.updateVersion fun _ => rfl
  | counter done => exact kept.elim

end Tables.Counted

namespace Tables.Ordered

theorem afterEdit {now : Timestamp} {call : Call} {a : Answer} (sound : t.Sound) (ordered : t.Ordered)
    (fits : (Event.call call).FitsPositions) (edit : t.Edit now call a t') : t'.Ordered := by
  cases edit with
  | read => exact ordered
  | createModel row new =>
    refine ⟨ordered.modelTags.append_listed (fun r member same => ?_) fits, ordered.versionTags⟩
    exact new (same ▸ sound.modelTags.owned r member)
  | describeModel => exact ⟨ordered.modelTags, ordered.versionTags⟩
  | renameModel there new =>
    exact ⟨ordered.modelTags.rekey sound.modelTags.owned (moved_apart new),
      ordered.versionTags.rekey sound.versionTags.owned (sound.moved_keys_apart new)⟩
  | deleteModel => exact ⟨ordered.modelTags.filter _, ordered.versionTags.filter _⟩
  | tagModelAgain => exact ordered
  | tagModel => exact ⟨ordered.modelTags.append_front, ordered.versionTags⟩
  | untagModel => exact ⟨ordered.modelTags.filter _, ordered.versionTags⟩
  | createVersion member named room new =>
    refine ⟨ordered.modelTags, ordered.versionTags.append_listed (fun r member same => ?_) fits⟩
    exact new (same ▸ sound.versionTags.owned r member)
  | describeVersion => exact ⟨ordered.modelTags, ordered.versionTags⟩
  | moveVersion => exact ⟨ordered.modelTags, ordered.versionTags⟩
  | deleteVersion => exact ⟨ordered.modelTags, ordered.versionTags.filter _⟩
  | tagVersionAgain => exact ordered
  | tagVersion => exact ⟨ordered.modelTags, ordered.versionTags.append_front⟩
  | untagVersion => exact ⟨ordered.modelTags, ordered.versionTags.filter _⟩

theorem afterTurn (sound : t.Sound) (ordered : t.Ordered) (fits : e.FitsPositions) (turn : t.Turn now e r t') :
    t'.Ordered := by
  cases turn with
  | call done => exact ordered.afterEdit sound fits (sound.edit done)
  | dataset done =>
    obtain ⟨-, -, -, rfl, -⟩ := Versions.setDataset_ok.mp done
    exact ⟨ordered.modelTags, ordered.versionTags⟩
  | counter done =>
    obtain ⟨-, rfl, -⟩ := Models.setCounter_ok.mp done
    exact ⟨ordered.modelTags, ordered.versionTags⟩

end Tables.Ordered

namespace Catalog

variable {c : Catalog} {events : List Event}

theorem sound_steps (fresh : c.Fresh) (events : List Event) : (c.steps events).2.database.tables.Sound := by
  exact steps_holds Tables.Sound (fun _ => True) .empty (fun _ sound turn => sound.afterTurn turn) fresh
    fun _ _ => trivial

theorem counted_steps (fresh : c.Fresh) (kept : ∀ e ∈ events, e.KeepsCounters) :
    (c.steps events).2.database.tables.Counted := by
  have both := steps_holds (fun t => t.Sound ∧ t.Counted) Event.KeepsCounters ⟨.empty, .empty⟩
    (fun kept ⟨sound, counted⟩ turn => ⟨sound.afterTurn turn, counted.afterTurn sound kept turn⟩) fresh kept
  exact both.2

theorem ordered_steps (fresh : c.Fresh) (fits : ∀ e ∈ events, e.FitsPositions) :
    (c.steps events).2.database.tables.Ordered := by
  have both := steps_holds (fun t => t.Sound ∧ t.Ordered) Event.FitsPositions
    ⟨.empty, .empty⟩
    (fun fits ⟨sound, ordered⟩ turn => ⟨sound.afterTurn turn, ordered.afterTurn sound fits turn⟩) fresh fits
  exact both.2

/-- From the making of the tables on, whatever calls are made, at whatever times and with whatever success,
and unless a counter is set directly: names, keys and tags are unique and refer to what is there, every
number lies between 1 and the counter of its model, and every text fits where it stands. The tags of an owner
stand at positions of their own as long as no list of tags given at creation outgrows the positions. -/
theorem steps_consistent (fresh : c.Fresh) (kept : ∀ e ∈ events, e.KeepsCounters)
    (live : (c.steps events).2.database = .live t) :
    t.Sound ∧ t.Counted ∧ (∀ key ∈ t.keys, Stored nameWidth key.model) ∧
      (∀ r ∈ t.modelTags, Stored nameWidth r.owner) ∧ (∀ r ∈ t.versionTags, Stored nameWidth r.owner.model) ∧
      ((∀ e ∈ events, e.FitsPositions) → t.Ordered) := by
  have sound := sound_steps fresh events
  have counted := counted_steps fresh kept
  rw [live] at sound counted
  refine ⟨sound, counted, fun key there => sound.stored_key there,
    fun r member => sound.stored_name (sound.modelTags.owned r member),
    fun r member => sound.stored_key (sound.versionTags.owned r member), fun fits => ?_⟩
  have ordered := ordered_steps fresh fits
  rw [live] at ordered
  exact ordered

/-- A model with a version is tagged and renamed, and the last call is refused. -/
def trial : List Event :=
  [.call (.createModel "a" none ["x", "y", "x"]),
    .call (.createVersion "a" ⟨"run", "user", "trial", "tree", none, ["z"]⟩),
    .call (.tagModel "a" "w"),
    .call (.renameModel "a" "b"),
    .call (.tagVersion ⟨"a", 1⟩ "w")]

theorem consistent_trial :
    opened.Fresh ∧ ∃ t, (opened.steps trial).2.database = .live t ∧ t.names = ["b"] ∧ t.keys = [⟨"b", 1⟩] ∧
      t.modelTags = [⟨"b", "x", 0⟩, ⟨"b", "y", 1⟩, ⟨"b", "w", -1⟩] ∧ t.Sound ∧ t.Counted ∧ t.Ordered := by
  have live : (opened.steps trial).2.database = .live (opened.steps trial).2.database.tables := by decide +kernel
  have kept : ∀ e ∈ trial, e.KeepsCounters := by simp [trial, Event.KeepsCounters]
  have fits : ∀ e ∈ trial, e.FitsPositions := by simp [trial, Event.FitsPositions, List.eraseDups_cons]
  obtain ⟨sound, counted, -, -, -, ordered⟩ := steps_consistent fresh_opened kept live
  exact ⟨fresh_opened, _, live, by decide +kernel, by decide +kernel, by decide +kernel, sound, counted,
    ordered fits⟩

end Catalog

namespace Database.Reached

variable {allowed : Event → Prop} {db : Database}

theorem sound (reached : db.Reached allowed) : db.tables.Sound := by
  obtain ⟨c, events, fresh, -, rfl⟩ := reached
  exact Catalog.sound_steps fresh events

theorem counted (reached : db.Reached Event.KeepsCounters) : db.tables.Counted := by
  obtain ⟨c, events, fresh, kept, rfl⟩ := reached
  exact Catalog.counted_steps fresh kept

/-- A call that succeeds makes one of the edits on sound tables. -/
theorem edit {after : Database} {call : Call} {a : Answer} (reached : db.Reached allowed)
    (done : db.call call now = (.ok a, after)) :
    ∃ t t', db = .live t ∧ after = .live t' ∧ t.Sound ∧ t.Edit now.stored call a t' := by
  obtain ⟨t, t', rfl, made, same⟩ := call_of_ok (congrArg Prod.fst done)
  have sound : t.Sound := reached.sound
  exact ⟨t, t', rfl, (congrArg Prod.snd done).symm.trans same, sound, sound.edit made⟩

end Database.Reached

end ModelCatalog
