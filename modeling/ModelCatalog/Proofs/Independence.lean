import ModelCatalog.Proofs.AlikeSessions

namespace ModelCatalog

/-- The same rows in all four tables, in whatever order. -/
structure Tables.Shuffled (t t' : Tables) : Prop where
  models : t.models.Perm t'.models
  modelTags : t.modelTags.Perm t'.modelTags
  versions : t.versions.Perm t'.versions
  versionTags : t.versionTags.Perm t'.versionTags

/-- The same state, with the same rows if there are tables. -/
inductive Database.Shuffled : Database → Database → Prop
  | unreachable : Shuffled .unreachable .unreachable
  | homeless : Shuffled .homeless .homeless
  | dropped : Shuffled .dropped .dropped
  | live {t t' : Tables} (rows : t.Shuffled t') : Shuffled (.live t) (.live t')

theorem Tables.Agree.union {t t' : Tables} {names others : Set String} (first : t.Agree names t')
    (second : t.Agree others t') : t.Agree (names ∪ others) t' where
  models := fun name meant => meant.elim (first.models name) (second.models name)
  modelTags := fun name meant => meant.elim (first.modelTags name) (second.modelTags name)
  versions := fun name meant => meant.elim (first.versions name) (second.versions name)
  versionTags := fun name meant => meant.elim (first.versionTags name) (second.versionTags name)

namespace Database.Agree

variable {names others : Set String} {db db' db'' : Database}

theorem refl (sound : db.tables.Sound) : db.Agree names db := by
  cases db with
  | unreachable => exact .unreachable
  | homeless => exact .homeless
  | dropped => exact .dropped
  | live t => exact .live sound sound .refl

theorem sound (agree : db.Agree names db') : db.tables.Sound := by
  cases agree with
  | unreachable | homeless | dropped => exact .empty
  | live sound => exact sound

theorem symm (agree : db.Agree names db') : db'.Agree names db := by
  cases agree with
  | unreachable => exact .unreachable
  | homeless => exact .homeless
  | dropped => exact .dropped
  | live sound sound' same => exact .live sound' sound same.symm

theorem trans (first : db.Agree names db') (second : db'.Agree names db'') : db.Agree names db'' := by
  cases first with
  | unreachable | homeless | dropped => exact second
  | live sound _ same =>
    cases second with
    | live _ sound' more => exact .live sound sound' (same.trans more)

theorem mono (agree : db.Agree names db') (within : others ⊆ names) : db.Agree others db' := by
  cases agree with
  | unreachable => exact .unreachable
  | homeless => exact .homeless
  | dropped => exact .dropped
  | live sound sound' same => exact .live sound sound' (same.mono within)

theorem union (first : db.Agree names db') (second : db.Agree others db') : db.Agree (names ∪ others) db' := by
  cases first with
  | unreachable => exact .unreachable
  | homeless => exact .homeless
  | dropped => exact .dropped
  | live sound sound' same =>
    cases second with
    | live _ _ more => exact .live sound sound' (same.union more)

theorem shuffled (agree : db.Agree Set.univ db') : db.Shuffled db' := by
  cases agree with
  | unreachable => exact .unreachable
  | homeless => exact .homeless
  | dropped => exact .dropped
  | live _ _ same =>
    exact .live ⟨same.models.perm, same.modelTags.perm, same.versions.perm, same.versionTags.perm⟩

end Database.Agree

/-- A call that leaves the database as it is if its answer cannot be read. -/
def Database.undertake (call : Call) (now : Instant) (db : Database) :
    Option (Except CatalogError Answer) × Database :=
  match db.perform? call now with
  | some (result, after) => (some result, after)
  | none => (none, db)

namespace Database

variable {β : Type} {allowed : Event → Prop} {db : Database} {first second : Call}

/-- A way to make calls that neither looks at nor changes anything beyond the reach of a call. -/
structure Local (make : Call → Instant → Database → β × Database) : Prop where
  within {names : Set String} {db db' : Database} {call : Call} (agree : db.Agree names db') (now : Instant)
    (reach : call.reach ⊆ names) :
    (make call now db).1 = (make call now db').1 ∧ (make call now db).2.Agree names (make call now db').2
  outside {db : Database} (sound : db.tables.Sound) (call : Call) (now : Instant) :
    (make call now db).2.Agree call.reachᶜ db

theorem local_call : Local call where
  within := fun agree now reach => agree.call now reach
  outside := fun {db} sound call now => by
    cases result : (db.call call now).1 with
    | error e =>
      have same : (db.call call now).2 = db := answer_of_error result
      rw [same]
      exact .refl sound
    | ok a =>
      obtain ⟨t, t', rfl, done, after⟩ := call_of_ok result
      rw [after]
      exact .live (sound.afterEdit (sound.edit done)) sound (done.agree_outside sound)

theorem local_undertake : Local undertake where
  within := fun agree now reach => by
    unfold undertake
    rcases agree.perform? now reach with ⟨none, none'⟩ | ⟨result, after, after', performed, performed', alike⟩
    · rw [none, none']
      exact ⟨rfl, agree⟩
    · rw [performed, performed']
      exact ⟨rfl, alike⟩
  outside := fun {db} sound call now => by
    unfold undertake
    cases performed : db.perform? call now with
    | none => exact .refl sound
    | some made =>
      have called := local_call.outside sound call now
      rwa [call_of_perform? performed] at called

/-- Two calls come to the same in either order: each is answered the same, and nothing that is done later can tell
which of them came first. -/
structure Commute (make : Call → Instant → Database → β × Database) (db : Database) (first second : Call)
    (now later : Instant) : Prop where
  secondAnswer : (make second later (make first now db).2).1 = (make second later db).1
  firstAnswer : (make first now (make second later db).2).1 = (make first now db).1
  rows : (make second later (make first now db).2).2.Shuffled (make first now (make second later db).2).2
  sessions : ∀ schema clock events,
    (Catalog.steps ⟨schema, clock, (make second later (make first now db).2).2⟩ events).1 =
      (Catalog.steps ⟨schema, clock, (make first now (make second later db).2).2⟩ events).1

namespace Local

variable {make : Call → Instant → Database → β × Database}

/-- Where a call reaches, it does the same before and after another one that does not reach there. -/
theorem make_after (near : Local make) (sound : db.tables.Sound) (apart : second.reach ⊆ first.reachᶜ)
    (now later : Instant) :
    (make second later (make first now db).2).1 = (make second later db).1 ∧
      (make second later (make first now db).2).2.Agree second.reach (make second later db).2 :=
  near.within ((near.outside sound first now).mono apart) later subset_rfl

theorem agree_of_apart (near : Local make) (sound : db.tables.Sound) (apart : second.reach ⊆ first.reachᶜ)
    (apart' : first.reach ⊆ second.reachᶜ) (now later : Instant) :
    (make second later (make first now db).2).2.Agree Set.univ (make first now (make second later db).2).2 := by
  have one := near.outside sound first now
  have two := near.outside sound second later
  have onBoth := near.outside one.sound second later
  have onBoth' := near.outside two.sound first now
  -- Each call sees to its own names, whichever comes first, and neither of them to the remaining names.
  have seconds := (near.make_after sound apart now later).2.trans (onBoth'.mono apart).symm
  have firsts := (onBoth.mono apart').trans (near.make_after sound apart' later now).2.symm
  have others : (make second later (make first now db).2).2.Agree (first.reachᶜ ∩ second.reachᶜ)
      (make first now (make second later db).2).2 := by
    have before := (onBoth.mono Set.inter_subset_right).trans (one.mono Set.inter_subset_left)
    exact before.trans ((onBoth'.mono Set.inter_subset_left).trans (two.mono Set.inter_subset_right)).symm
  refine ((firsts.union seconds).union others).mono fun name _ => ?_
  by_cases here : name ∈ first.reach
  · exact .inl (.inl here)
  by_cases there : name ∈ second.reach
  · exact .inl (.inr there)
  · exact .inr ⟨here, there⟩

theorem commute (near : Local make) (sound : db.tables.Sound) (apart : second.reach ⊆ first.reachᶜ)
    (apart' : first.reach ⊆ second.reachᶜ) (now later : Instant) : Commute make db first second now later := by
  have same := near.agree_of_apart sound apart apart' now later
  exact {
    secondAnswer := (near.make_after sound apart now later).1
    firstAnswer := (near.make_after sound apart' later now).1
    rows := same.shuffled
    sessions := fun _ _ _ => (Catalog.Agree.ofDatabases same).steps fun _ _ => Set.subset_univ _ }

end Local

theorem reach_apart {names others : List String} (addressed : first.names? = some names)
    (addressed' : second.names? = some others) (apart : ∀ m ∈ names, ∀ n ∈ others, address m ≠ address n) :
    second.reach ⊆ first.reachᶜ := by
  intro name there here
  rw [Call.reach, addressed] at here
  rw [Call.reach, addressed'] at there
  obtain ⟨m, given, same⟩ := here
  obtain ⟨n, given', same'⟩ := there
  exact apart m given n given' (same.symm.trans same')

/-- Two calls that address different models are answered the same in either order, and leave the same rows,
so that nothing that is done later can tell which of them came first. It is so too where a call whose answer cannot
be read breaks off. -/
theorem calls_commute (reached : db.Reached allowed) {names others : List String}
    (addressed : first.names? = some names) (addressed' : second.names? = some others)
    (apart : ∀ m ∈ names, ∀ n ∈ others, address m ≠ address n) (now later : Instant) :
    Commute call db first second now later ∧ Commute undertake db first second now later := by
  have forth := reach_apart addressed addressed' apart
  have back := reach_apart addressed' addressed fun n given' m given same => apart m given n given' same.symm
  exact ⟨local_call.commute reached.sound forth back now later,
    local_undertake.commute reached.sound forth back now later⟩

/-- The two models stand in the order in which they were created, and that is all the difference. -/
theorem commuting_creations :
    let db := Catalog.opened.database
    let one := Call.createModel "a" none ["x"]
    let two := Call.createModel "b" none []
    let now := Catalog.opened.clock.reading
    db.Reached Event.KeepsCounters ∧
    ((db.call one now).2.call two now).2.tables.names = ["a", "b"] ∧
    ((db.call two now).2.call one now).2.tables.names = ["b", "a"] ∧
    ((db.call one now).2.call two now).1 = (db.call two now).1 ∧
    ((db.call one now).2.call two now).2.Shuffled ((db.call two now).2.call one now).2 ∧
    Commute undertake db one two now now := by
  intro db one two now
  have reached : db.Reached Event.KeepsCounters := ⟨Catalog.opened, [], Catalog.fresh_opened, nofun, rfl⟩
  have addressed : one.names? = some ["a"] := rfl
  have addressed' : two.names? = some ["b"] := rfl
  have apart : ∀ m ∈ ["a"], ∀ n ∈ ["b"], address m ≠ address n := by decide +kernel
  obtain ⟨called, undertaken⟩ := calls_commute reached addressed addressed' apart now now
  exact ⟨reached, by decide +kernel, by decide +kernel, called.secondAnswer, called.rows, undertaken⟩

end Database

end ModelCatalog
