import ModelCatalog.Proofs.Consistency
import ModelCatalog.Proofs.RenamedRows

namespace ModelCatalog

/-- The first numbers, in order. -/
def numbersTo (n : Int) : List Int :=
  (List.range n.toNat).map fun (i : Nat) => (i : Int) + 1

theorem numbersTo_succ {n : Int} (nonneg : 0 ≤ n) : numbersTo (n + 1) = numbersTo n ++ [n + 1] := by
  have next : (n + 1).toNat = n.toNat + 1 := by omega
  have last : (n.toNat : Int) + 1 = n + 1 := by omega
  simp only [numbersTo, next, List.range_succ, List.map_append, List.map_cons, List.map_nil, last]

theorem length_numbersTo {n : Int} (nonneg : 0 ≤ n) : ((numbersTo n).length : Int) = n := by
  rw [numbersTo, List.length_map, List.length_range]
  omega

/-- For every model that is there, the numbers that were answered to the successful creations of its
versions, in order, from the creation of the model on. A model that is renamed takes its numbers along, and
one that is deleted loses them. -/
def Ledger.numbers : Ledger (String → Option (List Int)) where
  blank := fun _ => none
  note given
    | .createModel name .., _ => Function.update given (cut nameWidth name) (some [])
    | .renameModel name newName, _ => Function.update (Function.update given newName (given name)) name none
    | .deleteModel name, _ => Function.update given name none
    | .createVersion name _, .version v => Function.update given name ((given name).map (· ++ [v.number]))
    | _, _ => given

namespace Tables

variable {t : Tables} {name newName : String} {now : Timestamp}

/-- The counters of the models by name. -/
def counters (t : Tables) (name : String) : Option Int :=
  (t.model? name).map (·.counter)

theorem counters_addModel {row : ModelRow} (new : row.name ∉ t.names) :
    (t.addModel row).counters = Function.update t.counters row.name (some row.counter) := by
  funext other
  rw [Function.update_apply, counters, model?_addModel new]
  split <;> rfl

theorem counters_updateModel {f : ModelRow → ModelRow} (keeps : ∀ r, (f r).name = r.name)
    (counts : ∀ r, (f r).counter = r.counter) : (t.updateModel name f).counters = t.counters := by
  funext other
  rw [counters, counters, model?_updateModel keeps]
  split
  · rw [Option.map_map, Function.comp_def]
    simp only [counts]
  · rfl

theorem counters_touchModel : (t.touchModel name now).counters = t.counters :=
  counters_updateModel (fun _ => rfl) fun _ => rfl

theorem counters_describeModel {text : String} : (t.describeModel name text now).counters = t.counters :=
  counters_updateModel (fun _ => rfl) fun _ => rfl

theorem counters_countVersion :
    (t.countVersion name now).counters = Function.update t.counters name ((t.counters name).map (· + 1)) := by
  funext other
  rw [Function.update_apply, counters, countVersion, model?_updateModel]
  · by_cases same : other = name
    · subst same
      rw [if_pos rfl, if_pos rfl, counters, Option.map_map, Option.map_map]
      rfl
    · rw [if_neg same, if_neg same]
      rfl
  · exact fun _ => rfl

theorem counters_withoutModel : (t.withoutModel name).counters = Function.update t.counters name none := by
  funext other
  rw [Function.update_apply]
  by_cases same : other = name
  · have gone : (t.withoutModel name).model? other = none := by
      rw [model?_eq_none_iff, names_withoutModel, List.mem_filter, same]
      simp only [ne_eq, not_true, decide_false, Bool.false_eq_true, and_false, not_false_eq_true]
    rw [counters, gone, if_pos same]
    rfl
  · have kept : (t.withoutModel name).model? other = t.model? other := by
      rw [model?, withoutModel_models, List.find?_filter]
      refine List.find?_congr fun r _ => ?_
      by_cases found : r.name = other <;> simp [found, same]
    rw [counters, kept, if_neg same]
    rfl

theorem counters_renamed (new : newName ∉ t.names) (there : name ∈ t.names) :
    (t.renamed name newName now).counters =
      Function.update (Function.update t.counters newName (t.counters name)) name none := by
  have differ : newName ≠ name := fun same => new (same ▸ there)
  funext other
  rw [Function.update_apply, Function.update_apply, counters, model?_renamed new differ]
  split
  · rfl
  split
  · rw [Option.map_map]
    rfl
  · rfl

end Tables

/-- The numbers handed out for each model are the first ones, up to its counter. -/
structure Tables.Numbered (given : String → Option (List Int)) (t : Tables) : Prop where
  sound : t.Sound
  counted : t.Counted
  given : given = Option.map numbersTo ∘ t.counters

namespace Tables.Numbered

variable {given : String → Option (List Int)} {t t' : Tables}

theorem afterEdit {now : Timestamp} {call : Call} {a : Answer} (numbered : t.Numbered given)
    (edit : t.Edit now call a t') : t'.Numbered (Ledger.numbers.note given call a) := by
  refine ⟨numbered.sound.afterEdit edit, numbered.counted.afterEdit numbered.sound edit, ?_⟩
  have known := numbered.given
  cases edit with
  | createModel row new =>
    change Function.update given _ _ = Option.map numbersTo ∘ (t.addModel _).counters
    rw [counters_addModel new, Function.comp_update, known]
    rfl
  | renameModel there new =>
    rw [counters_renamed new there, Function.comp_update, Function.comp_update, ← known]
    change Function.update (Function.update given _ (given _)) _ _ = _
    rw [known]
    rfl
  | deleteModel =>
    rw [counters_withoutModel, Function.comp_update, ← known]
    rfl
  | @createVersion name draft r v member named room new filled tagged row number =>
    have found : t.counters name = some r.counter := by
      rw [counters, (model?_eq_some_iff numbered.sound.names).mpr ⟨member, named⟩]
      rfl
    have nonneg := (numbered.counted.bounded r member).1
    change Function.update given name ((given name).map (· ++ [v.number])) =
      Option.map numbersTo ∘ (t.countVersion name now).counters
    rw [counters_countVersion, Function.comp_update, ← known, known, Function.comp_apply, found, number]
    simp only [Option.map_some, numbersTo_succ nonneg]
  | @read call a reads =>
    cases call with
    | getModel | getVersion | versionUri | listModels | listVersions => exact known
    | _ => exact absurd reads nofun
  | describeModel =>
    rw [counters_describeModel]
    exact known
  | tagModelAgain => exact known
  | tagVersionAgain => exact known
  | tagModel | untagModel | describeVersion | moveVersion | deleteVersion | tagVersion | untagVersion =>
    rw [counters_touchModel]
    exact known

theorem afterTurn {now : Instant} {e : Event} {r : Reply} {home : String} (numbered : t.Numbered given)
    (kept : e.KeepsCounters) (turn : t.Turn now e r t') :
    t'.Numbered (Ledger.numbers.next home given (e, some (.ok r))) := by
  have sound := numbered.sound.afterTurn turn
  have counted := numbered.counted.afterTurn numbered.sound kept turn
  cases turn with
  | call done => exact numbered.afterEdit (numbered.sound.edit done)
  | dataset done =>
    refine ⟨sound, counted, ?_⟩
    obtain ⟨-, -, -, rfl, -⟩ := Versions.setDataset_ok.mp done
    exact numbered.given
  | counter => exact kept.elim

/-- A model whose numbers are known is there, and they are as many as its counter says. -/
theorem exists_row {name : String} {numbers : List Int} (numbered : t.Numbered given)
    (known : given name = some numbers) :
    ∃ r, t.model? name = some r ∧ 0 ≤ r.counter ∧ numbers = numbersTo r.counter := by
  rw [numbered.given, Function.comp_apply, Tables.counters, Option.map_map, Option.map_eq_some_iff] at known
  obtain ⟨r, found, same⟩ := known
  obtain ⟨member, -⟩ := (model?_eq_some_iff numbered.sound.names).mp found
  exact ⟨r, found, (numbered.counted.bounded r member).1, same.symm⟩

end Tables.Numbered

theorem of_getElem?_numbersTo {n number : Int} {k : Nat} (place : (numbersTo n)[k]? = some number) :
    number = k + 1 := by
  rw [numbersTo, List.getElem?_map, Option.map_eq_some_iff] at place
  obtain ⟨i, place, rfl⟩ := place
  obtain ⟨_, same⟩ := List.getElem?_eq_some_iff.mp place
  rw [List.getElem_range] at same
  rw [same]

namespace Catalog

variable {c : Catalog} {events : List Event}

theorem numbered_steps (fresh : c.Fresh) (kept : ∀ e ∈ events, e.KeepsCounters) :
    (c.steps events).2.database.tables.Numbered (Ledger.numbers.after c events) :=
  Ledger.numbers.after_holds (fun given t => t.Numbered given) Event.KeepsCounters ⟨.empty, .empty, rfl⟩
    (fun kept numbered turn => numbered.afterTurn kept turn) fresh kept

/-- The versions of a model are numbered 1, 2, 3 and so on in the order of their creation, from the creation of
the model to its deletion and through all its renamings. What else is done in between, and what fails, makes no
difference, and a model that is created was not there before, so that it starts again. -/
theorem numbers_without_gaps (fresh : c.Fresh) (kept : ∀ e ∈ events, e.KeepsCounters)
    {given : String → Option (List Int)} (account : Ledger.numbers.after c events = given) :
    (∀ (name : String) (numbers : List Int) (k : Nat) (number : Int), given name = some numbers →
      numbers[k]? = some number → number = k + 1) ∧
    (∀ name draft now a, ((c.steps events).2.database.call (.createVersion name draft) now).1 = .ok a →
      ∃ numbers v, given name = some numbers ∧ a = .version v ∧ v.number = numbers.length + 1) ∧
    (∀ name description tags now a,
      ((c.steps events).2.database.call (.createModel name description tags) now).1 = .ok a →
      given (cut nameWidth name) = none) := by
  have numbered := numbered_steps fresh kept
  rw [account] at numbered
  refine ⟨fun name numbers k number known place => ?_, fun name draft now a answered => ?_,
    fun name description tags now a answered => ?_⟩
  · obtain ⟨r, -, -, rfl⟩ := numbered.exists_row known
    exact of_getElem?_numbersTo place
  · obtain ⟨t, t', live, done, -⟩ := Database.call_of_ok answered
    rw [live] at numbered
    have edit := numbered.sound.edit done
    cases edit with
    | read reads => exact absurd reads nofun
    | @createVersion _ _ r v member named room new filled tagged row number =>
      have found := (Tables.model?_eq_some_iff numbered.sound.names).mpr ⟨member, named⟩
      have nonneg := (numbered.counted.bounded r member).1
      refine ⟨numbersTo r.counter, v, ?_, rfl, ?_⟩
      · rw [numbered.given, Function.comp_apply, Tables.counters, found]
        rfl
      · rw [number, length_numbersTo nonneg]
  · obtain ⟨t, t', live, done, -⟩ := Database.call_of_ok answered
    rw [live] at numbered
    have edit := numbered.sound.edit done
    cases edit with
    | read reads => exact absurd reads nofun
    | createModel row new =>
      rw [numbered.given, Function.comp_apply, Tables.counters, Tables.model?_eq_none_iff.mpr new]
      rfl

def plainDraft : VersionDraft :=
  ⟨"run", "user", "trial", "tree", none, []⟩

/-- A version is deleted, the next one fails, the model is renamed, and another one takes its old name. -/
def turnover : List Event :=
  [.call (.createModel "a" none []), .call (.createVersion "a" plainDraft), .call (.deleteVersion ⟨"a", 1⟩),
    .call (.createVersion "a" { plainDraft with tags := [""] }), .call (.createVersion "a" plainDraft),
    .call (.renameModel "a" "b"), .call (.createModel "a" none []), .call (.createVersion "a" plainDraft)]

theorem numbers_of_turnover :
    opened.Fresh ∧ (∀ e ∈ turnover, e.KeepsCounters) ∧
    Ledger.numbers.after opened turnover "a" = some [1] ∧
    Ledger.numbers.after opened turnover "b" = some [1, 2] ∧
    ∃ v, ((opened.steps turnover).2.call? (.createVersion "b" plainDraft)).1 = some (.ok (.version v)) ∧
      v.number = ([1, 2] : List Int).length + 1 := by
  have kept : ∀ e ∈ turnover, e.KeepsCounters := by simp [turnover, Event.KeepsCounters]
  have known : Ledger.numbers.after opened turnover "b" = some [1, 2] := by decide +kernel
  obtain ⟨-, next, -⟩ := numbers_without_gaps fresh_opened kept rfl
  have served : ((opened.steps turnover).2.call? (.createVersion "b" plainDraft)).1.any Except.isOk = true := by
    decide +kernel
  cases answered : ((opened.steps turnover).2.call? (.createVersion "b" plainDraft)).1 with
  | none => simp [answered] at served
  | some result =>
    cases result with
    | error err => simp [answered, Except.isOk, Except.toBool] at served
    | ok a =>
      obtain ⟨numbers, v, before, rfl, number⟩ := next _ _ _ _ (call_of_call? answered)
      cases before.symm.trans known
      exact ⟨fresh_opened, kept, by decide +kernel, known, v, rfl, number⟩

end Catalog

end ModelCatalog
