import Mathlib.Data.Finset.Card
import ModelCatalog.Proofs.ArgumentChecks
import ModelCatalog.Proofs.DistinctTags

namespace ModelCatalog

variable {tags kept : List String} {tag : String}

/-- A list holds the tags of another one, each once and in the order in which they first occur there. -/
structure FirstOccurrences (tags kept : List String) : Prop where
  once : kept.Nodup
  same : ∀ tag, tag ∈ kept ↔ tag ∈ tags
  ordered : kept.Pairwise (tags.idxOf · < tags.idxOf ·)

namespace FirstOccurrences

/-- Only one list is of this kind, because two of them have the same members in the same strict order. -/
theorem unique {other : List String} (first : FirstOccurrences tags kept) (first' : FirstOccurrences tags other) :
    kept = other := by
  have perm : kept.Perm other :=
    (List.perm_ext_iff_of_nodup first.once first'.once).mpr fun tag => (first.same tag).trans (first'.same tag).symm
  exact perm.eq_of_pairwise (fun _ _ _ _ before after => absurd after before.asymm) first.ordered first'.ordered

/-- What is added behind a list does not move the first occurrences in it. -/
theorem ordered_append (first : FirstOccurrences tags kept) (more : List String) :
    kept.Pairwise ((tags ++ more).idxOf · < (tags ++ more).idxOf ·) := by
  refine first.ordered.imp_of_mem fun {a b} inside inside' before => ?_
  rw [List.idxOf_append_of_mem ((first.same a).mp inside), List.idxOf_append_of_mem ((first.same b).mp inside')]
  exact before

theorem concat_old (first : FirstOccurrences tags kept) (old : tag ∈ tags) :
    FirstOccurrences (tags ++ [tag]) kept where
  once := first.once
  same other := by
    rw [first.same, List.mem_append, List.mem_singleton]
    exact ⟨.inl, fun there => there.elim id fun same => same ▸ old⟩
  ordered := first.ordered_append [tag]

theorem concat_new (first : FirstOccurrences tags kept) (new : tag ∉ tags) :
    FirstOccurrences (tags ++ [tag]) (kept ++ [tag]) where
  once := by
    rw [← List.concat_eq_append, List.nodup_concat]
    exact ⟨fun member => new ((first.same tag).mp member), first.once⟩
  same other := by rw [List.mem_append, List.mem_append, first.same]
  ordered := by
    refine List.pairwise_append.mpr ⟨first.ordered_append [tag], List.pairwise_singleton _ _, ?_⟩
    intro a inside b last
    have there : a ∈ tags := (first.same a).mp inside
    rw [List.mem_singleton.mp last, List.idxOf_append_of_mem there, List.idxOf_append_of_notMem new]
    exact Nat.lt_add_right _ (List.idxOf_lt_length_of_mem there)

end FirstOccurrences

namespace Operation

/-- One more tag is kept, behind the others, exactly if it is new. -/
theorem distinct_concat (tags : List String) (tag : String) :
    distinct (tags ++ [tag]) = if tag ∈ tags then distinct tags else distinct tags ++ [tag] := by
  have seen : tag ∈ (distinct tags).reverse ↔ tag ∈ tags := by
    rw [List.mem_reverse, distinct_eq, List.mem_eraseDups]
  have whole : distinct (tags ++ [tag]) = (if (distinct tags).reverse.contains tag then (distinct tags).reverse
      else tag :: (distinct tags).reverse).reverse := by
    rw [distinct, List.foldl_append, distinct, List.reverse_reverse]
    rfl
  simp only [whole, List.contains_iff_mem, seen]
  split
  · exact List.reverse_reverse _
  · rw [List.reverse_cons, List.reverse_reverse]

theorem firstOccurrences_distinct (tags : List String) : FirstOccurrences tags (distinct tags) := by
  -- A list is taken apart at its end, where the fold has come last.
  induction tags using List.reverseRecOn with
  | nil => exact ⟨List.nodup_nil, fun _ => Iff.rfl, .nil⟩
  | append_singleton tags tag first =>
    rw [distinct_concat]
    split
    · exact first.concat_old ‹_›
    · exact first.concat_new ‹_›

theorem distinct_distinct (tags : List String) : distinct (distinct tags) = distinct tags := by
  rw [distinct_eq (distinct tags)]
  exact eraseDups_of_nodup (firstOccurrences_distinct tags).once

/-- Creations and filters reduce a list of tags alike, except that no tag of a creation may be empty. -/
theorem creationTags_eq_distinct (tags : List String) : creationTags tags =
    if "" ∈ tags then .error (.argument .emptyTag) else .ok (distinct tags) := by
  rw [creationTags_eq, distinct_eq]

theorem creationTags_distinct (tags : List String) : creationTags (distinct tags) = creationTags tags := by
  simp only [creationTags_eq_distinct, distinct_distinct, (firstOccurrences_distinct tags).same]

theorem length_distinct (tags : List String) : (distinct tags).length = tags.toFinset.card := by
  have same : (distinct tags).toFinset = tags.toFinset := by
    ext tag
    rw [List.mem_toFinset, List.mem_toFinset, (firstOccurrences_distinct tags).same]
  rw [← same, List.toFinset_card_of_nodup (firstOccurrences_distinct tags).once]

end Operation

namespace Call

/-- A call with its list of tags reduced to the distinct ones. -/
def reduced : Call → Call
  | createModel name description tags => createModel name description (Operation.distinct tags)
  | listModels filter tags => listModels filter (Operation.distinct tags)
  | createVersion name draft => createVersion name { draft with tags := Operation.distinct draft.tags }
  | listVersions name tags => listVersions name (Operation.distinct tags)
  | call => call

theorem operation?_reduced (call : Call) : call.reduced.operation? = call.operation? := by
  cases call with
  | createModel => simp only [reduced, operation?, Operation.createModel, Operation.creationTags_distinct]
  | listModels => simp only [reduced, operation?, Operation.listModels, Operation.distinct_distinct]
  | createVersion name draft =>
    have reduce := Operation.creationTags_distinct draft.tags
    simp only [reduced, operation?, Operation.createVersion, reduce]
    rfl
  | listVersions => simp only [reduced, operation?, Operation.listVersions, Operation.distinct_distinct]
  | _ => rfl

end Call

theorem Database.call_reduced (call : Call) (now : Instant) (db : Database) :
    db.call call.reduced now = db.call call now := by
  rw [Database.call, call.operation?_reduced, Database.call]

namespace Operation

/-- What becomes of a list of tags in the calls that take one: a new entry is stored with the distinct ones, at
positions that count from 0, and a filter asks for as many tags as are distinct. -/
structure ReducedAlike (tags : List String) : Prop where
  model : ∀ {name : String} {description : Option String} {now : Instant} {t t' : Tables} {m : Model},
    Succeeds (createModel name description tags) now t m t' →
    t'.modelTags = t.modelTags ++ TagRow.listed (cut nameWidth name) 0 (distinct tags)
  version : ∀ {name : String} {draft : VersionDraft} {now : Instant} {t t' : Tables} {v : Version},
    draft.tags = tags → Succeeds (createVersion name draft) now t v t' →
    t'.versionTags = t.versionTags ++ TagRow.listed ⟨cut nameWidth name, v.number⟩ 0 (distinct tags)
  models : ∀ {filter : Option String} {now : Instant} {t t' : Tables} {ms : List Model},
    Succeeds (listModels filter tags) now t ms t' → ms = t.listedModels filter (distinct tags)
  versions : ∀ {name : String} {now : Instant} {t t' : Tables} {vs : List Version},
    Succeeds (listVersions name tags) now t vs t' → vs = t.listedVersions name (distinct tags)

theorem reducedAlike (tags : List String) : ReducedAlike tags where
  model done := by
    obtain ⟨-, -, -, -, -, -, -, -, -, rfl, -⟩ := createModel_succeeds.mp done
    rw [distinct_eq]
    rfl
  version same done := by
    obtain ⟨-, -, -, r, -, -, -, -, -, -, -, -, -, -, -, -, -, -, -, -, rfl, rfl⟩ := createVersion_succeeds.mp done
    rw [distinct_eq, ← same]
    rfl
  models done := by
    obtain ⟨-, -, -, rfl⟩ := listModels_succeeds.mp done
    rfl
  versions done := by
    obtain ⟨-, -, -, rfl⟩ := listVersions_succeeds.mp done
    rfl

/-- Creations and filters keep of a list of tags each one where it first occurs, and the only difference is that a
creation takes no empty tag, wherever it stands. As many tags are kept as there are different ones, in whatever order
they are given, and repeating some of them does not change a call. -/
theorem tags_reduced_alike :
    (∀ tags kept, FirstOccurrences tags kept ↔ kept = distinct tags) ∧
    (∀ tags, distinct (distinct tags) = distinct tags) ∧
    (∀ tags kept, creationTags tags = .ok kept ↔ "" ∉ tags ∧ kept = distinct tags) ∧
    (∀ tags, "" ∈ tags → creationTags tags = .error (.argument .emptyTag)) ∧
    (∀ tags, (distinct tags).length = tags.toFinset.card) ∧
    (∀ tags tags', tags.Perm tags' → (distinct tags).length = (distinct tags').length) ∧
    (∀ tags, ReducedAlike tags) ∧
    ∀ (call : Call) (now : Instant) (db : Database), db.call call.reduced now = db.call call now := by
  refine ⟨fun tags kept => ?_, distinct_distinct, fun tags kept => ?_, fun tags => creationTags_of_mem,
    length_distinct, fun tags tags' perm => ?_, reducedAlike, Database.call_reduced⟩
  · have first := firstOccurrences_distinct tags
    exact ⟨fun other => other.unique first, fun same => same ▸ first⟩
  · rw [creationTags_eq_distinct]
    split
    · exact iff_of_false nofun fun both => both.1 ‹_›
    · exact ⟨fun made => ⟨‹_›, (Except.ok.inj made).symm⟩, fun both => congrArg _ both.2.symm⟩
  · rw [length_distinct, length_distinct, List.toFinset_eq_of_perm tags tags' perm]

/-- The tag `b` is given three times, and in one list the empty one follows. -/
theorem repeats_reduced :
    let tags := ["b", "a", "b", "c", "b"]
    let now := Instant.ofSeconds 0
    let t := (Tables.empty.addModel (.registered "m" now.stored none)).addModelTags
      [⟨"m", "b", 0⟩, ⟨"m", "a", 1⟩, ⟨"m", "c", 2⟩]
    creationTags tags = .ok ["b", "a", "c"] ∧ creationTags (tags ++ [""]) = .error (.argument .emptyTag) ∧
      tags.Perm ["a", "b", "b", "b", "c"] ∧ (distinct ["a", "b", "b", "b", "c"]).length = 3 ∧
      Succeeds (createModel "m" none tags) now .empty ⟨"m", now, now, none, ["b", "a", "c"]⟩ t ∧
      t.modelTags = TagRow.listed "m" 0 (distinct tags) ∧
      ∀ db : Database, db.call (.listModels none ["b", "a", "c"]) now = db.call (.listModels none tags) now := by
  intro tags now t
  obtain ⟨-, -, kept, refused, -, permuted, alike, same⟩ := tags_reduced_alike
  have thrice : distinct tags = ["b", "a", "c"] := by decide
  have sorted : tags.Perm ["a", "b", "b", "b", "c"] := by decide
  have created : Succeeds (createModel "m" none tags) now .empty ⟨"m", now, now, none, ["b", "a", "c"]⟩ t :=
    attempt_eq_ok.mp (by decide +kernel)
  refine ⟨(kept _ _).mpr ⟨by decide, thrice.symm⟩, refused _ (by decide), sorted, ?_, created,
    (alike tags).model created, fun db => ?_⟩
  · rw [← permuted _ _ sorted, thrice]
    rfl
  · rw [← same (.listModels none tags), Call.reduced, thrice]

end Operation

end ModelCatalog
