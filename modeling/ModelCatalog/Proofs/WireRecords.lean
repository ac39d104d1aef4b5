import ModelCatalog.Entry.Wire
import ModelCatalog.Proofs.JsonText
import ModelCatalog.Proofs.TimeText

namespace ModelCatalog

namespace Json

/-- The ways to write a record again without a change of what it says: in a new order, with one more member under a key
that is not known, or without a member that is null and that may be left out. -/
inductive Respelled (keys optional : List String) (v : Value) : Value → Prop
  | same : Respelled keys optional v v
  | reorder {members members' : List (Option String × Value)} (before : Respelled keys optional v (.object members))
    (perm : members.Perm members') : Respelled keys optional v (.object members')
  | extend {members : List (Option String × Value)} {key : String} {w : Value}
    (before : Respelled keys optional v (.object members)) (unknown : key ∉ keys) :
    Respelled keys optional v (.object ((some key, w) :: members))
  | drop {members : List (Option String × Value)} {key : String}
    (before : Respelled keys optional v (.object ((some key, .null) :: members))) (absent : key ∈ optional) :
    Respelled keys optional v (.object members)

variable {keys optional : List String} {members members' : List (Option String × Value)} {key : String} {v w : Value}

/-- The value under a key. -/
def look (members : List (Option String × Value)) (key : String) : Option Value :=
  (members.find? fun m => m.1 == some key).map Prod.snd

/-- The members of a record: each key is a text, and none of the known ones stands twice. -/
structure Accepted (keys : List String) (members : List (Option String × Value)) : Prop where
  texts : ∀ m ∈ members, m.1.isSome = true
  single : ∀ key ∈ keys, members.countP (fun m => m.1 == some key) ≤ 1

theorem accepted_iff : Accepted keys members ↔ (members.all (fun m => m.1.isSome) &&
    keys.all (fun key => members.countP (fun m => m.1 == some key) ≤ 1)) = true := by
  simp only [Bool.and_eq_true, List.all_eq_true, decide_eq_true_eq]
  exact ⟨fun accepted => ⟨accepted.texts, accepted.single⟩, fun ⟨texts, single⟩ => ⟨texts, single⟩⟩

theorem Accepted.record? (accepted : Accepted keys members) :
    (Value.object members).record? keys = some (look members) := by
  rw [Value.record?, if_pos (accepted_iff.mp accepted)]
  rfl

theorem record?_of_not_accepted (refused : ¬Accepted keys members) : (Value.object members).record? keys = none := by
  rw [Value.record?, if_neg (accepted_iff.not.mp refused)]

theorem look_eq_head? : look members key = ((members.filter fun m => m.1 == some key).head?).map Prod.snd := by
  rw [look, List.head?_filter]

theorem look_cons_of_ne {other : String} (apart : other ≠ key) :
    look ((some other, w) :: members) key = look members key := by
  have skipped : ((some other : Option String) == some key) = false := by simpa using apart
  rw [look, List.find?_cons, skipped]
  rfl

theorem look_cons_self : look ((some key, w) :: members) key = some w := by
  simp [look]

theorem look_eq_none (absent : ∀ m ∈ members, m.1 ≠ some key) : look members key = none := by
  rw [look, List.find?_eq_none.mpr fun m member => by simpa using absent m member, Option.map_none]

theorem Accepted.look_of_mem (accepted : Accepted keys members) (known : key ∈ keys)
    (member : (some key, w) ∈ members) : look members key = some w := by
  have single := accepted.single key known
  have inside : (some key, w) ∈ members.filter fun m => m.1 == some key :=
    List.mem_filter.mpr ⟨member, beq_self_eq_true _⟩
  rw [List.countP_eq_length_filter] at single
  rw [look_eq_head?]
  cases here : members.filter fun m => m.1 == some key with
  | nil =>
    rw [here] at inside
    cases inside
  | cons m more =>
    rw [here] at inside single
    obtain rfl : more = [] := List.length_eq_zero_iff.mp (Nat.le_zero.mp (Nat.le_of_succ_le_succ single))
    rw [← List.mem_singleton.mp inside]
    rfl

/-- A key that stands once has the same value in every order. -/
theorem look_of_perm (perm : members.Perm members') (single : members.countP (fun m => m.1 == some key) ≤ 1) :
    look members key = look members' key := by
  have found := perm.filter fun m => m.1 == some key
  rw [List.countP_eq_length_filter] at single
  rw [look_eq_head?, look_eq_head?]
  cases here : members.filter fun m => m.1 == some key with
  | nil =>
    rw [here] at found
    rw [found.nil_eq]
  | cons m more =>
    rw [here] at found single
    obtain rfl : more = [] := List.length_eq_zero_iff.mp (Nat.le_zero.mp (Nat.le_of_succ_le_succ single))
    rw [← List.singleton_perm.mp found]

/-- What two lists of members have in common that say the same about the known keys. -/
structure SaysSame (keys optional : List String) (members members' : List (Option String × Value)) : Prop where
  accepted : Accepted keys members'
  required : ∀ key ∈ keys, key ∉ optional → look members' key = look members key
  defaulted : ∀ key ∈ keys, (look members' key).getD .null = (look members key).getD .null

theorem SaysSame.reorder {again : List (Option String × Value)} (told : SaysSame keys optional members members')
    (perm : members'.Perm again) : SaysSame keys optional members again where
  accepted := {
    texts := fun m member => told.accepted.texts m (perm.mem_iff.mpr member)
    single := fun key known => perm.countP_eq _ ▸ told.accepted.single key known }
  required := fun key known needed => by
    rw [← look_of_perm perm (told.accepted.single key known)]
    exact told.required key known needed
  defaulted := fun key known => by
    rw [← look_of_perm perm (told.accepted.single key known)]
    exact told.defaulted key known

theorem SaysSame.extend (told : SaysSame keys optional members members') (unknown : key ∉ keys) :
    SaysSame keys optional members ((some key, w) :: members') := by
  have other : ∀ known ∈ keys, key ≠ known := fun known member same => unknown (same ▸ member)
  refine ⟨⟨?_, fun known member => ?_⟩, fun known member needed => ?_, fun known member => ?_⟩
  · exact List.forall_mem_cons.mpr ⟨rfl, told.accepted.texts⟩
  · rw [List.countP_cons_of_neg (by simpa using other known member)]
    exact told.accepted.single known member
  · rw [look_cons_of_ne (other known member)]
    exact told.required known member needed
  · rw [look_cons_of_ne (other known member)]
    exact told.defaulted known member

theorem SaysSame.drop (told : SaysSame keys optional members ((some key, .null) :: members'))
    (absent : key ∈ optional) : SaysSame keys optional members members' := by
  obtain ⟨⟨texts, single⟩, required, defaulted⟩ := told
  refine ⟨⟨fun m member => texts m (List.mem_cons_of_mem _ member), fun known member => ?_⟩,
    fun known member needed => ?_, fun known member => ?_⟩
  · exact Nat.le_trans (List.sublist_cons_self _ _).countP_le (single known member)
  · have apart : key ≠ known := fun same => needed (same ▸ absent)
    rw [← required known member needed, look_cons_of_ne apart]
  · rw [← defaulted known member]
    by_cases same : key = known
    · subst same
      have once := single key member
      rw [List.countP_cons_of_pos (by simp)] at once
      have gone := List.countP_eq_zero.mp (Nat.le_zero.mp (Nat.le_of_succ_le_succ once))
      rw [look_cons_self, look_eq_none fun m member => by simpa using gone m member]
      rfl
    · rw [look_cons_of_ne same]

theorem Respelled.saysSame (respelled : Respelled keys optional (.object members) w)
    (accepted : Accepted keys members) : ∃ members', w = .object members' ∧ SaysSame keys optional members members' := by
  induction respelled with
  | same => exact ⟨members, rfl, accepted, fun _ _ _ => rfl, fun _ _ => rfl⟩
  | reorder _ perm ih =>
    obtain ⟨_, same, told⟩ := ih
    cases same
    exact ⟨_, rfl, told.reorder perm⟩
  | extend _ unknown ih =>
    obtain ⟨_, same, told⟩ := ih
    cases same
    exact ⟨_, rfl, told.extend unknown⟩
  | drop _ absent ih =>
    obtain ⟨_, same, told⟩ := ih
    cases same
    exact ⟨_, rfl, told.drop absent⟩

variable {fields : List (String × Value)}

/-- The members of an object that is written from fields. -/
def membersOf (fields : List (String × Value)) : List (Option String × Value) :=
  fields.map fun field => (some field.1, field.2)

theorem ofFields_eq : Value.ofFields fields = .object (membersOf fields) :=
  rfl

theorem accepted_membersOf (distinct : (fields.map Prod.fst).Nodup) : Accepted keys (membersOf fields) where
  texts := by
    intro m member
    obtain ⟨field, _, rfl⟩ := List.mem_map.mp member
    rfl
  single := fun key _ => by
    have once := List.nodup_iff_count.mp distinct key
    rw [List.count_eq_countP, List.countP_map] at once
    rw [membersOf, List.countP_map]
    simpa [Function.comp_def] using once

theorem look_membersOf : look (membersOf fields) key = fields.lookup key := by
  induction fields with
  | nil => rfl
  | cons field rest ih =>
    obtain ⟨other, v⟩ := field
    rw [membersOf, List.map_cons, List.lookup_cons]
    by_cases same : key = other
    · rw [same, look_cons_self, beq_self_eq_true]
    · rw [look_cons_of_ne (Ne.symm same), beq_false_of_ne same]
      exact ih

theorem plain_optional (s : Option String) : Plain (.optional s) := by
  cases s with
  | none => exact .null
  | some s => exact .text s

theorem plain_texts (l : List String) : Plain (.texts l) := by
  refine .array fun v member => ?_
  obtain ⟨s, _, rfl⟩ := List.mem_map.mp member
  exact .text s

theorem plain_ofFields (each : ∀ field ∈ fields, Plain field.2) : Plain (.ofFields fields) := by
  refine .object (fun m member => ?_) fun m member => ?_
  · obtain ⟨field, _, rfl⟩ := List.mem_map.mp member
    rfl
  · obtain ⟨field, listed, rfl⟩ := List.mem_map.mp member
    exact each field listed

/-- What the reader of a kind of record does: it gives back what was written, from the text and from every way to write
the record again, and it takes no object without a key that has no default or with a known key that stands twice. -/
structure ReadsBack {α : Type} (keys optional : List String) (toJson : α → Value) (ofJson? : Value → Option α)
    (writable : α → Prop) : Prop where
  text : ∀ a, writable a → (Json.read? (Json.print (toJson a))).bind ofJson? = some a
  respelled : ∀ a, writable a → ∀ w, Respelled keys optional (toJson a) w → ofJson? w = some a
  lacking : ∀ key ∈ keys, key ∉ optional → ∀ members : List (Option String × Value),
    (∀ m ∈ members, m.1 ≠ some key) → ofJson? (.object members) = none
  repeated : ∀ key ∈ keys, ∀ members : List (Option String × Value),
    2 ≤ members.countP (fun m => m.1 == some key) → ofJson? (.object members) = none

/-- The reader of a kind of record looks up the fields of an object by their keys. A missing field is as good as null if
its key may be left out, and otherwise nothing is read. -/
structure ReadsFields {α : Type} (keys optional : List String) (ofJson? : Value → Option α)
    (read : (String → Option Value) → Option α) : Prop where
  opened : ∀ v, ofJson? v = v.record? keys >>= read
  alike : ∀ field field' : String → Option Value, (∀ key ∈ keys, key ∉ optional → field' key = field key) →
    (∀ key ∈ keys, (field' key).getD .null = (field key).getD .null) → read field' = read field
  lacking : ∀ key ∈ keys, key ∉ optional → ∀ field, field key = none → read field = none

section Reading

variable {α : Type} {toJson : α → Value} {ofJson? : Value → Option α} {read : (String → Option Value) → Option α}
  {writable : α → Prop}

theorem ReadsFields.of_accepted (reader : ReadsFields keys optional ofJson? read) (accepted : Accepted keys members) :
    ofJson? (.object members) = read (look members) := by
  rw [reader.opened, accepted.record?, some_bind]

theorem ReadsFields.of_not_accepted (reader : ReadsFields keys optional ofJson? read)
    (refused : ¬Accepted keys members) : ofJson? (.object members) = none := by
  rw [reader.opened, record?_of_not_accepted refused, none_bind]

/-- What such a reader gives back from a written record it gives back from every way to write the record. -/
theorem ReadsFields.readsBack (reader : ReadsFields keys optional ofJson? read) (plain : ∀ a, Plain (toJson a))
    (written : ∀ a, ∃ fields, toJson a = .ofFields fields ∧ (fields.map Prod.fst).Nodup)
    (back : ∀ a, writable a → ofJson? (toJson a) = some a) : ReadsBack keys optional toJson ofJson? writable where
  text := fun a fine => by rw [read?_print (plain a), Option.bind_some, back a fine]
  respelled := fun a fine w respelled => by
    obtain ⟨fields, whole, distinct⟩ := written a
    have accepted : Accepted keys (membersOf fields) := accepted_membersOf distinct
    have known := back a fine
    rw [whole, ofFields_eq] at respelled known
    obtain ⟨members', rfl, told⟩ := respelled.saysSame accepted
    rw [reader.of_accepted told.accepted, reader.alike _ _ told.required told.defaulted, ← reader.of_accepted accepted,
      known]
  lacking := fun key known needed members absent => by
    by_cases accepted : Accepted keys members
    · rw [reader.of_accepted accepted, reader.lacking key known needed _ (look_eq_none absent)]
    · exact reader.of_not_accepted accepted
  repeated := fun key known members twice => reader.of_not_accepted fun accepted =>
    absurd (accepted.single key known) (by omega)

end Reading

end Json

open Json

variable {m : Model} {v : Version} {w : Value} {members members' : List (Option String × Value)} {key : String}

namespace Stage

theorem name_eq_of_ofName? {name : String} {stage : Stage} (found : ofName? name = some stage) : name = stage.name :=
  (eq_of_beq (List.find?_some (p := fun stage : Stage => stage.name == name) found)).symm

theorem ofJson?_eq_some_iff {stage : Stage} :
    ofJson? w = some stage ↔ w = .text stage.name ∨ w = .object [(some stage.name, .null)] := by
  constructor
  · intro read
    rw [ofJson?.eq_def] at read
    split at read
    · rw [name_eq_of_ofName? read]
      exact .inl rfl
    · rw [name_eq_of_ofName? read]
      exact .inr rfl
    · cases read
  · rintro (rfl | rfl)
    · exact ofName?_name stage
    · exact ofName?_name stage

theorem ofJson?_toJson (stage : Stage) : ofJson? stage.toJson = some stage :=
  ofJson?_eq_some_iff.mpr (.inl rfl)

end Stage

namespace Instant

theorem ofJson?_toJson {t : Instant} (readable : t.representable = true) : ofJson? t.toJson = some t := by
  simp only [toJson, ofJson?, Value.text?_text, Option.bind_eq_bind, Option.bind_some, String.toList_ofList,
    Rfc3339.read?_print readable]

end Instant

namespace Model

def optionalKeys : List String :=
  ["description"]

theorem exists_reader : ∃ read, ReadsFields keys optionalKeys ofJson? read := by
  refine ⟨_, fun v => rfl, fun field field' required defaulted => ?_, fun key known needed field absent => ?_⟩
  · simp [keys, optionalKeys, or_imp, forall_and] at required defaulted
    simp only [required, defaulted]
  · simp only [keys, List.mem_cons, List.not_mem_nil, or_false] at known
    rcases known with rfl | rfl | rfl | rfl | rfl <;>
      first
      | simp [optionalKeys] at needed; done
      | simp only [absent, none_bind, bind_none]

theorem plain_toJson (m : Model) : Plain m.toJson := by
  refine plain_ofFields fun field member => ?_
  simp only [List.mem_cons, List.not_mem_nil, or_false] at member
  rcases member with rfl | rfl | rfl | rfl | rfl <;>
    first | exact .text _ | exact plain_optional _ | exact plain_texts _

/-- The times of a record can be read back, as they are in one of the years that have a name. -/
def Writable (m : Model) : Prop :=
  ∀ t ∈ m.times, t.representable = true

theorem ofJson?_toJson (writable : m.Writable) : ofJson? m.toJson = some m := by
  have created := Instant.ofJson?_toJson (writable m.createdAt (by simp [Model.times]))
  have updated := Instant.ofJson?_toJson (writable m.updatedAt (by simp [Model.times]))
  rw [toJson, ofFields_eq, ofJson?, Accepted.record? (accepted_membersOf (by simp))]
  simp [-Option.bind_eq_bind, look_membersOf, List.lookup_cons, created, updated, some_bind]

end Model

namespace Version

def optionalKeys : List String :=
  ["dataset", "description"]

/-- Besides, nothing is read of a version whose stage is not read. -/
theorem exists_reader : ∃ read, ReadsFields keys optionalKeys ofJson? read ∧
    ∀ field w, field "currentStage" = some w → Stage.ofJson? w = none → read field = none := by
  refine ⟨_, ⟨fun v => rfl, fun field field' required defaulted => ?_, fun key known needed field absent => ?_⟩,
    fun field w found bad => ?_⟩
  · simp [keys, optionalKeys, or_imp, forall_and] at required defaulted
    simp only [required, defaulted]
  · simp only [keys, List.mem_cons, List.not_mem_nil, or_false] at known
    rcases known with rfl | rfl | rfl | rfl | rfl | rfl | rfl | rfl | rfl | rfl | rfl | rfl <;>
      first
      | simp [optionalKeys] at needed; done
      | simp only [absent, none_bind, bind_none]
  · simp only [found, some_bind, bad, none_bind, bind_none]

/-- The number is one of 32 bits, and the times can be read back. -/
def Writable (v : Version) : Prop :=
  Range.signed32.has v.number = true ∧ ∀ t ∈ v.times, t.representable = true

theorem ofJson?_toJson (writable : v.Writable) : ofJson? v.toJson = some v := by
  obtain ⟨number, times⟩ := writable
  have created := Instant.ofJson?_toJson (times v.createdAt (by simp [Version.times]))
  have updated := Instant.ofJson?_toJson (times v.updatedAt (by simp [Version.times]))
  rw [toJson, ofFields_eq, ofJson?, Accepted.record? (accepted_membersOf (by simp))]
  simp [-Option.bind_eq_bind, look_membersOf, List.lookup_cons, created, updated, Value.integer?, number,
    Stage.ofJson?_toJson, some_bind]

theorem plain_toJson (v : Version) : Plain v.toJson := by
  refine plain_ofFields fun field member => ?_
  simp only [List.mem_cons, List.not_mem_nil, or_false] at member
  rcases member with rfl | rfl | rfl | rfl | rfl | rfl | rfl | rfl | rfl | rfl | rfl | rfl <;>
    first | exact .text _ | exact .integer _ | exact plain_optional _ | exact plain_texts _

end Version

/-- Models and versions are read back from what is written of them, and nothing is read where a key that has no default
is missing, where a known key stands twice, or where the stage is in a form that is never used for one. -/
theorem records_read_back :
    ReadsBack Model.keys Model.optionalKeys Model.toJson Model.ofJson? Model.Writable ∧
    ReadsBack Version.keys Version.optionalKeys Version.toJson Version.ofJson? Version.Writable ∧
    ∀ (members : List (Option String × Value)) (w : Value), (some "currentStage", w) ∈ members →
      (∀ stage : Stage, w ≠ .text stage.name ∧ w ≠ .object [(some stage.name, .null)]) →
      Version.ofJson? (.object members) = none := by
  obtain ⟨readModel, modelReader⟩ := Model.exists_reader
  obtain ⟨readVersion, versionReader, badStage⟩ := Version.exists_reader
  refine ⟨?_, ?_, fun members w member bad => ?_⟩
  · exact modelReader.readsBack Model.plain_toJson (fun m => ⟨_, rfl, by simp⟩) fun _ => Model.ofJson?_toJson
  · exact versionReader.readsBack Version.plain_toJson (fun v => ⟨_, rfl, by simp⟩) fun _ => Version.ofJson?_toJson
  · by_cases accepted : Accepted Version.keys members
    · rw [versionReader.of_accepted accepted]
      refine badStage _ w (accepted.look_of_mem (by simp [Version.keys]) member) ?_
      refine Option.eq_none_iff_forall_ne_some.mpr fun stage read => ?_
      exact (Stage.ofJson?_eq_some_iff.mp read).elim (bad stage).1 (bad stage).2
    · exact versionReader.of_not_accepted accepted

/-- A stage is also read from an object, so a version is read here although its stage is not a text. -/
theorem stage_read_from_object :
    (∀ stage : Stage, Value.object [(some "NONE", .null)] ≠ .text stage.name) ∧
    Version.ofJson? (.object [(some "name", .text "m"), (some "version", .integer 1), (some "id", .text "i"),
      (some "userId", .text "u"), (some "experimentId", .text "e"), (some "modelType", .text "t"),
      (some "currentStage", .object [(some "NONE", .null)]), (some "creationTime", .text "2021-11-11T11:11:11Z"),
      (some "lastUpdatedTime", .text "2021-11-11T11:11:11Z"), (some "tags", .array [])]) =
      some ⟨"m", 1, "i", "u", "e", "t", .unstaged, .ofSeconds 1636629071, .ofSeconds 1636629071, none, none, []⟩ :=
  ⟨nofun, by decide +kernel⟩

end ModelCatalog
