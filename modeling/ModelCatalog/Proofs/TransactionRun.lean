import ModelCatalog.Database.Transaction

namespace ModelCatalog

theorem bind_eq_ok {α β : Type} {x : Except CatalogError α} {f : α → Except CatalogError β} {b : β} :
    x >>= f = .ok b ↔ ∃ a, x = .ok a ∧ f a = .ok b := by
  cases x with
  | error e => exact ⟨nofun, nofun⟩
  | ok a => exact ⟨fun run => ⟨a, rfl, run⟩, fun ⟨_, same, run⟩ => by cases same; exact run⟩

theorem pure_eq_ok {α : Type} {a b : α} : (pure a : Except CatalogError α) = .ok b ↔ b = a := by
  simp only [pure, Except.pure, Except.ok.injEq, eq_comm]

/-- One parameter after the other is read, and none of them may be at fault. -/
@[simp] theorem given_ok {ps : List Parameter} {u : Unit} :
    given ps = .ok u ↔ ∀ p ∈ ps, p.fault? = none := by
  simp only [given, refuseIf_eq_ok, Option.map_eq_none_iff, List.findSome?_eq_none_iff]

@[simp] theorem Parameter.fault?_text {s : String} :
    (text s).fault? = none ↔ holdsZero s = false := by
  cases zero : holdsZero s <;> simp [fault?, zero]

@[simp] theorem Parameter.fault?_texts {l : List String} :
    (texts l).fault? = none ↔ ∀ s ∈ l, holdsZero s = false := by
  cases zero : l.any holdsZero <;> simp_all [fault?]

@[simp] theorem Parameter.fault?_time {t : Timestamp} :
    (time t).fault? = none ↔ t.isStorable = true := by
  cases storable : t.isStorable <;> simp [fault?, storable]

@[simp] theorem fit_ok {width : Nat} {s s' : String} :
    fit width s = .ok s' ↔ fits width s = true ∧ s' = cut width s := by
  cases room : fits width s <;> simp [fit, room, @eq_comm _ s']

@[simp] theorem fitOptional_ok {width : Nat} {s s' : Option String} :
    fitOptional width s = .ok s' ↔ (∀ d ∈ s, fits width d = true) ∧ s' = s.map (cut width) := by
  cases s with
  | none => simp [fitOptional, @eq_comm _ s']
  | some d => cases room : fits width d <;> simp [fitOptional, fit, room, Except.map, @eq_comm _ s']

namespace Transaction

variable {α β : Type} {t t' : Tables}

/-- What a transaction comes to where the tables are there: its value and the tables that it leaves, or the error that
has ended it. -/
def on (x : Transaction α) (t : Tables) : Except CatalogError (α × Tables) :=
  match x true t with
  | .ok a t' => .ok (a, t')
  | .error e _ => .error e

theorem bind_run {x : Transaction α} {f : α → Transaction β} {there : Bool} :
    (x >>= f) there t =
      match x there t with
      | .ok a s => f a there s
      | .error e s => .error e s := by
  change EStateM.bind (x there) (fun a => f a there) t = _
  unfold EStateM.bind
  cases x there t <;> rfl

theorem bind_on {x : Transaction α} {f : α → Transaction β} :
    (x >>= f).on t = x.on t >>= fun (a, s) => (f a).on s := by
  unfold on
  rw [bind_run]
  cases x true t <;> rfl

@[simp low] theorem bind_ok {x : Transaction α} {f : α → Transaction β} {b : β} :
    (x >>= f).on t = .ok (b, t') ↔ ∃ a s, x.on t = .ok (a, s) ∧ (f a).on s = .ok (b, t') := by
  rw [bind_on, bind_eq_ok, Prod.exists]

@[simp] theorem pure_ok {a b : α} :
    (pure a : Transaction α).on t = .ok (b, t') ↔ b = a ∧ t' = t := by
  change (pure (a, t) : Except CatalogError _) = .ok (b, t') ↔ _
  rw [pure_eq_ok, Prod.mk.injEq]

@[simp] theorem map_ok {f : α → β} {x : Transaction α} {b : β} :
    (f <$> x).on t = .ok (b, t') ↔ ∃ a, x.on t = .ok (a, t') ∧ b = f a := by
  rw [← bind_pure_comp, bind_ok]
  simp only [pure_ok]
  constructor
  · intro ran
    obtain ⟨a, s, run, rfl, rfl⟩ := ran
    exact ⟨a, run, rfl⟩
  · intro ran
    obtain ⟨a, run, rfl⟩ := ran
    exact ⟨a, t', run, rfl, rfl⟩

theorem lift_on {x : Except CatalogError α} : (liftM x : Transaction α).on t = x >>= fun a => pure (a, t) := by
  cases x <;> rfl

/-- A check, or a value that does not depend on the tables, leaves them as they are. -/
@[simp] theorem lift_ok {x : Except CatalogError α} {a : α} :
    (liftM x : Transaction α).on t = .ok (a, t') ↔ x = .ok a ∧ t' = t := by
  simp only [lift_on, bind_eq_ok, pure_eq_ok, Prod.mk.injEq]
  constructor
  · intro ran
    obtain ⟨b, run, rfl, rfl⟩ := ran
    exact ⟨run, rfl⟩
  · intro ran
    obtain ⟨run, rfl⟩ := ran
    exact ⟨a, run, rfl, rfl⟩

@[simp] theorem get_ok {s : Tables} :
    (get : Transaction Tables).on t = .ok (s, t') ↔ s = t ∧ t' = t := by
  change (pure (t, t) : Except CatalogError _) = .ok (s, t') ↔ _
  rw [pure_eq_ok, Prod.mk.injEq]

@[simp] theorem set_ok {s : Tables} {u : PUnit} :
    (set s : Transaction PUnit).on t = .ok (u, t') ↔ t' = s := by
  change (pure (PUnit.unit, s) : Except CatalogError _) = .ok (u, t') ↔ _
  rw [pure_eq_ok, Prod.mk.injEq]
  exact ⟨And.right, fun same => ⟨rfl, same⟩⟩

@[simp] theorem modify_ok {f : Tables → Tables} {u : PUnit} :
    (modify f : Transaction PUnit).on t = .ok (u, t') ↔ t' = f t := by
  change (pure (PUnit.unit, f t) : Except CatalogError _) = .ok (u, t') ↔ _
  rw [pure_eq_ok, Prod.mk.injEq]
  exact ⟨And.right, fun same => ⟨rfl, same⟩⟩

/-- Where the tables are there, all that a statement begins with is to read its parameters. -/
theorem statement_on {relation : Relation} {ps : List Parameter} :
    (statement relation ps).on t = given ps >>= fun u => .ok (u, t) := by
  unfold statement
  cases given ps <;> rfl

@[simp] theorem statement_ok {relation : Relation} {ps : List Parameter} {u : Unit} :
    (statement relation ps).on t = .ok (u, t') ↔ (∀ p ∈ ps, p.fault? = none) ∧ t' = t := by
  rw [← given_ok (u := u), ← lift_ok, lift_on, statement_on]
  rfl

@[simp] theorem ite_ok {c : Prop} [Decidable c] {x y : Transaction α} {a : α} :
    (if c then x else y).on t = .ok (a, t') ↔ c ∧ x.on t = .ok (a, t') ∨ ¬c ∧ y.on t = .ok (a, t') := by
  split <;> rename_i holds <;> simp only [holds, true_and, not_true, not_false_eq_true, false_and,
    or_false, false_or]

end Transaction

attribute [simp] demand_eq_ok refuseIf_eq_ok expect_eq_ok

end ModelCatalog
