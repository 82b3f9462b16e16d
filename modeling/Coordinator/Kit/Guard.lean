import Mathlib.Tactic.Common

/-! Guarded computations: checks that raise a fault, and what their success says. A computation
here is a chain of guards and reads that ends in a value, so each rule peels one link off. -/

namespace Coordinator.Kit

variable {ε α β : Type}

/-- Raise the fault when the condition holds. -/
def raiseIf (bad : Bool) (fault : ε) : Except ε Unit := if bad then .error fault else .ok ()

/-- The value that is there, or the fault. -/
def orRaise (found : Option α) (fault : ε) : Except ε α :=
  match found with
  | some value => .ok value
  | none => .error fault

/-- The value that is not the exceptional one. -/
def allowed (x : Except ε α) : Bool :=
  match x with
  | .ok _ => true
  | .error _ => false

@[simp] theorem raiseIf_eq_ok {bad : Bool} {fault : ε} {u : Unit} : raiseIf bad fault = .ok u ↔ bad = false := by
  cases bad <;> simp [raiseIf]

@[simp] theorem orRaise_eq_ok {found : Option α} {fault : ε} {value : α} :
    orRaise found fault = .ok value ↔ found = some value := by
  cases found <;> simp [orRaise]

@[simp] theorem allowed_ok (value : α) : allowed (.ok value : Except ε α) = true := rfl

theorem allowed_iff {x : Except ε α} : allowed x = true ↔ ∃ value, x = .ok value := by
  cases x <;> simp [allowed]

theorem bind_eq_ok {x : Except ε α} {f : α → Except ε β} {result : β} :
    (x >>= f) = .ok result ↔ ∃ value, x = .ok value ∧ f value = .ok result := by
  cases x with
  | error fault => simp [Bind.bind, Except.bind]
  | ok value => simp [Bind.bind, Except.bind]

theorem bind_eq_error {x : Except ε α} {f : α → Except ε β} {fault : ε} :
    (x >>= f) = .error fault ↔ x = .error fault ∨ ∃ value, x = .ok value ∧ f value = .error fault := by
  cases x with
  | error raised => simp [Bind.bind, Except.bind]
  | ok value => simp [Bind.bind, Except.bind]

theorem raiseIf_eq_error {bad : Bool} {fault raised : ε} : raiseIf bad fault = .error raised ↔ bad = true ∧ fault = raised := by
  cases bad <;> simp [raiseIf]

@[simp] theorem raiseIf_bind_ok {bad : Bool} {fault : ε} {f : Unit → Except ε β} {result : β} :
    (raiseIf bad fault >>= f) = .ok result ↔ bad = false ∧ f () = .ok result := by
  cases bad with
  | true => simp [raiseIf, bind_eq_ok]
  | false =>
    change f () = .ok result ↔ _
    simp

@[simp] theorem orRaise_bind_ok {found : Option α} {fault : ε} {f : α → Except ε β} {result : β} :
    (orRaise found fault >>= f) = .ok result ↔ ∃ value, found = some value ∧ f value = .ok result := by
  simp [bind_eq_ok]

@[simp] theorem pure_eq_ok {value result : α} : (pure value : Except ε α) = .ok result ↔ value = result := by
  simp [pure, Except.pure]

@[simp] theorem throw_eq_ok {fault : ε} {result : α} : (throw fault : Except ε α) = .ok result ↔ False := by
  simp [throw, throwThe, MonadExceptOf.throw]

theorem mapError_eq_ok {ε' : Type} {x : Except ε α} {f : ε → ε'} {value : α} : x.mapError f = .ok value ↔ x = .ok value := by
  cases x <;> simp [Except.mapError]

theorem mapError_bind {ε' : Type} (x : Except ε α) (f : α → Except ε β) (g : ε → ε') :
    (x >>= f).mapError g = x.mapError g >>= fun a => (f a).mapError g := by
  cases x <;> rfl

/-- A guarded computation whose guards all pass computes on. -/
theorem raiseIf_false (fault : ε) (f : Unit → Except ε β) : (raiseIf false fault >>= f) = f () := rfl

/-- One message when the condition holds. -/
def errorIf (bad : Bool) (message : String) : List String := if bad then [message] else []

@[simp] theorem errorIf_eq_nil {bad : Bool} {message : String} : errorIf bad message = [] ↔ bad = false := by
  cases bad <;> simp [errorIf]

/-- What remains of a unit result is that it was reached. -/
theorem exists_unit {p : Unit → Prop} : (∃ u, p u) ↔ p () := ⟨fun ⟨_, holds⟩ => holds, fun holds => ⟨(), holds⟩⟩

theorem ok_bind (value : α) (f : α → Except ε β) : (Except.ok value >>= f) = f value := rfl

/-- A list of checks passes when each of them does. -/
theorem forM_eq_ok {items : List α} {check : α → Except ε Unit} :
    items.forM check = .ok () ↔ ∀ item ∈ items, check item = .ok () := by
  induction items with
  | nil => simp
  | cons item rest ih =>
    rw [List.forall_mem_cons, ← ih]
    change (check item >>= fun _ => rest.forM check) = .ok () ↔ _
    rw [bind_eq_ok]
    exact exists_unit

/-- A list of readings succeeds when each of them does. -/
theorem mapM_ok {read : α → Except ε β} {result : α → β} {values : List α}
    (reads : ∀ value ∈ values, read value = .ok (result value)) : values.mapM read = .ok (values.map result) := by
  induction values with
  | nil => rfl
  | cons value rest ih =>
    rw [List.forall_mem_cons] at reads
    rw [List.mapM_cons, reads.1, ih reads.2]
    rfl

/-- What has been made of a list of values is read back when each value is. -/
theorem mapM_eq_ok {read : β → Except ε α} {make : α → β} {values : List α}
    (reads : ∀ value ∈ values, read (make value) = .ok value) : (values.map make).mapM read = .ok values := by
  have read_ : values.mapM (read ∘ make) = .ok (values.map id) := mapM_ok reads
  rw [List.mapM_map, read_, List.map_id]

/-- An answer that is always given comes from the computation. -/
theorem map_some_eq_ok {σ : Type} {x : Except ε (σ × α)} {after : σ} {answer : Option α}
    (mapped : x.map (Prod.map id some) = .ok (after, answer)) : ∃ value, x = .ok (after, value) ∧ answer = some value := by
  cases x with
  | error fault => cases mapped
  | ok result =>
    obtain ⟨state, value⟩ := result
    cases mapped
    exact ⟨value, rfl, rfl⟩

/-- Every value that the computation returns satisfies the postcondition. -/
def Ensures (post : α → Prop) (x : Except ε α) : Prop := ∀ value, x = .ok value → post value

namespace Ensures

variable {post other : α → Prop}

theorem pure {value : α} (holds : post value) : Ensures post (Pure.pure value : Except ε α) := by
  intro result returned
  rw [pure_eq_ok] at returned
  exact returned ▸ holds

theorem throw (fault : ε) : Ensures post (MonadExcept.throw fault : Except ε α) := by
  intro result returned
  exact (throw_eq_ok.mp returned).elim

/-- The rest of a computation is judged for each value that its first part returns. -/
theorem bind {x : Except ε β} {f : β → Except ε α} (rest : ∀ value, x = .ok value → Ensures post (f value)) :
    Ensures post (x >>= f) := by
  intro result returned
  obtain ⟨value, first, second⟩ := bind_eq_ok.mp returned
  exact rest value first result second

theorem guard {bad : Bool} {fault : ε} {f : Unit → Except ε α} (rest : bad = false → Ensures post (f ())) :
    Ensures post (raiseIf bad fault >>= f) := by
  refine bind fun u passed => ?_
  cases u
  exact rest (raiseIf_eq_ok.mp passed)

theorem ite {condition : Prop} [Decidable condition] {x y : Except ε α} (left : condition → Ensures post x)
    (right : ¬condition → Ensures post y) : Ensures post (if condition then x else y) := by
  by_cases holds : condition
  · rw [if_pos holds]
    exact left holds
  · rw [if_neg holds]
    exact right holds

end Ensures

end Coordinator.Kit
