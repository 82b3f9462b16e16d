import Coordinator.Kit.Guard

/-! Computations over a state whose operations may fail. What a computation has done stays done when it fails, so a
rule about it speaks about the state at its end whatever the outcome is. -/

namespace Coordinator.Kit

def Attempt (σ ε α : Type) : Type := σ → Except ε α × σ

namespace Attempt

variable {σ ε α β : Type}

def bind (first : Attempt σ ε α) (rest : α → Attempt σ ε β) : Attempt σ ε β := fun state =>
  match first state with
  | (.ok value, after) => rest value after
  | (.error fault, after) => (.error fault, after)

instance : Monad (Attempt σ ε) where
  pure value := fun state => (.ok value, state)
  bind := bind

/-- What the state shows. -/
def look (f : σ → α) : Attempt σ ε α := fun state => (.ok (f state), state)

/-- An operation that always answers. -/
def ask (f : σ → α × σ) : Attempt σ ε α := fun state => (.ok (f state).1, (f state).2)

def lift (x : Except ε α) : Attempt σ ε α := fun state => (x, state)

def fail (fault : ε) : Attempt σ ε α := lift (.error fault)

/-- An operation that changes the state, unless a fault keeps it from doing so. -/
def act (fault : Option ε) (change : σ → σ) : Attempt σ ε Unit := fun state =>
  match fault with
  | none => (.ok (), change state)
  | some raised => (.error raised, state)

def when (condition : Bool) (program : Attempt σ ε Unit) : Attempt σ ε Unit := if condition then program else pure ()

/-- Run a computation to its outcome, which the caller handles. -/
def attempt {ε' : Type} (program : Attempt σ ε α) : Attempt σ ε' (Except ε α) := fun state =>
  (.ok (program state).1, (program state).2)

/-- Handle the fault of a computation in the state that it has left. -/
def handle (program : Attempt σ ε α) (handler : ε → Attempt σ ε α) : Attempt σ ε α := do
  match ← attempt program with
  | .ok value => pure value
  | .error fault => handler fault

/-- A computation and what follows it in any case. A fault of the latter hides that of the former. -/
def ensuring (program : Attempt σ ε α) (cleanup : Attempt σ ε Unit) : Attempt σ ε α := do
  let outcome ← attempt program
  cleanup
  lift outcome

/-- The outcome of a computation and the state that it leaves satisfy a postcondition. -/
def Ends (before : σ) (program : Attempt σ ε α) (post : Except ε α → σ → Prop) : Prop :=
  post (program before).1 (program before).2

namespace Ends

variable {before : σ} {post : Except ε α → σ → Prop}

theorem mono {other : Except ε α → σ → Prop} {program : Attempt σ ε α} (ends : Ends before program post)
    (weaker : ∀ outcome after, post outcome after → other outcome after) : Ends before program other :=
  weaker _ _ ends

theorem pure {value : α} (holds : post (.ok value) before) : Ends before (Pure.pure value) post := holds

theorem fail {fault : ε} (holds : post (.error fault) before) : Ends before (Attempt.fail fault) post := holds

theorem lift {x : Except ε α} (holds : post x before) : Ends before (Attempt.lift x) post := holds

/-- The first part ends in a state from which the rest is judged. -/
theorem bind {first : Attempt σ ε β} {rest : β → Attempt σ ε α} (mid : Except ε β → σ → Prop) (ends : Ends before first mid)
    (failed : ∀ fault after, mid (.error fault) after → post (.error fault) after)
    (continued : ∀ value after, mid (.ok value) after → Ends after (rest value) post) :
    Ends before (first >>= rest) post := by
  change post (Attempt.bind first rest before).1 (Attempt.bind first rest before).2
  unfold Ends at ends
  unfold Attempt.bind
  cases ran : first before with
  | mk outcome after =>
    rw [ran] at ends
    cases outcome with
    | error fault => exact failed fault after ends
    | ok value => exact continued value after ends

theorem look_bind {f : σ → β} {rest : β → Attempt σ ε α} (continued : Ends before (rest (f before)) post) :
    Ends before (look f >>= rest) post := continued

theorem ask_bind {f : σ → β × σ} {rest : β → Attempt σ ε α} (continued : Ends (f before).2 (rest (f before).1) post) :
    Ends before (ask f >>= rest) post := continued

theorem act {fault : Option ε} {change : σ → σ} {post : Except ε Unit → σ → Prop}
    (failed : ∀ raised, fault = some raised → post (.error raised) before) (done : fault = none → post (.ok ()) (change before)) :
    Ends before (act fault change) post := by
  cases fault with
  | none => exact done rfl
  | some raised => exact failed raised rfl

theorem act_bind {fault : Option ε} {change : σ → σ} {rest : Unit → Attempt σ ε α}
    (failed : ∀ raised, fault = some raised → post (.error raised) before)
    (continued : fault = none → Ends (change before) (rest ()) post) : Ends before (Attempt.act fault change >>= rest) post := by
  cases fault with
  | none => exact continued rfl
  | some raised => exact failed raised rfl

theorem attempt_bind {ε' : Type} {program : Attempt σ ε' β} {rest : Except ε' β → Attempt σ ε α} (mid : Except ε' β → σ → Prop)
    (ends : Ends before program mid) (continued : ∀ outcome after, mid outcome after → Ends after (rest outcome) post) :
    Ends before (attempt program >>= rest) post := continued _ _ ends

theorem handle {program : Attempt σ ε α} {handler : ε → Attempt σ ε α} (mid : Except ε α → σ → Prop)
    (ends : Ends before program mid) (passed : ∀ value after, mid (.ok value) after → post (.ok value) after)
    (handled : ∀ fault after, mid (.error fault) after → Ends after (handler fault) post) :
    Ends before (handle program handler) post := by
  refine attempt_bind mid ends fun outcome after holds => ?_
  cases outcome with
  | ok value => exact passed value after holds
  | error fault => exact handled fault after holds

theorem ensuring {program : Attempt σ ε α} {cleanup : Attempt σ ε Unit} (mid : Except ε α → σ → Prop)
    (ends : Ends before program mid)
    (cleaned : ∀ outcome after, mid outcome after → Ends after cleanup fun cleaned last =>
      post (match cleaned with | .ok _ => outcome | .error fault => .error fault) last) :
    Ends before (ensuring program cleanup) post := by
  refine attempt_bind mid ends fun outcome after holds => ?_
  refine bind _ (cleaned outcome after holds) (fun fault last holds => holds) fun _ last holds => ?_
  exact lift holds

theorem ite {condition : Prop} [Decidable condition] {left right : Attempt σ ε α}
    (holds : condition → Ends before left post) (fails : ¬condition → Ends before right post) :
    Ends before (if condition then left else right) post := by
  by_cases known : condition
  · rw [if_pos known]
    exact holds known
  · rw [if_neg known]
    exact fails known

end Ends

/-- A computation that keeps an invariant whatever its outcome is, and raises only faults of one kind. -/
def Keeps (Kind : ε → Prop) (Invariant : σ → Prop) (program : Attempt σ ε α) : Prop :=
  ∀ before, Invariant before → Ends before program fun outcome after =>
    (∀ fault, outcome = .error fault → Kind fault) ∧ Invariant after

namespace Keeps

variable {Kind : ε → Prop} {Invariant : σ → Prop}

theorem pure (value : α) : Keeps Kind Invariant (Pure.pure value : Attempt σ ε α) := fun _ holds =>
  Ends.pure ⟨fun _ failed => (by cases failed), holds⟩

theorem lift {x : Except ε α} (kind : ∀ fault, x = .error fault → Kind fault) : Keeps Kind Invariant (lift x : Attempt σ ε α) :=
  fun _ holds => Ends.lift ⟨kind, holds⟩

theorem fail {fault : ε} (kind : Kind fault) : Keeps Kind Invariant (fail fault : Attempt σ ε α) :=
  lift fun _ failed => Except.error.inj failed ▸ kind

theorem look (f : σ → α) : Keeps Kind Invariant (look f : Attempt σ ε α) := fun _ holds =>
  ⟨fun _ failed => (by cases failed), holds⟩

theorem act {fault : Option ε} {change : σ → σ} (kind : ∀ raised, fault = some raised → Kind raised)
    (kept : ∀ state, Invariant state → Invariant (change state)) : Keeps Kind Invariant (act fault change) := fun before holds =>
  Ends.act (fun raised same => ⟨fun _ failed => Except.error.inj failed ▸ kind raised same, holds⟩)
    fun _ => ⟨fun _ failed => (by cases failed), kept before holds⟩

theorem bind {first : Attempt σ ε β} {rest : β → Attempt σ ε α} (keeps : Keeps Kind Invariant first)
    (continued : ∀ value, Keeps Kind Invariant (rest value)) : Keeps Kind Invariant (first >>= rest) := fun before holds =>
  Ends.bind _ (keeps before holds) (fun fault _ ends => ⟨fun _ failed => Except.error.inj failed ▸ ends.1 fault rfl, ends.2⟩)
    fun value after ends => continued value after ends.2

theorem handle {program : Attempt σ ε α} {handler : ε → Attempt σ ε α} (keeps : Keeps Kind Invariant program)
    (handled : ∀ fault, Kind fault → Keeps Kind Invariant (handler fault)) : Keeps Kind Invariant (handle program handler) :=
  fun before holds => Ends.handle _ (keeps before holds) (fun _ _ ends => ⟨fun _ failed => (by cases failed), ends.2⟩)
    fun fault after ends => handled fault (ends.1 fault rfl) after ends.2

theorem attempt_bind {ε' : Type} {Other : ε' → Prop} {program : Attempt σ ε' β} {rest : Except ε' β → Attempt σ ε α}
    (keeps : Keeps Other Invariant program)
    (continued : ∀ outcome, (∀ fault, outcome = .error fault → Other fault) → Keeps Kind Invariant (rest outcome)) :
    Keeps Kind Invariant (attempt program >>= rest) := fun before holds =>
  Ends.attempt_bind _ (keeps before holds) fun outcome after ends => continued outcome ends.1 after ends.2

theorem ite {condition : Prop} [Decidable condition] {left right : Attempt σ ε α} (holds : Keeps Kind Invariant left)
    (fails : Keeps Kind Invariant right) : Keeps Kind Invariant (if condition then left else right) := fun before start =>
  Ends.ite (fun _ => holds before start) fun _ => fails before start

theorem when {condition : Bool} {program : Attempt σ ε Unit} (holds : condition = true → Keeps Kind Invariant program) :
    Keeps Kind Invariant (when condition program) := by
  cases condition with
  | true => exact holds rfl
  | false => exact pure ()

end Keeps

/-- A computation succeeds with a value and leaves a state. -/
def Returns (before : σ) (program : Attempt σ ε α) (value : α) (after : σ) : Prop := program before = (.ok value, after)

section returns

variable {before after : σ} {value : α}

@[simp] theorem returns_pure {given : α} : Returns before (Pure.pure given : Attempt σ ε α) value after ↔
    given = value ∧ before = after := by
  change ((.ok given, before) : Except ε α × σ) = _ ↔ _
  simp

@[simp] theorem returns_lift {x : Except ε α} : Returns before (lift x) value after ↔ x = .ok value ∧ before = after := by
  change (x, before) = _ ↔ _
  simp

@[simp] theorem returns_fail {fault : ε} : ¬Returns before (fail fault) value after := by
  simp [fail]

@[simp] theorem returns_act {fault : Option ε} {change : σ → σ} {value : Unit} : Returns before (act fault change) value after ↔
    fault = none ∧ change before = after := by
  unfold Returns act
  cases fault <;> simp

theorem returns_bind {first : Attempt σ ε β} {rest : β → Attempt σ ε α} : Returns before (first >>= rest) value after ↔
    ∃ given mid, Returns before first given mid ∧ Returns mid (rest given) value after := by
  change Attempt.bind first rest before = _ ↔ _
  unfold Returns Attempt.bind
  cases ran : first before with
  | mk outcome mid =>
    cases outcome with
    | error fault => simp
    | ok given =>
      constructor
      · exact fun rest => ⟨given, mid, rfl, rest⟩
      · rintro ⟨given, mid, same, rest⟩
        cases same
        exact rest

@[simp] theorem returns_look {f : σ → α} : Returns before (look f : Attempt σ ε α) value after ↔ f before = value ∧ before = after := by
  unfold Returns look
  simp

@[simp] theorem returns_lift_bind {x : Except ε β} {rest : β → Attempt σ ε α} :
    Returns before (lift x >>= rest) value after ↔ ∃ given, x = .ok given ∧ Returns before (rest given) value after := by
  simp [returns_bind]

@[simp] theorem returns_act_bind {fault : Option ε} {change : σ → σ} {rest : Unit → Attempt σ ε α} :
    Returns before (act fault change >>= rest) value after ↔ fault = none ∧ Returns (change before) (rest ()) value after := by
  simp [returns_bind, exists_unit]

@[simp] theorem returns_look_bind {f : σ → β} {rest : β → Attempt σ ε α} :
    Returns before (look f >>= rest) value after ↔ Returns before (rest (f before)) value after := by
  simp [returns_bind]

@[simp] theorem returns_ask_bind {f : σ → β × σ} {rest : β → Attempt σ ε α} :
    Returns before (ask f >>= rest) value after ↔ Returns (f before).2 (rest (f before).1) value after := Iff.rfl

/-- A computation whose handler only raises returns where it needs no handler. -/
theorem returns_handle {program : Attempt σ ε α} {handler : ε → Attempt σ ε α}
    (raises : ∀ fault mid, ¬Returns mid (handler fault) value after) :
    Returns before (handle program handler) value after ↔ Returns before program value after := by
  unfold Returns handle
  change Attempt.bind (attempt program) _ before = _ ↔ _
  unfold Attempt.bind attempt
  cases ran : program before with
  | mk outcome mid =>
    cases outcome with
    | ok given => exact Iff.rfl
    | error fault => exact iff_of_false (raises fault mid) (by simp)

theorem Keeps.of_error {Kind : ε → Prop} {Invariant : σ → Prop} {program : Attempt σ ε α} {fault : ε}
    (keeps : Keeps Kind Invariant program) (holds : Invariant before) (failed : program before = (.error fault, after)) :
    Kind fault ∧ Invariant after := by
  have ends := keeps before holds
  unfold Ends at ends
  rw [failed] at ends
  exact ⟨ends.1 fault rfl, ends.2⟩

theorem Keeps.of_returns {Kind : ε → Prop} {Invariant : σ → Prop} {program : Attempt σ ε α}
    (keeps : Keeps Kind Invariant program) (holds : Invariant before) (returned : Returns before program value after) :
    Invariant after := by
  have ends := keeps before holds
  unfold Ends at ends
  unfold Returns at returned
  rw [returned] at ends
  exact ends.2

/-- Judge a computation by the run of its first part. -/
theorem Ends.bind_run {post : Except ε β → σ → Prop} {first : Attempt σ ε α} {rest : α → Attempt σ ε β}
    (failed : ∀ fault mid, first before = (.error fault, mid) → post (.error fault) mid)
    (continued : ∀ given mid, Returns before first given mid → Ends mid (rest given) post) : Ends before (first >>= rest) post :=
  Ends.bind (fun outcome mid => first before = (outcome, mid)) rfl failed continued

theorem bind_of_returns {first : Attempt σ ε α} {rest : α → Attempt σ ε β} (returned : Returns before first value after) :
    (first >>= rest) before = rest value after := by
  change Attempt.bind first rest before = _
  unfold Returns at returned
  rw [Attempt.bind, returned]

end returns

/-- A computation that leaves the state alone. -/
def Reads (program : Attempt σ ε α) : Prop := ∀ before, (program before).2 = before

/-- A computation that always succeeds. -/
def Succeeds (program : Attempt σ ε α) : Prop := ∀ before fault, (program before).1 ≠ .error fault

/-- A computation whose failure leaves the state as it was. -/
def Clean (program : Attempt σ ε α) : Prop := ∀ before fault, (program before).1 = .error fault → (program before).2 = before

section clean

theorem bind_run {first : Attempt σ ε α} {rest : α → Attempt σ ε β} {before : σ} :
    (first >>= rest) before = match (first before).1 with
      | .ok value => rest value (first before).2
      | .error fault => (.error fault, (first before).2) := by
  change Attempt.bind first rest before = _
  rw [Attempt.bind]
  cases first before with
  | mk outcome after => cases outcome <;> rfl

theorem Reads.lift (x : Except ε α) : Reads (lift x : Attempt σ ε α) := fun _ => rfl

theorem Reads.look (f : σ → α) : Reads (look f : Attempt σ ε α) := fun _ => rfl

theorem Reads.bind {first : Attempt σ ε α} {rest : α → Attempt σ ε β} (reads : Reads first) (continued : ∀ value, Reads (rest value)) :
    Reads (first >>= rest) := by
  intro before
  rw [bind_run]
  cases (first before).1 with
  | error fault => exact reads before
  | ok value => exact (continued value _).trans (reads before)

theorem Reads.clean {program : Attempt σ ε α} (reads : Reads program) : Clean program := fun before _ _ => reads before

theorem Succeeds.act (change : σ → σ) : Succeeds (act none change : Attempt σ ε Unit) := by
  intro before fault failed
  cases failed

theorem Succeeds.bind {first : Attempt σ ε α} {rest : α → Attempt σ ε β} (done : Succeeds first)
    (continued : ∀ value, Succeeds (rest value)) : Succeeds (first >>= rest) := by
  intro before fault
  rw [bind_run]
  cases ran : (first before).1 with
  | error raised => exact absurd ran (done before raised)
  | ok value => exact continued value _ fault

theorem Succeeds.clean {program : Attempt σ ε α} (done : Succeeds program) : Clean program :=
  fun before fault failed => absurd failed (done before fault)

/-- Reading first does no harm. -/
theorem Clean.after_reads {first : Attempt σ ε α} {rest : α → Attempt σ ε β} (reads : Reads first)
    (clean : ∀ value, Clean (rest value)) : Clean (first >>= rest) := by
  intro before fault
  rw [bind_run, reads before]
  cases (first before).1 with
  | error raised => exact fun _ => rfl
  | ok value => exact clean value before fault

/-- What always succeeds does no harm behind. -/
theorem Clean.before_success {first : Attempt σ ε α} {rest : α → Attempt σ ε β} (clean : Clean first)
    (done : ∀ value, Succeeds (rest value)) : Clean (first >>= rest) := by
  intro before fault
  rw [bind_run]
  cases ran : (first before).1 with
  | error raised => exact fun _ => clean before raised ran
  | ok value => exact fun failed => absurd failed (done value _ fault)

end clean

section runs

variable {before start : σ}

theorem handle_congr {program other : Attempt σ ε α} {handler : ε → Attempt σ ε α} (same : program before = other start) :
    handle program handler before = handle other handler start := by
  unfold handle
  change Attempt.bind (attempt program) _ before = Attempt.bind (attempt other) _ start
  rw [Attempt.bind, Attempt.bind, attempt, attempt, same]

theorem ensuring_congr {program other : Attempt σ ε α} {cleanup : Attempt σ ε Unit} (same : program before = other start) :
    ensuring program cleanup before = ensuring other cleanup start := by
  unfold ensuring
  change Attempt.bind (attempt program) _ before = Attempt.bind (attempt other) _ start
  rw [Attempt.bind, Attempt.bind, attempt, attempt, same]

/-- What is ensured runs in the state that the computation has left; its fault hides that of the computation. -/
theorem ensuring_run {program : Attempt σ ε α} {cleanup : Attempt σ ε Unit} {outcome : Except ε α} {after : σ}
    (ran : program before = (outcome, after)) : ensuring program cleanup before =
      ((match (cleanup after).1 with | .ok _ => outcome | .error fault => .error fault), (cleanup after).2) := by
  unfold ensuring
  change Attempt.bind (attempt program) _ before = _
  rw [Attempt.bind, attempt, ran]
  change Attempt.bind cleanup _ after = _
  rw [Attempt.bind]
  cases ended : cleanup after with
  | mk cleaned last =>
    cases cleaned with
    | ok u => rfl
    | error fault => rfl

end runs

end Attempt

end Coordinator.Kit
