import Coordinator.RetryScripts

/-! What resolving a launch slot may touch: the slot goes, a failure adds one attempt, and everything
else the circuit records stays. A success that leaves no attempts drops the whole circuit, and a
failure that fills its window takes the one place for a hold; here is exactly when nothing is lost. -/

namespace Coordinator.RetryCircuit
open Kit Dict Transitions

def slotsOf (task : Meta) : List Json := ((circuit task).get "reservations").items
def attemptsOf (task : Meta) : List Json := ((circuit task).get "attempts").items
def abandonedOf (task : Meta) : List Json := ((circuit task).get "abandoned").items
def recoveriesOf (task : Meta) : List Json := ((circuit task).get "recoveries").items
def holdOf (task : Meta) : Json := (circuit task).get "hold"

def windowSize (slot : Json) : Int := (slot.get "window").int?.getD 0

/-- The attempt that a failed launch becomes. -/
def attemptOf (task : Meta) (slot : Json) (identity failure at_ : String) : Json := .obj
  [("identity", .str identity), ("failure", .str failure), ("progress_digest", .str (progressDigest task)),
    ("task_revision", .int (Meta.revision task)), ("recorded_at", .str at_), ("window", .int (windowSize slot))]

/-- The hold is about another command. -/
def holdsOther (task : Meta) (identity : String) : Prop :=
  (holdOf task).isNull = false ∧ (holdOf task).get "identity" ≠ .str identity

/-- One slot is gone, a failure has added one attempt to the bounded list, and the rest stands. -/
structure Framed (task : Meta) (slot : Json) (identity at_ : String) (failure : Option String) (after : Meta) : Prop where
  slots : ∃ before behind, slotsOf task = before ++ slot :: behind ∧ slotsOf after = before ++ behind
  attempts : attemptsOf after = match failure with
    | none => attemptsOf task
    | some failure => AutonomyLimits.lastOf maxAttempts (attemptsOf task ++ [attemptOf task slot identity failure at_])
  abandoned : abandonedOf after = abandonedOf task
  recoveries : recoveriesOf after = recoveriesOf task
  hold : holdsOther task identity → holdOf after = holdOf task
  elsewhere : Within ["retry_circuit"] task after

/-- A success leaves attempts behind, or had nothing but its slot to drop; a failure does not fill its
window while another command is held. -/
def Sparing (task : Meta) (slot : Json) (identity : String) (failure : Option String) : Prop :=
  match failure with
  | none => attemptsOf task ≠ [] ∨ (slotsOf task = [slot] ∧ abandonedOf task = [] ∧ recoveriesOf task = [])
  | some _ => holdsOther task identity →
      ((activeAttempts (circuit task).fields identity (progressDigest task)).length : Int) + 1 < windowSize slot

section shape

variable {value : Json}

/-- What validation has established of a circuit. -/
structure Validated (value : Json) : Prop where
  exactly : value.hasExactly
    ["schema_version", "attempts", "recoveries", "hold", "reservations", "abandoned"] = true
  version : (value.get "schema_version" == .int 1) = true
  attemptCount : boundedList (value.get "attempts") maxAttempts = true
  recoveryCount : boundedList (value.get "recoveries") maxRecoveries = true
  slotCount : boundedList (value.get "reservations") maxWindow.toNat = true
  abandonedCount : boundedList (value.get "abandoned") maxAbandoned = true
  nonempty : ((value.get "attempts").items.isEmpty && (value.get "reservations").items.isEmpty &&
    (value.get "abandoned").items.isEmpty) = false
  attempts : validateSeries validateAttempt (value.get "attempts").items 0 = .ok ()
  recoveries : validateSeries validateRecovery (value.get "recoveries").items 0 = .ok ()
  hold : validateHold (value.get "hold") value.fields = .ok ()
  slots : ∀ slot ∈ (value.get "reservations").items, validateReservation slot = .ok ()
  apart : distinct ((value.get "reservations").items.map (·.get "id")) = true
  abandoned : ∀ slot ∈ (value.get "abandoned").items, validateAbandoned slot = .ok ()

theorem validate_eq_ok : validate value = .ok () ↔ Validated value := by
  simp only [validate, valueError, bind_eq_ok, exists_unit, raiseIf_eq_ok, forM_eq_ok, bne, Bool.not_eq_false']
  constructor
  · rintro ⟨exactly, version, attempts, recoveries, slots, abandoned, some, first, second, hold, each, apart, last⟩
    exact ⟨exactly, version, attempts, recoveries, slots, abandoned, some, first, second, hold, each, apart, last⟩
  · intro valid
    exact ⟨valid.exactly, valid.version, valid.attemptCount, valid.recoveryCount, valid.slotCount, valid.abandonedCount,
      valid.nonempty, valid.attempts, valid.recoveries, valid.hold, valid.slots, valid.apart, valid.abandoned⟩

theorem Validated.isObj (valid : Validated value) : value.isObj = true := by
  have exactly := valid.exactly
  simp only [Json.hasExactly, Bool.and_eq_true] at exactly
  exact exactly.1.1

theorem windowOf_bounds {size : Int} (sized : windowOf value = .ok size) : defaultWindow ≤ size ∧ size ≤ maxWindow := by
  unfold windowOf at sized
  split at sized
  · split at sized
    · next within =>
      cases sized
      exact within
    · cases sized
  · cases sized

/-- A circuit without attempts holds no series. -/
theorem Validated.unheld (valid : Validated value) (none : (value.get "attempts").items = []) :
    (value.get "hold").isNull = true := by
  by_contra held
  have checked := valid.hold
  rw [validateHold, if_neg held] at checked
  simp only [valueError, bind_eq_ok, exists_unit, raiseIf_eq_ok, decide_eq_false_iff_not, not_lt] at checked
  obtain ⟨-, -, window, sized, -, supported⟩ := checked
  have few : (activeAttempts value.fields ((value.get "hold").get "identity").toText
      ((value.get "hold").get "progress_digest").toText) = [] := by
    rw [activeAttempts, ← Json.get, none]
    rfl
  rw [few] at supported
  have least := (windowOf_bounds sized).1
  simp only [List.length_nil, defaultWindow] at supported least
  omega

end shape

/-! The slot among the others -/

section slot

variable {items : List Json} {slot : Json} {id : String}

/-- The other slots have other identifiers, so the named one is found and only it is taken out. -/
theorem slot_split (apart : distinct (items.map (·.get "id")) = true) (member : slot ∈ items)
    (named : slot.get "id" = .str id) : ∃ before behind, items = before ++ slot :: behind ∧
      items.find? (fun item => item.get "id" == .str id) = some slot ∧
      items.filter (fun item => item.get "id" != .str id) = before ++ behind := by
  have own : (slot.get "id" == .str id) = true := (Json.beq_str _ _).mpr named
  induction items with
  | nil => cases member
  | cons first rest ih =>
    rw [List.map_cons, distinct, Bool.and_eq_true, Bool.not_eq_true', List.any_eq_false] at apart
    obtain ⟨new, later⟩ := apart
    rcases List.mem_cons.mp member with rfl | inside
    · have others : rest.filter (fun item => item.get "id" != .str id) = rest := by
        refine List.filter_eq_self.mpr fun item listed => ?_
        rw [bne, Bool.not_eq_true']
        refine Bool.eq_false_iff.mpr fun same => new _ (List.mem_map_of_mem listed) ?_
        rw [named, Json.str_beq]
        exact (Json.beq_str _ _).mp same
      refine ⟨[], rest, rfl, ?_, ?_⟩
      · rw [List.find?_cons, own]
      · rw [List.filter_cons, bne, own, others]
        rfl
    · obtain ⟨before, behind, split, found, kept⟩ := ih later inside
      have other : (first.get "id" == .str id) = false := by
        refine Bool.eq_false_iff.mpr fun same => new _ (List.mem_map_of_mem inside) ?_
        rw [named, (Json.beq_str _ _).mp same]
        exact (Json.str_beq _ _).mpr rfl
      refine ⟨first :: before, behind, by rw [split]; rfl, ?_, ?_⟩
      · rw [List.find?_cons, other]
        exact found
      · rw [List.filter_cons, bne, other, kept]
        rfl

theorem distinct_filter {p : Json → Bool} (apart : distinct (items.map (·.get "id")) = true) :
    distinct ((items.filter p).map (·.get "id")) = true := by
  induction items with
  | nil => rfl
  | cons first rest ih =>
    rw [List.map_cons, distinct, Bool.and_eq_true, Bool.not_eq_true', List.any_eq_false] at apart
    obtain ⟨new, later⟩ := apart
    rw [List.filter_cons]
    split
    · rw [List.map_cons, distinct, ih later, Bool.and_true, Bool.not_eq_true', List.any_eq_false]
      intro value listed
      obtain ⟨item, inside, rfl⟩ := List.mem_map.mp listed
      exact new _ (List.mem_map_of_mem (List.mem_of_mem_filter inside))
    · exact ih later

end slot

/-! What an accepted resolution writes -/

section results

variable {task after : Meta} {slot : Json} {identity id at_ note : String}

/-- The circuit without the named slot. -/
def released (task : Meta) (id : String) : Dict :=
  (circuit task).fields.set "reservations" (.arr ((slotsOf task).filter (fun item => item.get "id" != .str id)))

theorem circuit_set (task : Meta) (value : Json) : circuit (task.set "retry_circuit" value) = value := by simp [circuit]

theorem circuit_pop (task : Meta) : circuit (task.pop "retry_circuit") = .null := by simp [circuit]

theorem state_eq_ok {fields current : Dict} (stored : circuit task = .obj fields) (read : state task = .ok current) :
    current = fields := by
  have present : ¬(Json.obj fields).isNull = true := Bool.false_ne_true
  rw [state, stored, if_neg present] at read
  split at read
  · exact (pure_eq_ok.mp read).symm
  · obtain ⟨_, -, read⟩ := bind_eq_ok.mp read
    exact (pure_eq_ok.mp read).symm

theorem state_valid (valid : Validated (circuit task)) : state task = .ok (circuit task).fields := by
  have present : (circuit task).isNull = false := by
    obtain ⟨fields, known⟩ := Json.isObj_iff.mp valid.isObj
    rw [known]
    rfl
  rw [state, present, if_neg Bool.false_ne_true, validate_eq_ok.mpr valid]
  exact ite_self _

theorem selectedSlot_live (valid : Validated (circuit task)) (live : slot ∈ slotsOf task) (named : slot.get "id" = .str id)
    (owned : slot.get "identity" = .str identity) : selectedSlot (circuit task).fields identity id = .ok slot := by
  obtain ⟨-, -, -, found, -⟩ := slot_split valid.apart live named
  have mine : (slot.get "identity" != .str identity) = false := by
    rw [bne, Bool.not_eq_false', Json.beq_str]
    exact owned
  have located : ((circuit task).fields.get "reservations").items.find? (fun item => item.get "id" == .str id) = some slot := found
  rw [selectedSlot, located, orRaise, ok_bind, mine]
  rfl

theorem activeAttempts_released (task : Meta) (id identity progress : String) :
    activeAttempts (released task id) identity progress = activeAttempts (circuit task).fields identity progress := by
  have attempts : (released task id).get "attempts" = (circuit task).fields.get "attempts" := by
    rw [released, get_set, if_neg (by decide)]
  have recoveries : (released task id).get "recoveries" = (circuit task).fields.get "recoveries" := by
    rw [released, get_set, if_neg (by decide)]
  have recovered : recoveredRevision (released task id) identity progress =
      recoveredRevision (circuit task).fields identity progress := by
    rw [recoveredRevision, recoveries, recoveredRevision]
  rw [activeAttempts, recovered, attempts, activeAttempts]

/-- Without the slot, a circuit with attempts is still valid. -/
theorem released_valid (valid : Validated (circuit task)) (some : attemptsOf task ≠ []) (id : String) :
    Validated (.obj (released task id)) := by
  obtain ⟨fields, known⟩ := Json.isObj_iff.mp valid.isObj
  have same {name : String} (other : name ≠ "reservations") : (Json.obj (released task id)).get name = (circuit task).get name := by
    rw [Json.get_obj, released, get_set, if_neg other]
    rfl
  have left : ((Json.obj (released task id)).get "reservations").items =
      (slotsOf task).filter (fun item => item.get "id" != .str id) := by
    rw [Json.get_obj, released, get_set, if_pos rfl]
    rfl
  refine ⟨?_, ?_, ?_, ?_, ?_, ?_, ?_, ?_, ?_, ?_, ?_, ?_, ?_⟩
  · rw [released]
    refine Json.hasExactly_set ?_ (by decide) _
    have exactly := valid.exactly
    rw [known] at exactly ⊢
    exact exactly
  · rw [same (by decide)]
    exact valid.version
  · rw [same (by decide)]
    exact valid.attemptCount
  · rw [same (by decide)]
    exact valid.recoveryCount
  · have count := valid.slotCount
    simp only [boundedList, Bool.and_eq_true, decide_eq_true_eq, left] at count ⊢
    refine ⟨by rw [Json.get_obj, released, get_set, if_pos rfl]; rfl, ?_⟩
    exact (List.length_filter_le _ _).trans count.2
  · rw [same (by decide)]
    exact valid.abandonedCount
  · rw [same (by decide), Bool.and_assoc, Bool.and_eq_false_iff]
    exact .inl (List.isEmpty_eq_false_iff.mpr some)
  · rw [same (by decide)]
    exact valid.attempts
  · rw [same (by decide)]
    exact valid.recoveries
  · have supported := valid.hold
    rw [same (by decide)]
    simp only [validateHold, Json.fields] at supported ⊢
    simp only [activeAttempts_released]
    exact supported
  · rw [left]
    exact fun other member => valid.slots other (List.mem_of_mem_filter member)
  · rw [left]
    exact distinct_filter valid.apart
  · rw [same (by decide)]
    exact valid.abandoned

/-- A success gives the slot back, and the whole circuit where no attempts are left. -/
theorem resolve_success (valid : Validated (circuit task)) (live : slot ∈ slotsOf task) (named : slot.get "id" = .str id)
    (owned : slot.get "identity" = .str identity) (at_ : String) : resolve task identity id none at_ =
      .ok (if (attemptsOf task).isEmpty then (task.set "retry_circuit" (.obj (released task id))).pop "retry_circuit"
        else task.set "retry_circuit" (.obj (released task id)), "Released retry circuit launch slot.") := by
  have attempts : ((released task id).get "attempts").items = attemptsOf task := by
    rw [released, get_set, if_neg (by decide)]
    rfl
  rw [resolve, state_valid valid, ok_bind, selectedSlot_live valid live named owned, ok_bind]
  change (if ((released task id).get "attempts").items.isEmpty then _ else _) = _
  rw [attempts]
  by_cases bare : (attemptsOf task).isEmpty = true
  · rw [if_pos bare, if_pos bare]
    rfl
  · rw [if_neg bare, if_neg bare]
    have some : attemptsOf task ≠ [] := fun none => bare (by rw [none]; rfl)
    have fine := validate_eq_ok.mpr (released_valid valid some id)
    change (validate (.obj (released task id)) >>= fun _ => _) = _
    rw [fine, ok_bind]
    rfl

/-- The hold that a failure opens. -/
def openedHold (task : Meta) (slot : Json) (identity at_ : String) : Json := .obj
  [("identity", .str identity), ("attempts", .int (windowSize slot)), ("progress_digest", .str (progressDigest task)),
    ("held_at", .str at_), ("window", .int (windowSize slot))]

/-- The failure fills the window of its series. -/
def fills (task : Meta) (slot : Json) (identity : String) : Prop :=
  windowSize slot ≤ ((activeAttempts (circuit task).fields identity (progressDigest task)).length : Int) + 1

instance : Decidable (fills task slot identity) := inferInstanceAs (Decidable (_ ≤ _))

/-- The circuit that a failed launch leaves. -/
def recorded (task : Meta) (slot : Json) (identity id failure at_ : String) : Dict :=
  let current := (released task id).set "attempts" (.arr
    (AutonomyLimits.lastOf maxAttempts (attemptsOf task ++ [attemptOf task slot identity failure at_])))
  if fills task slot identity then current.set "hold" (openedHold task slot identity at_) else current

theorem resolve_failure {failure : String} (valid : Validated (circuit task)) (live : slot ∈ slotsOf task)
    (named : slot.get "id" = .str id) (owned : slot.get "identity" = .str identity)
    (resolved : resolve task identity id (some failure) at_ = .ok (after, note)) :
    circuit after = .obj (recorded task slot identity id failure at_) ∧ Within ["retry_circuit"] task after := by
  rw [resolve, state_valid valid, ok_bind, selectedSlot_live valid live named owned, ok_bind] at resolved
  change recordFailure (task.set "retry_circuit" (.obj (released task id))) identity failure (windowSize slot) at_ = _ at resolved
  have frame : Within ["retry_circuit"] task (task.set "retry_circuit" (.obj (released task id))) :=
    (within_refl _ task).set (by simp) _
  unfold recordFailure valueError at resolved
  obtain ⟨-, resolved⟩ := raiseIf_bind_ok.mp resolved
  obtain ⟨threshold, sized, resolved⟩ := bind_eq_ok.mp resolved
  obtain ⟨current, read, resolved⟩ := bind_eq_ok.mp resolved
  obtain ⟨-, resolved⟩ := raiseIf_bind_ok.mp resolved
  obtain ⟨_, -, resolved⟩ := bind_eq_ok.mp resolved
  obtain rfl := state_eq_ok (circuit_set _ _) read
  have size : threshold = windowSize slot := by
    unfold windowOf at sized
    simp only [Json.exactInt?] at sized
    split at sized
    · exact (Except.ok.inj sized).symm
    · cases sized
  subst size
  have attempts : ((released task id).get "attempts").items = attemptsOf task := by
    rw [released, get_set, if_neg (by decide)]
    rfl
  simp only [progressDigest_within frame, revision_within frame, activeAttempts_released, attempts, pure_eq_ok,
    Prod.mk.injEq] at resolved
  obtain ⟨rfl, -⟩ := resolved
  refine ⟨?_, frame.set (by simp) _⟩
  rw [circuit_set]
  rfl

/-- A success that leaves attempts behind takes only the slot away. -/
theorem released_framed (valid : Validated (circuit task)) (live : slot ∈ slotsOf task) (named : slot.get "id" = .str id)
    (stored : circuit after = .obj (released task id)) (frame : Within ["retry_circuit"] task after) :
    Framed task slot identity at_ none after := by
  have same {name : String} (other : name ≠ "reservations") : (circuit after).get name = (circuit task).get name := by
    rw [stored, Json.get_obj, released, get_set, if_neg other]
    rfl
  obtain ⟨before, behind, split, -, kept⟩ := slot_split valid.apart live named
  refine ⟨⟨before, behind, split, ?_⟩, ?_, ?_, ?_, fun _ => ?_, frame⟩
  · rw [slotsOf, stored, Json.get_obj, released, get_set, if_pos rfl]
    exact kept
  · rw [attemptsOf, same (by decide)]
    rfl
  · rw [abandonedOf, same (by decide)]
    rfl
  · rw [recoveriesOf, same (by decide)]
    rfl
  · rw [holdOf, same (by decide)]
    rfl

/-- Dropping the circuit loses nothing exactly when it held nothing but the slot. -/
theorem dropped_framed_iff (valid : Validated (circuit task)) (bare : attemptsOf task = [])
    (absent : circuit after = .null) (frame : Within ["retry_circuit"] task after) :
    Framed task slot identity at_ none after ↔
      slotsOf task = [slot] ∧ abandonedOf task = [] ∧ recoveriesOf task = [] := by
  have slots : slotsOf after = [] := by
    rw [slotsOf, absent]
    rfl
  have abandoned : abandonedOf after = [] := by
    rw [abandonedOf, absent]
    rfl
  have recoveries : recoveriesOf after = [] := by
    rw [recoveriesOf, absent]
    rfl
  constructor
  · intro framed
    obtain ⟨before, behind, split, left⟩ := framed.slots
    obtain ⟨rfl, rfl⟩ := List.append_eq_nil_iff.mp (left.symm.trans slots)
    exact ⟨split, framed.abandoned.symm.trans abandoned, framed.recoveries.symm.trans recoveries⟩
  · rintro ⟨sole, noAbandoned, noRecoveries⟩
    refine ⟨⟨[], [], sole, slots⟩, ?_, abandoned.trans noAbandoned.symm, recoveries.trans noRecoveries.symm, ?_, frame⟩
    · rw [attemptsOf, absent]
      exact bare.symm
    · rintro ⟨held, -⟩
      rw [holdOf, valid.unheld bare] at held
      cases held

/-- A recorded failure loses nothing exactly when it does not take the place of another hold. -/
theorem recorded_framed_iff {failure : String} (valid : Validated (circuit task)) (live : slot ∈ slotsOf task)
    (named : slot.get "id" = .str id) (stored : circuit after = .obj (recorded task slot identity id failure at_))
    (frame : Within ["retry_circuit"] task after) :
    Framed task slot identity at_ (some failure) after ↔ Sparing task slot identity (some failure) := by
  have same {name : String} (other : name ∉ ["reservations", "attempts", "hold"]) :
      (circuit after).get name = (circuit task).get name := by
    simp only [List.mem_cons, List.not_mem_nil, or_false, not_or] at other
    obtain ⟨notSlots, notAttempts, notHold⟩ := other
    rw [stored, Json.get_obj, recorded]
    split
    · rw [get_set, if_neg notHold, get_set, if_neg notAttempts, released, get_set, if_neg notSlots]
      rfl
    · rw [get_set, if_neg notAttempts, released, get_set, if_neg notSlots]
      rfl
  have slots : slotsOf after = (slotsOf task).filter (fun item => item.get "id" != .str id) := by
    rw [slotsOf, stored, Json.get_obj, recorded]
    split <;> simp [released, Json.items]
  have attempts : attemptsOf after =
      AutonomyLimits.lastOf maxAttempts (attemptsOf task ++ [attemptOf task slot identity failure at_]) := by
    rw [attemptsOf, stored, Json.get_obj, recorded]
    split <;> simp [Json.items]
  have hold : holdOf after = if fills task slot identity then openedHold task slot identity at_ else holdOf task := by
    rw [holdOf, stored, Json.get_obj, recorded]
    split
    · rw [get_set, if_pos rfl]
    · rw [get_set, if_neg (by decide), released, get_set, if_neg (by decide)]
      rfl
  obtain ⟨before, behind, split, -, kept⟩ := slot_split valid.apart live named
  constructor
  · intro framed other
    by_contra full
    have filled : fills task slot identity := not_lt.mp full
    have replaced := framed.hold other
    rw [hold, if_pos filled] at replaced
    refine other.2 ?_
    rw [← replaced]
    rfl
  · intro sparing
    refine ⟨⟨before, behind, split, slots.trans kept⟩, attempts, ?_, ?_, fun other => ?_, frame⟩
    · rw [abandonedOf, same (by decide)]
      rfl
    · rw [recoveriesOf, same (by decide)]
      rfl
    · have open_ : ¬fills task slot identity := not_le.mpr (sparing other)
      rw [hold, if_neg open_]

end results

/-- A command launched twice at once, with nothing failed yet. -/
def twiceLaunched : Meta := Run.final step retrySample
  [⟨.reserve ⟨identityOf 0, 3, Act.slotId, Act.finished.text⟩, Act.started.text⟩,
    ⟨.reserve ⟨identityOf 0, 3, "fedcba9876543210fedcba9876543210", Act.finished.text⟩, Act.started.text⟩]

def firstLaunch : Json := (slotsOf twiceLaunched).head?.getD .null

theorem twiceLaunched_slots :
    allowed (validate (circuit twiceLaunched)) = true ∧ (slotsOf twiceLaunched).length = 2 ∧
      (slotsOf twiceLaunched).head?.isSome = true ∧ (attemptsOf twiceLaunched).isEmpty = true ∧
      (firstLaunch.get "id" == .str Act.slotId) = true ∧ (firstLaunch.get "identity" == .str (identityOf 0)) = true := by
  decide +kernel

theorem twiceLaunched_valid : validate (circuit twiceLaunched) = .ok () := by
  obtain ⟨_, valid⟩ := allowed_iff.mp twiceLaunched_slots.1
  exact valid

theorem firstLaunch_mem : firstLaunch ∈ slotsOf twiceLaunched := by
  obtain ⟨slot, first⟩ := Option.isSome_iff_exists.mp twiceLaunched_slots.2.2.1
  have named : firstLaunch = slot := by rw [firstLaunch, first, Option.getD_some]
  exact named ▸ List.mem_of_head? first

theorem firstLaunch_named : firstLaunch.get "id" = .str Act.slotId := (Json.beq_str _ _).mp twiceLaunched_slots.2.2.2.2.1

theorem firstLaunch_owned : firstLaunch.get "identity" = .str (identityOf 0) :=
  (Json.beq_str _ _).mp twiceLaunched_slots.2.2.2.2.2

end Coordinator.RetryCircuit
