import Coordinator.Kit.Guard
import Coordinator.Kit.Locks
import Coordinator.Kit.Run
import Coordinator.Kit.Text

/-! Publishing an issue series as one hosted comment: the receipt of a publication, the reservation before the call, the
search for an earlier comment, the request that creates one, and the resolution of the receipt. A request that was sent
may be served when nobody waits for it any more. -/

namespace Coordinator.CommentPublication
open Kit

inductive Status
  | published | alreadyPublished | dryRun
  | deferredUnavailable | deferredUnauthorized | deferredTimeout | deferredConflict | deferredWrongIdentity | deferredClosed | deferredMoved
  | ambiguous
  deriving DecidableEq

def Status.final : Status → Bool
  | .published | .alreadyPublished => true
  | _ => false

/-- The outcome of a publication. Its key and the digest of its manifest are those of the publication. -/
structure Outcome where
  status : Status
  commentId : String := ""
  deriving DecidableEq

/-! Reading what the transport says. -/

def isCommentId (text : String) : Bool :=
  match text.toList with
  | first :: rest => Text.isDigit first && first != '0' && rest.length ≤ 18 && rest.all Text.isDigit
  | [] => false

def livePublicationFailure (diagnostic : String) : Status :=
  let normalized := String.ofList (diagnostic.toList.map Char.toLower)
  if Text.occursIn "401" normalized || Text.occursIn "403" normalized then .deferredUnauthorized
  else if Text.occursIn "410" normalized || Text.occursIn "closed" normalized then .deferredClosed
  else if Text.occursIn "404" normalized || Text.occursIn "moved" normalized then .deferredMoved
  else if Text.occursIn "409" normalized || Text.occursIn "conflict" normalized then .deferredConflict
  else .deferredUnavailable

/-- The outcome that the identifiers of the comments with the marker of a publication stand for, if any. -/
def existingOutcome (ids : List String) : Option Outcome :=
  match ids with
  | [] => none
  | [found] => if isCommentId found then some ⟨.alreadyPublished, found⟩ else some ⟨.ambiguous, ""⟩
  | _ => some ⟨.ambiguous, ""⟩

/-- How a call ends that reads or creates comments. -/
inductive Answer
  | timeout
  | failed (stderr : String)
  | answered

/-- Before any call: the settings may be missing, name another repository, or lack the executable. -/
inductive Blocked
  | unavailable | wrongIdentity

def Blocked.status : Blocked → Status
  | .unavailable => .deferredUnavailable
  | .wrongIdentity => .deferredWrongIdentity

/-- What a search for the comments of a publication ends in; none is found where the answer is none. -/
def liveExisting (ids : List String) : Answer → Option Outcome
  | .timeout => some ⟨.deferredTimeout, ""⟩
  | .failed stderr => some ⟨livePublicationFailure stderr, ""⟩
  | .answered => existingOutcome ids

/-- What a request ends in that was answered with an identifier. -/
def createdOutcome (created : String) : Outcome :=
  if isCommentId created then ⟨.published, created⟩ else ⟨.ambiguous, ""⟩

/-! The receipts. -/

inductive Backend
  | git | sqlite
  deriving DecidableEq

def recordReceipt (existing : Option Outcome) (new : Outcome) : Except String Outcome :=
  match existing with
  | none => .ok new
  | some old => if old = new then .ok old else .error "issue-series publication receipt conflicts with existing local receipt"

/-- A receipt that is not final takes the outcome. A Git receipt that stays as it is makes no commit. -/
def resolveReceipt (backend : Backend) (existing : Option Outcome) (new : Outcome) : Except String Outcome :=
  match existing with
  | none => .error "issue-series publication reservation is missing"
  | some old =>
      if old.status.final then
        if old = new then .ok old else .error "issue-series publication receipt is already final"
      else if backend = .git ∧ old = new then .error "issue-series publication resolution produced no commit"
      else .ok new

/-! The publishers. -/

/-- Whether storing a receipt fails, before or behind its effect. -/
inductive Fault
  | none | before | after
  deriving DecidableEq

/-- How far a publisher is with a publication. From the second phase on it holds the lock of the publication. -/
inductive Phase
  | idle
  | waiting (key : String)
  | locked (key : String)
  | reserved (key : String)
  | unpublished (key : String)
  | posting (key : String) (request : Nat)
  | resolving (key : String) (outcome : Outcome)

def Phase.holds : Phase → Option String
  | .idle | .waiting _ => .none
  | .locked key | .reserved key | .unpublished key | .posting key _ | .resolving key _ => some key

/-- A hosted comment with the marker of a publication. It is late when its publisher had stopped waiting for it. -/
structure Comment where
  id : Nat
  key : String
  request : Nat
  late : Bool
  deriving DecidableEq

structure Request where
  number : Nat
  key : String
  publisher : Nat

structure World where
  receipts : String → Option Outcome
  /-- The publications whose receipt a mock transport has made final. -/
  mocked : String → Bool
  holder : String → Option Nat
  phase : Nat → Phase
  comments : List Comment
  flight : List Request
  nextId : Nat
  nextRequest : Nat

def World.empty : World := ⟨fun _ => none, fun _ => false, fun _ => none, fun _ => .idle, [], [], 1, 0⟩

inductive Event
  /-- The command up to the reservation of its receipt. -/
  | start (publisher : Nat) (key : String) (fault : Fault)
  /-- A dry run, or a mock transport with its outcome. -/
  | project (key : String) (outcome : Outcome) (fault : Fault)
  | lock (publisher : Nat)
  | prepare (publisher : Nat) (fault : Fault)
  | blocked (publisher : Nat) (reason : Blocked)
  | search (publisher : Nat) (answer : Answer)
  | post (publisher : Nat)
  /-- The server takes up a request that was sent, or never does. -/
  | serve (index : Nat)
  | drop (index : Nat)
  | reply (publisher : Nat) (answer : Answer)
  | resolve (publisher : Nat) (fault : Fault)
  | crash (publisher : Nat)

namespace World

variable (world : World)

def enter (publisher : Nat) (phase : Phase) : World := { world with phase := Function.update world.phase publisher phase }

/-- A publisher ends, and its lock is free. -/
def leave (publisher : Nat) : World :=
  { world with
    phase := Function.update world.phase publisher .idle
    holder := match (world.phase publisher).holds with
      | some key => Function.update world.holder key none
      | none => world.holder }

/-- What a store that may fail has done, and whether it has succeeded. -/
def store (key : String) (fault : Fault) (result : Except String Outcome) : World × Bool :=
  match result with
  | .error _ => (world, false)
  | .ok outcome => if fault = .before then (world, false) else
      ({ world with receipts := Function.update world.receipts key (some outcome) }, fault = .none)

def finished (key : String) : Bool := (world.receipts key).any (·.status.final)

def ids (key : String) : List String := (world.comments.filter (·.key == key)).map fun comment => toString comment.id

/-- Whether the publisher of a request waits for it. -/
def waits (request : Request) : Bool :=
  match world.phase request.publisher with
  | .posting key number => key == request.key && number == request.number
  | _ => false

end World

variable (backend : Backend)

/-- The receipt before the lock of its publication is asked for. -/
def startPublication (world : World) (publisher : Nat) (key : String) (fault : Fault) : World :=
  match world.receipts key with
  | some receipt => if receipt.status.final then world else world.enter publisher (.waiting key)
  | none =>
      let (after, stored) := world.store key fault (recordReceipt none ⟨.ambiguous, ""⟩)
      if stored then after.enter publisher (.waiting key) else after

/-- Under the lock: a final receipt is the answer, any other one becomes a reservation. -/
def preparePublication (world : World) (publisher : Nat) (key : String) (fault : Fault) : World :=
  if world.finished key then world.leave publisher
  else
    match world.receipts key with
    | some receipt =>
        if receipt.status = .ambiguous then world.enter publisher (.reserved key)
        else
          let (after, stored) := world.store key fault (resolveReceipt backend (some receipt) ⟨.ambiguous, ""⟩)
          if stored then after.enter publisher (.reserved key) else after.leave publisher
    | none => world.enter publisher (.reserved key)

def step (world : World) : Event → World
  | .start publisher key fault =>
      match world.phase publisher with
      | .idle => startPublication world publisher key fault
      | _ => world
  | .project key outcome fault =>
      let (after, _) := world.store key fault (recordReceipt (world.receipts key) outcome)
      { after with mocked := Function.update world.mocked key (world.mocked key || (after.finished key && !world.finished key)) }
  | .lock publisher =>
      match world.phase publisher with
      | .waiting key =>
          if (world.holder key).isSome then world
          else { world.enter publisher (.locked key) with holder := Function.update world.holder key (some publisher) }
      | _ => world
  | .prepare publisher fault =>
      match world.phase publisher with
      | .locked key => preparePublication backend world publisher key fault
      | _ => world
  | .blocked publisher reason =>
      match world.phase publisher with
      | .reserved key | .unpublished key => world.enter publisher (.resolving key ⟨reason.status, ""⟩)
      | _ => world
  | .search publisher answer =>
      match world.phase publisher with
      | .reserved key =>
          match liveExisting (world.ids key) answer with
          | some outcome => world.enter publisher (.resolving key outcome)
          | none => world.enter publisher (.unpublished key)
      | _ => world
  | .post publisher =>
      match world.phase publisher with
      | .unpublished key => { world.enter publisher (.posting key world.nextRequest) with
          flight := world.flight ++ [⟨world.nextRequest, key, publisher⟩], nextRequest := world.nextRequest + 1 }
      | _ => world
  | .serve index =>
      match world.flight[index]? with
      | some request => { world with
          flight := world.flight.eraseIdx index
          comments := world.comments ++ [⟨world.nextId, request.key, request.number, !world.waits request⟩]
          nextId := world.nextId + 1 }
      | none => world
  | .drop index => { world with flight := world.flight.eraseIdx index }
  | .reply publisher answer =>
      match world.phase publisher with
      | .posting key number =>
          match answer with
          | .timeout => world.enter publisher (.resolving key ⟨.deferredTimeout, ""⟩)
          | .failed stderr => world.enter publisher (.resolving key ⟨livePublicationFailure stderr, ""⟩)
          | .answered =>
              match world.comments.find? (·.request == number) with
              | some comment => world.enter publisher (.resolving key (createdOutcome (toString comment.id)))
              | none => world
      | _ => world
  | .resolve publisher fault =>
      match world.phase publisher with
      | .resolving key outcome => (world.store key fault (resolveReceipt backend (world.receipts key) outcome)).1.leave publisher
      | _ => world
  | .crash publisher => world.leave publisher

/-! What every run keeps. -/

def World.timely (world : World) (key : String) : List Comment := world.comments.filter fun comment => comment.key == key && !comment.late

/-- A hosted comment with the marker of the publication bears the identifier. -/
def World.Names (world : World) (key commentId : String) : Prop :=
  ∃ comment ∈ world.comments, comment.key = key ∧ toString comment.id = commentId

/-- What is known of the comments and requests of a publication in a phase. -/
def World.Right (world : World) : Phase → Prop
  | .unpublished key => world.timely key = []
  | .posting key number => number < world.nextRequest ∧ (∀ comment ∈ world.comments, comment.request = number → comment.key = key) ∧
      (∀ request ∈ world.flight, request.number = number → request.key = key) ∧ ∀ comment ∈ world.timely key, comment.request = number
  | .resolving key outcome => outcome.status.final = true → world.Names key outcome.commentId
  | _ => True

structure Sound (world : World) : Prop where
  held : Exclusive world.holder fun publisher => (world.phase publisher).holds
  phases : ∀ publisher, world.Right (world.phase publisher)
  served : ∀ comment ∈ world.comments, comment.request < world.nextRequest ∧ ∀ request ∈ world.flight, request.number ≠ comment.request
  sent : ∀ request ∈ world.flight, request.number < world.nextRequest
  single : (world.flight.map Request.number).Nodup
  timely : ∀ key, (world.timely key).length ≤ 1
  receipts : ∀ key outcome, world.receipts key = some outcome → outcome.status.final = true → world.mocked key = false →
    world.Names key outcome.commentId

variable {world : World} {publisher : Nat} {key : String}

theorem sound_empty : Sound World.empty where
  held _ _ := iff_of_false (by rintro ⟨⟩) (by rintro ⟨⟩)
  phases _ := trivial
  served := List.forall_mem_nil _
  sent := List.forall_mem_nil _
  single := List.nodup_nil
  timely _ := Nat.zero_le _
  receipts _ _ none_ := by cases none_

theorem holds_update (phase : Phase) : (fun other => (Function.update world.phase publisher phase other).holds) =
    Function.update (fun other => (world.phase other).holds) publisher phase.holds :=
  funext fun other => Function.apply_update (fun _ => Phase.holds) world.phase publisher phase other

theorem right_update {phase : Phase} (phases : ∀ publisher, world.Right (world.phase publisher)) (right : world.Right phase) (other : Nat) :
    world.Right (Function.update world.phase publisher phase other) := by
  by_cases here : other = publisher
  · subst here
    rw [Function.update_self]
    exact right
  · rw [Function.update_of_ne here]
    exact phases other

/-- A publisher goes on to a phase with the same lock. -/
theorem Sound.enter {phase : Phase} (sound : Sound world) (same : phase.holds = (world.phase publisher).holds) (right : world.Right phase) :
    Sound (world.enter publisher phase) :=
  { sound with
    held := by
      change Exclusive world.holder fun other => (Function.update world.phase publisher phase other).holds
      rw [holds_update, same]
      exact (Function.update_eq_self publisher fun other => (world.phase other).holds).symm ▸ sound.held
    phases := right_update sound.phases right }

theorem Sound.leave (sound : Sound world) : Sound (world.leave publisher) :=
  { sound with
    held := by
      change Exclusive _ fun other => (Function.update world.phase publisher .idle other).holds
      rw [holds_update]
      unfold World.leave
      cases held : (world.phase publisher).holds with
      | none =>
        have same : Phase.idle.holds = (world.phase publisher).holds := held.symm
        rw [same]
        exact (Function.update_eq_self publisher fun other => (world.phase other).holds).symm ▸ sound.held
      | some key => exact sound.held.release held
    phases := right_update sound.phases trivial }

theorem Sound.lock (sound : Sound world) (waits : world.phase publisher = .waiting key) (free : world.holder key = none) :
    Sound { world.enter publisher (.locked key) with holder := Function.update world.holder key (some publisher) } :=
  { sound with
    held := by
      change Exclusive _ fun other => (Function.update world.phase publisher (.locked key) other).holds
      rw [holds_update]
      have idle : (world.phase publisher).holds = none := by rw [waits]; rfl
      exact sound.held.acquire free idle
    phases := right_update sound.phases trivial }

/-- A receipt becomes final only with the identifier of a comment. -/
theorem Sound.store {fault : Fault} {result : Except String Outcome} (sound : Sound world)
    (named : ∀ outcome, result = .ok outcome → outcome.status.final = true → world.mocked key = false → world.Names key outcome.commentId) :
    Sound (world.store key fault result).1 := by
  unfold World.store
  cases result with
  | error message => exact sound
  | ok outcome =>
    dsimp only
    split
    · exact sound
    · refine { sound with receipts := fun other found stands final live => ?_ }
      by_cases same : other = key
      · subst same
        cases (Function.update_self other _ world.receipts).symm.trans stands
        exact named outcome rfl final live
      · exact sound.receipts other found ((Function.update_of_ne same _ world.receipts).symm.trans stands) final live

theorem store_phase {fault : Fault} {result : Except String Outcome} : (world.store key fault result).1.phase = world.phase := by
  unfold World.store
  split
  · rfl
  · split <;> rfl

/-- Where a receipt is final, it stays. -/
theorem resolveReceipt_eq_ok {backend : Backend} {existing : Option Outcome} {new outcome : Outcome}
    (resolved : resolveReceipt backend existing new = .ok outcome) :
    outcome = new ∧ ∀ old, existing = some old → old.status.final = true → old = new := by
  unfold resolveReceipt at resolved
  split at resolved
  · cases resolved
  · next old =>
    split at resolved
    · split at resolved
      · next same =>
        cases resolved
        exact ⟨same, fun _ found _ => (Option.some.inj found).symm.trans same⟩
      · cases resolved
    · next open_ =>
      split at resolved
      · cases resolved
      · cases resolved
        exact ⟨rfl, fun _ found final => absurd (Option.some.inj found ▸ final) open_⟩

theorem recordReceipt_eq_ok {existing : Option Outcome} {new outcome : Outcome} (recorded : recordReceipt existing new = .ok outcome) :
    outcome = new ∧ ∀ old, existing = some old → old = new := by
  unfold recordReceipt at recorded
  split at recorded
  · cases recorded
    exact ⟨rfl, fun _ none_ => by cases none_⟩
  · split at recorded
    · next same =>
      cases recorded
      exact ⟨same, fun _ found => (Option.some.inj found).symm.trans same⟩
    · cases recorded

theorem plain_failure (diagnostic : String) : (livePublicationFailure diagnostic).final = false := by
  unfold livePublicationFailure
  simp only
  split_ifs <;> rfl

/-- What a search finds has the marker of the publication. -/
theorem liveExisting_names {answer : Answer} {outcome : Outcome} (found : liveExisting (world.ids key) answer = some outcome)
    (final : outcome.status.final = true) : world.Names key outcome.commentId := by
  cases answer with
  | timeout =>
    cases found
    cases final
  | failed stderr =>
    injection found with same
    subst same
    exact absurd final (by rw [plain_failure]; decide)
  | answered =>
    change existingOutcome (world.ids key) = some outcome at found
    unfold existingOutcome at found
    split at found
    · cases found
    · next id listed =>
      have member : id ∈ world.ids key := listed ▸ List.mem_singleton.mpr rfl
      split at found
      · cases found
        obtain ⟨comment, kept, rfl⟩ := List.mem_map.mp member
        obtain ⟨there, marked⟩ := List.mem_filter.mp kept
        exact ⟨comment, there, beq_iff_eq.mp marked, rfl⟩
      · cases found
        cases final
    · cases found
      cases final

/-- A search that ends in nothing has found no comment. -/
theorem timely_of_unfound {answer : Answer} (unfound : liveExisting (world.ids key) answer = none) : world.timely key = [] := by
  have none_ : world.ids key = [] := by
    cases answer with
    | timeout => cases unfound
    | failed stderr => cases unfound
    | answered =>
      change existingOutcome (world.ids key) = none at unfound
      unfold existingOutcome at unfound
      split at unfound
      · assumption
      · split at unfound <;> cases unfound
      · cases unfound
  refine List.filter_eq_nil_iff.mpr fun comment there marked => ?_
  have kept : comment ∈ world.comments.filter (·.key == key) := List.mem_filter.mpr ⟨there, (Bool.and_eq_true_iff.mp marked).1⟩
  rw [World.ids, List.map_eq_nil_iff] at none_
  rw [none_] at kept
  cases kept

theorem timely_append (comment : Comment) (key : String) : ({ world with comments := world.comments ++ [comment] } : World).timely key =
    world.timely key ++ if comment.key == key && !comment.late then [comment] else [] := by
  unfold World.timely
  rw [List.filter_append, List.filter_singleton, Bool.cond_eq_ite]

theorem Names.mono {after : World} {id : String} (more : ∀ comment ∈ world.comments, comment ∈ after.comments) (named : world.Names key id) :
    after.Names key id := by
  obtain ⟨comment, there, facts⟩ := named
  exact ⟨comment, more comment there, facts⟩

theorem waits_iff {request : Request} : world.waits request = true ↔ world.phase request.publisher = .posting request.key request.number := by
  unfold World.waits
  split
  · next key number waiting =>
    rw [waiting, Bool.and_eq_true, beq_iff_eq, beq_iff_eq]
    constructor
    · rintro ⟨rfl, rfl⟩
      rfl
    · intro same
      cases same
      exact ⟨rfl, rfl⟩
  · next other =>
    exact iff_of_false (by decide) fun waiting => other _ _ waiting

/-- A request is served once, and only while its publisher waits is the comment timely. -/
theorem Sound.serve (sound : Sound world) {index : Nat} {request : Request} (sent : world.flight[index]? = some request) :
    Sound { world with
      flight := world.flight.eraseIdx index
      comments := world.comments ++ [⟨world.nextId, request.key, request.number, !world.waits request⟩]
      nextId := world.nextId + 1 } := by
  obtain ⟨bound, rfl⟩ := List.getElem?_eq_some_iff.mp sent
  generalize made : world.flight[index] = request
  have there : request ∈ world.flight := made ▸ List.getElem_mem bound
  have rest : ∀ other ∈ world.flight.eraseIdx index, other ∈ world.flight ∧ other.number ≠ request.number := by
    intro other left
    refine ⟨List.mem_of_mem_eraseIdx left, fun same => ?_⟩
    obtain ⟨place, within, apart, rfl⟩ := List.mem_eraseIdx_iff_getElem.mp left
    rw [← made] at same
    have equal := List.inj_on_of_nodup_map sound.single (List.getElem_mem within) (List.getElem_mem bound) same
    exact apart ((List.Nodup.getElem_inj_iff sound.single.of_map).mp equal)
  have unserved : ∀ comment ∈ world.comments, comment.request ≠ request.number := fun comment member same =>
    (sound.served comment member).2 request there same.symm
  -- A comment that is timely for a publication was asked for by the publisher that holds its lock.
  have waiting {key : String} {other : Nat} (timely : (request.key == key && !!world.waits request) = true)
      (holds : (world.phase other).holds = some key) : world.phase other = .posting key request.number := by
    rw [Bool.not_not, Bool.and_eq_true, beq_iff_eq, waits_iff] at timely
    obtain ⟨rfl, waits⟩ := timely
    have mine : world.holder request.key = some request.publisher := (sound.held ..).mpr (by simp only [waits]; rfl)
    have same : world.holder request.key = some other := (sound.held ..).mpr holds
    rw [← Option.some.inj (mine.symm.trans same), waits]
  refine ⟨sound.held, fun other => ?_, fun comment member => ?_, fun next left => sound.sent next (rest next left).1,
    sound.single.sublist ((List.eraseIdx_sublist ..).map _), fun key => ?_, fun key outcome stands final live =>
      Names.mono (fun comment member => List.mem_append_left _ member) (sound.receipts key outcome stands final live)⟩
  · have right := sound.phases other
    dsimp only
    cases phase : world.phase other with
    | idle | waiting | locked | reserved => trivial
    | unpublished key =>
      rw [phase] at right
      refine (timely_append _ key).trans ?_
      rw [right, if_neg fun timely => ?_]
      · rfl
      · cases phase.symm.trans (waiting timely (by rw [phase]; rfl))
    | posting key number =>
      rw [phase] at right
      obtain ⟨before, asked, flying, timely⟩ := right
      refine ⟨before, fun comment member same => ?_, fun next left same => flying next (rest next left).1 same, fun comment member => ?_⟩
      · obtain old | new := List.mem_append.mp member
        · exact asked comment old same
        · rw [List.mem_singleton.mp new] at same ⊢
          exact flying request there same
      · have member := (timely_append _ key) ▸ member
        obtain old | new := List.mem_append.mp member
        · exact timely comment old
        · split at new
          · next own =>
            rw [List.mem_singleton.mp new]
            cases phase.symm.trans (waiting own (by rw [phase]; rfl))
            rfl
          · cases new
    | resolving key outcome =>
      rw [phase] at right
      exact fun final => Names.mono (fun comment member => List.mem_append_left _ member) (right final)
  · obtain old | new := List.mem_append.mp member
    · exact ⟨(sound.served comment old).1, fun next left => (sound.served comment old).2 next (rest next left).1⟩
    · rw [List.mem_singleton.mp new]
      exact ⟨sound.sent request there, fun next left => (rest next left).2⟩
  · have appended := @timely_append world ⟨world.nextId, request.key, request.number, !world.waits request⟩ key
    refine (congrArg List.length appended).trans_le ?_
    by_cases own : (request.key == key && !!world.waits request) = true
    · have mine : world.phase request.publisher = .posting request.key request.number := by
        rw [Bool.not_not, Bool.and_eq_true] at own
        exact waits_iff.mp own.2
      have right := sound.phases request.publisher
      rw [mine] at right
      have same : request.key = key := beq_iff_eq.mp (Bool.and_eq_true_iff.mp own).1
      have none_ : world.timely key = [] := List.eq_nil_iff_forall_not_mem.mpr fun comment member =>
        unserved comment (List.mem_of_mem_filter member) (right.2.2.2 comment (same ▸ member))
      rw [if_pos own, none_]
      exact Nat.le_refl 1
    · rw [if_neg own, List.append_nil]
      exact sound.timely key

theorem Sound.start (sound : Sound world) (idle : world.phase publisher = .idle) (fault : Fault) :
    Sound (startPublication world publisher key fault) := by
  have same : (Phase.waiting key).holds = (world.phase publisher).holds := by rw [idle]; rfl
  unfold startPublication
  split
  · split
    · exact sound
    · exact sound.enter same trivial
  · have stored : Sound (world.store key fault (recordReceipt none ⟨.ambiguous, ""⟩)).1 := sound.store fun outcome ok final => by
      rw [(recordReceipt_eq_ok ok).1] at final
      cases final
    dsimp only
    split
    · exact stored.enter (by rw [store_phase]; exact same) trivial
    · exact stored

theorem Sound.prepare (backend : Backend) (sound : Sound world) (locked : world.phase publisher = .locked key) (fault : Fault) :
    Sound (preparePublication backend world publisher key fault) := by
  have same : (Phase.reserved key).holds = (world.phase publisher).holds := by rw [locked]; rfl
  unfold preparePublication
  split
  · exact sound.leave
  · split
    · next receipt _ =>
      split
      · exact sound.enter same trivial
      · have stored : Sound (world.store key fault (resolveReceipt backend (some receipt) ⟨.ambiguous, ""⟩)).1 :=
          sound.store fun outcome ok final => by
            rw [(resolveReceipt_eq_ok ok).1] at final
            cases final
        dsimp only
        split
        · exact stored.enter (by rw [store_phase]; exact same) trivial
        · exact stored.leave
    · exact sound.enter same trivial

/-- A record that finds a receipt leaves it as it is. -/
theorem record_receipts {old outcome : Outcome} {fault : Fault} (present : world.receipts key = some old) :
    (world.store key fault (recordReceipt (some old) outcome)).1.receipts = world.receipts := by
  unfold World.store
  split
  · rfl
  · next stored ok =>
    split
    · rfl
    · obtain ⟨rfl, kept⟩ := recordReceipt_eq_ok ok
      rw [← kept old rfl, ← present]
      exact Function.update_eq_self key world.receipts

theorem Sound.project (sound : Sound world) (outcome : Outcome) (fault : Fault) :
    Sound (let after := (world.store key fault (recordReceipt (world.receipts key) outcome)).1
      { after with mocked := Function.update world.mocked key (world.mocked key || (after.finished key && !world.finished key)) }) := by
  have facts : (world.store key fault (recordReceipt (world.receipts key) outcome)).1 = { world with
      receipts := (world.store key fault (recordReceipt (world.receipts key) outcome)).1.receipts } := by
    unfold World.store
    split
    · rfl
    · split <;> rfl
  dsimp only
  rw [facts]
  refine { sound with receipts := fun other stands found final live => ?_ }
  by_cases same : other = key
  · subst same
    have live := (Function.update_self other _ world.mocked).symm.trans live
    rw [Bool.or_eq_false_iff] at live
    cases present : world.receipts other with
    | some old =>
      rw [present] at found
      exact sound.receipts other stands ((congrFun (record_receipts present) other).symm.trans found) final live.1
    | none =>
      -- Where there was no receipt, a final one has been told by the transport.
      have open_ : world.finished other = false := by rw [World.finished, present]; rfl
      have closed : ({ world with receipts := (world.store other fault (recordReceipt (world.receipts other) outcome)).1.receipts } :
          World).finished other = true := by
        unfold World.finished
        rw [found]
        exact final
      rw [closed, open_] at live
      cases live.2
  · have elsewhere : (world.store key fault (recordReceipt (world.receipts key) outcome)).1.receipts other = world.receipts other := by
      unfold World.store
      split
      · rfl
      · split
        · rfl
        · exact Function.update_of_ne same _ world.receipts
    exact sound.receipts other stands (elsewhere.symm.trans found) final ((Function.update_of_ne same _ world.mocked).symm.trans live)

/-- A request is sent only where no comment is timely. -/
theorem Sound.post (sound : Sound world) (searched : world.phase publisher = .unpublished key) :
    Sound { world.enter publisher (.posting key world.nextRequest) with
      flight := world.flight ++ [⟨world.nextRequest, key, publisher⟩], nextRequest := world.nextRequest + 1 } := by
  have clear := sound.phases publisher
  rw [searched] at clear
  refine ⟨?_, fun other => ?_, fun comment member => ?_, fun request member => ?_, ?_, sound.timely, sound.receipts⟩
  · change Exclusive world.holder fun other => (Function.update world.phase publisher _ other).holds
    have same : (Phase.posting key world.nextRequest).holds = (world.phase publisher).holds := by rw [searched]; rfl
    rw [holds_update, same]
    exact (Function.update_eq_self publisher fun other => (world.phase other).holds).symm ▸ sound.held
  · by_cases here : other = publisher
    · subst here
      dsimp only [World.enter]
      rw [Function.update_self]
      refine ⟨Nat.lt_succ_self _, fun comment member same => absurd same (Nat.ne_of_lt (sound.served comment member).1),
        fun request member same => ?_, fun comment member => ?_⟩
      · obtain old | new := List.mem_append.mp member
        · exact absurd same (Nat.ne_of_lt (sound.sent request old))
        · rw [List.mem_singleton.mp new]
      · have member : comment ∈ world.timely key := member
        rw [clear] at member
        cases member
    · have right := sound.phases other
      dsimp only [World.enter]
      rw [Function.update_of_ne here]
      cases phase : world.phase other with
      | idle | waiting | locked | reserved => trivial
      | unpublished key =>
        rw [phase] at right
        exact right
      | resolving key outcome =>
        rw [phase] at right
        exact right
      | posting key number =>
        rw [phase] at right
        obtain ⟨before, asked, flying, timely⟩ := right
        refine ⟨Nat.lt_succ_of_lt before, asked, fun request member same => ?_, timely⟩
        obtain old | new := List.mem_append.mp member
        · exact flying request old same
        · rw [List.mem_singleton.mp new] at same
          exact absurd same.symm (Nat.ne_of_lt before)
  · refine ⟨Nat.lt_succ_of_lt (sound.served comment member).1, fun request flying => ?_⟩
    obtain old | new := List.mem_append.mp flying
    · exact (sound.served comment member).2 request old
    · rw [List.mem_singleton.mp new]
      exact (Nat.ne_of_lt (sound.served comment member).1).symm
  · obtain old | new := List.mem_append.mp member
    · exact Nat.lt_succ_of_lt (sound.sent request old)
    · rw [List.mem_singleton.mp new]
      exact Nat.lt_succ_self _
  · rw [List.map_append]
    refine List.nodup_append.mpr ⟨sound.single, List.nodup_singleton _, ?_⟩
    rintro number old last new rfl
    obtain ⟨request, member, same⟩ := List.mem_map.mp old
    exact absurd (same.trans (List.mem_singleton.mp new)) (Nat.ne_of_lt (sound.sent request member))

theorem Sound.drop (sound : Sound world) (index : Nat) : Sound { world with flight := world.flight.eraseIdx index } where
  held := sound.held
  phases other := by
    have right := sound.phases other
    dsimp only
    cases phase : world.phase other with
    | idle | waiting | locked | reserved => trivial
    | unpublished key =>
      rw [phase] at right
      exact right
    | resolving key outcome =>
      rw [phase] at right
      exact right
    | posting key number =>
      rw [phase] at right
      exact ⟨right.1, right.2.1, fun request left => right.2.2.1 request (List.mem_of_mem_eraseIdx left), right.2.2.2⟩
  served comment member := ⟨(sound.served comment member).1, fun request left =>
    (sound.served comment member).2 request (List.mem_of_mem_eraseIdx left)⟩
  sent request left := sound.sent request (List.mem_of_mem_eraseIdx left)
  single := sound.single.sublist ((List.eraseIdx_sublist ..).map _)
  timely := sound.timely
  receipts := sound.receipts

theorem step_sound (backend : Backend) (sound : Sound world) (event : Event) : Sound (step backend world event) := by
  cases event with
  | start publisher key fault =>
    dsimp only [step]
    split
    · next idle => exact sound.start idle fault
    · exact sound
  | project key outcome fault => exact sound.project outcome fault
  | lock publisher =>
    dsimp only [step]
    split
    · next key waits =>
      split
      · exact sound
      · next free => exact sound.lock waits (Option.not_isSome_iff_eq_none.mp free)
    · exact sound
  | prepare publisher fault =>
    dsimp only [step]
    split
    · next key locked => exact sound.prepare backend locked fault
    · exact sound
  | blocked publisher reason =>
    dsimp only [step]
    have plain : (reason.status).final = false := by cases reason <;> rfl
    split
    · next key reserved => exact sound.enter (by rw [reserved]; rfl) fun final => absurd final (by rw [plain]; decide)
    · next key searched => exact sound.enter (by rw [searched]; rfl) fun final => absurd final (by rw [plain]; decide)
    · exact sound
  | search publisher answer =>
    dsimp only [step]
    split
    · next key reserved =>
      split
      · next outcome found => exact sound.enter (by rw [reserved]; rfl) fun final => liveExisting_names found final
      · next unfound => exact sound.enter (by rw [reserved]; rfl) (timely_of_unfound unfound)
    · exact sound
  | post publisher =>
    dsimp only [step]
    split
    · next key searched => exact sound.post searched
    · exact sound
  | serve index =>
    dsimp only [step]
    split
    · next request sent => exact sound.serve sent
    · exact sound
  | drop index => exact sound.drop index
  | reply publisher answer =>
    dsimp only [step]
    split
    · next key number posting =>
      have same (outcome : Outcome) : (Phase.resolving key outcome).holds = (world.phase publisher).holds := by rw [posting]; rfl
      cases answer with
      | timeout => exact sound.enter (same _) fun final => by cases final
      | failed stderr => exact sound.enter (same _) fun final => absurd final (by rw [plain_failure]; decide)
      | answered =>
        dsimp only
        split
        · next comment found =>
          have right := sound.phases publisher
          rw [posting] at right
          have there := List.mem_of_find?_eq_some found
          have own : comment.request = number := by simpa using List.find?_some found
          refine sound.enter (same _) fun final => ⟨comment, there, right.2.1 comment there own, ?_⟩
          unfold createdOutcome at final ⊢
          split at final
          · next shaped => rw [if_pos shaped]
          · cases final
        · exact sound
    · exact sound
  | resolve publisher fault =>
    dsimp only [step]
    split
    · next key outcome resolving =>
      refine Sound.leave (sound.store fun resolved ok final _ => ?_)
      rw [(resolveReceipt_eq_ok ok).1] at final ⊢
      have right := sound.phases publisher
      rw [resolving] at right
      exact right final
    · exact sound
  | crash publisher => exact sound.leave

/-! What stays final. -/

/-- A final receipt stays as it is. -/
def Permanent (world : World) (_ : Event) (after : World) : Prop :=
  ∀ key outcome, world.receipts key = some outcome → outcome.status.final = true → after.receipts key = some outcome

theorem store_permanent {fault : Fault} {result : Except String Outcome} {other : String} {outcome : Outcome}
    (kept : ∀ stored, result = .ok stored → ∀ old, world.receipts key = some old → old.status.final = true → stored = old)
    (stands : world.receipts other = some outcome) (final : outcome.status.final = true) :
    (world.store key fault result).1.receipts other = some outcome := by
  unfold World.store
  cases result with
  | error message => exact stands
  | ok stored =>
    dsimp only
    split
    · exact stands
    · by_cases same : other = key
      · subst same
        exact (Function.update_self ..).trans (congrArg some (kept stored rfl outcome stands final))
      · exact (Function.update_of_ne same ..).trans stands

theorem start_permanent (fault : Fault) (event : Event) : Permanent world event (startPublication world publisher key fault) := by
  intro other outcome stands final
  unfold startPublication
  split
  · split <;> exact stands
  · next none_ =>
    have stored : (world.store key fault (recordReceipt none ⟨.ambiguous, ""⟩)).1.receipts other = some outcome :=
      store_permanent (fun _ _ old found _ => by rw [none_] at found; cases found) stands final
    dsimp only
    split <;> exact stored

theorem prepare_permanent (backend : Backend) (fault : Fault) (event : Event) :
    Permanent world event (preparePublication backend world publisher key fault) := by
  intro other outcome stands final
  unfold preparePublication
  split
  · exact stands
  · split
    · next receipt found =>
      split
      · exact stands
      · have stored : (world.store key fault (resolveReceipt backend (some receipt) ⟨.ambiguous, ""⟩)).1.receipts other = some outcome := by
          refine store_permanent (fun stored ok old present closed => ?_) stands final
          obtain ⟨rfl, kept⟩ := resolveReceipt_eq_ok ok
          exact (kept old (found.symm.trans present) closed).symm
        dsimp only
        split <;> exact stored
    · exact stands

theorem step_permanent (backend : Backend) (world : World) (event : Event) : Permanent world event (step backend world event) := by
  intro key outcome stands final
  cases event with
  | start publisher own fault =>
    dsimp only [step]
    split
    · exact start_permanent fault (.crash 0) key outcome stands final
    · exact stands
  | project own told fault =>
    refine store_permanent (fun stored ok old found _ => ?_) stands final
    obtain ⟨rfl, kept⟩ := recordReceipt_eq_ok ok
    exact (kept old found).symm
  | prepare publisher fault =>
    dsimp only [step]
    split
    · exact prepare_permanent backend fault (.crash 0) key outcome stands final
    · exact stands
  | resolve publisher fault =>
    dsimp only [step]
    split
    · refine store_permanent (fun stored ok old found closed => ?_) stands final
      obtain ⟨rfl, kept⟩ := resolveReceipt_eq_ok ok
      exact (kept old found closed).symm
    · exact stands
  | lock publisher =>
    dsimp only [step]
    split
    · split <;> exact stands
    · exact stands
  | search publisher answer =>
    dsimp only [step]
    split
    · split <;> exact stands
    · exact stands
  | reply publisher answer =>
    dsimp only [step]
    split
    · split
      · exact stands
      · exact stands
      · split <;> exact stands
    · exact stands
  | blocked publisher reason =>
    dsimp only [step]
    split <;> exact stands
  | post publisher =>
    dsimp only [step]
    split <;> exact stands
  | serve index =>
    dsimp only [step]
    split <;> exact stands
  | drop index => exact stands
  | crash publisher => exact stands

/-! Whole runs. -/

def World.about (world : World) (key : String) : List Comment := world.comments.filter (·.key == key)

def World.late (world : World) (key : String) : List Comment := world.comments.filter fun comment => comment.key == key && comment.late

/-- Each comment of a publication but one was created when its publisher had stopped waiting, and a final receipt that no
mock transport told names a comment. -/
structure Published (world : World) : Prop where
  once : ∀ key, (world.about key).length ≤ (world.late key).length + 1
  named : ∀ key outcome, world.receipts key = some outcome → outcome.status.final = true → world.mocked key = false →
    world.Names key outcome.commentId

theorem length_about (comments : List Comment) (key : String) : (comments.filter (·.key == key)).length =
    (comments.filter fun comment => comment.key == key && comment.late).length +
      (comments.filter fun comment => comment.key == key && !comment.late).length := by
  induction comments with
  | nil => rfl
  | cons comment rest ih =>
    cases own : comment.key == key <;> cases late : comment.late <;> simp [own, late, ih] <;> omega

theorem Sound.published (sound : Sound world) : Published world where
  once key := by
    rw [World.about, length_about]
    exact Nat.add_le_add_left (sound.timely key) _
  named := sound.receipts

theorem sound_run (backend : Backend) (events : List Event) : Sound (Run.final (step backend) World.empty events) := by
  have keeps (world : World) (event : Event) (sound : Sound world) : Sound (step backend world event) := step_sound backend sound event
  exact Run.invariant_always (step backend) keeps events sound_empty

/-- In every run of publishers that may crash and whose requests may be served at any time, only late requests duplicate
a comment, a final receipt names a hosted comment, and it stays final. -/
theorem comments_run (backend : Backend) (events : List Event) : Published (Run.final (step backend) World.empty events) ∧
    Run.Steps (step backend) Permanent World.empty events := by
  refine ⟨(sound_run backend events).published, ?_⟩
  exact Run.along_mono (step backend) (fun world event _ => step_permanent backend world event)
    (Run.along_of_forall (step backend) fun event _ => trivial)

/-- The first publisher stops waiting, the second finds no comment, and both requests are served. -/
example : ((Run.final (step .git) World.empty [.start 1 "k" .none, .lock 1, .prepare 1 .none, .search 1 .answered, .post 1,
    .reply 1 .timeout, .resolve 1 .none, .start 2 "k" .none, .lock 2, .prepare 2 .none, .search 2 .answered, .post 2,
    .serve 0, .serve 0]).about "k").map Comment.late = [true, false] := by decide

/-! The two authorities. -/

/-- Whether a resolution is answered. -/
def answered (backend : Backend) (world : World) (publisher : Nat) (fault : Fault) : Bool :=
  match world.phase publisher with
  | .resolving key outcome => (world.store key fault (resolveReceipt backend (world.receipts key) outcome)).2
  | _ => false

/-- A resolution is stored alike; only Git has nothing to commit where the receipt stays as it is. -/
theorem resolve_stored (world : World) (key : String) (fault : Fault) (outcome : Outcome) :
    (world.store key fault (resolveReceipt .git (world.receipts key) outcome)).1 =
        (world.store key fault (resolveReceipt .sqlite (world.receipts key) outcome)).1 ∧
      ((world.store key fault (resolveReceipt .git (world.receipts key) outcome)).2 = true ↔
        (world.store key fault (resolveReceipt .sqlite (world.receipts key) outcome)).2 = true ∧
          (world.receipts key = some outcome → outcome.status.final = true)) := by
  cases present : world.receipts key with
  | none => simp [resolveReceipt, World.store]
  | some old =>
    by_cases final : old.status.final = true
    · have same : resolveReceipt .git (some old) outcome = resolveReceipt .sqlite (some old) outcome := by
        unfold resolveReceipt
        simp only [final, if_true]
      rw [same]
      refine ⟨rfl, ⟨fun answered => ⟨answered, fun kept => Option.some.inj kept ▸ final⟩, And.left⟩⟩
    · by_cases unchanged : old = outcome
      · subst unchanged
        have git : resolveReceipt .git (some old) old = .error "issue-series publication resolution produced no commit" := by
          simp [resolveReceipt, final]
        have sqlite : resolveReceipt .sqlite (some old) old = .ok old := by simp [resolveReceipt, final]
        rw [git, sqlite]
        refine ⟨?_, iff_of_false (by rintro ⟨⟩) fun answered => final (answered.2 rfl)⟩
        unfold World.store
        dsimp only
        split
        · rfl
        · rw [← present, Function.update_eq_self]
      · have same : resolveReceipt .git (some old) outcome = resolveReceipt .sqlite (some old) outcome := by
          simp [resolveReceipt, final, unchanged]
        rw [same]
        exact ⟨rfl, fun answered => ⟨answered, fun kept => absurd (Option.some.inj kept) unchanged⟩, And.left⟩

theorem step_agrees (world : World) (event : Event) : step .git world event = step .sqlite world event := by
  cases event with
  | prepare publisher fault =>
    dsimp only [step]
    split
    · next key _ =>
      unfold preparePublication
      split
      · rfl
      · split
        · next receipt found =>
          split
          · rfl
          · next reserved =>
            have changed : receipt ≠ ⟨.ambiguous, ""⟩ := fun same => reserved (congrArg Outcome.status same)
            have same : resolveReceipt .git (some receipt) ⟨.ambiguous, ""⟩ = resolveReceipt .sqlite (some receipt) ⟨.ambiguous, ""⟩ := by
              simp [resolveReceipt, changed]
            rw [same]
        · rfl
    · rfl
  | resolve publisher fault =>
    dsimp only [step]
    split
    · next key outcome _ => rw [(resolve_stored world key fault outcome).1]
    · rfl
  | _ => rfl

end Coordinator.CommentPublication
