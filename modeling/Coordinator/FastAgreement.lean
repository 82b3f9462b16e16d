import Coordinator.FastCommands

/-! Where the two ways of the fast commands agree: each command line with a request is parsed to the same command, unless the
parser takes one of its arguments for an option. -/

namespace Coordinator.FastCommands
open Kit Kit.Argparse Receipts

/-! Command lines of options in pairs. -/

theorem pairsOf_eq_some {rest : List String} {pairs : List (String × String)} : pairsOf rest = some pairs ↔ rest = flat pairs := by
  constructor
  · intro read
    fun_induction pairsOf rest generalizing pairs with
    | case1 =>
      cases read
      rfl
    | case2 name => cases read
    | case3 name value others ih =>
      obtain ⟨later, read_, rfl⟩ := Option.map_eq_some_iff.mp read
      rw [ih read_]
      rfl
  · rintro rfl
    induction pairs with
    | nil => rfl
    | cons pair rest ih =>
      change (pairsOf (flat rest)).map (pair :: ·) = _
      rw [ih]
      rfl

section ways

variable {argv : List String} {request : Json} {parser : Parser Json} {action task : String} {pairs : List (String × String)} {call : Call}

theorem isArgument_task (dash : Text.hasPrefix "-" task = false) (strings : List String) : isArgument strings task = true := by
  have other : task ≠ "--" := by
    rintro rfl
    revert dash
    decide
  rw [isArgument, parseOptional, dash]
  simpa using other

theorem directCall_pairs (known : parserOf action = some parser) (single : parser.positionals = 1)
    (dash : Text.hasPrefix "-" task = false) (spelled : ∀ pair ∈ pairs, parser.Spelled pair.1) :
    directCall ("fast" :: action :: task :: flat pairs) = some call ↔
      (∀ pair ∈ pairs, isArgument parser.strings pair.2 = true) ∧
        ∃ parsed, pairs.foldlM (fun parsed pair => parser.store pair.1 pair.2 parsed) ⟨[task], []⟩ = some parsed ∧
          parser.complete parsed = true ∧ dispatchFast action parsed = some call := by
  rw [directCall, known]
  simp only [Option.bind_eq_bind, Option.bind_some, Option.bind_eq_some_iff,
    Parser.parse_pairs single (isArgument_task dash parser.strings) spelled]
  constructor
  · rintro ⟨parsed, ⟨plain, folded, complete⟩, dispatched⟩
    exact ⟨plain, parsed, folded, complete, dispatched⟩
  · rintro ⟨plain, parsed, folded, complete, dispatched⟩
    exact ⟨parsed, ⟨plain, folded, complete⟩, dispatched⟩

theorem plain_pairs (known : parserOf action = some parser) (other : action ≠ "receipt" ∧ action ≠ "observe") :
    Plain ("fast" :: action :: task :: flat pairs) ↔ ∀ pair ∈ pairs, isArgument parser.strings pair.2 = true := by
  have arguments_ : argumentsOf ("fast" :: action :: task :: flat pairs) = pairs.map Prod.snd := by
    unfold argumentsOf
    split
    next same =>
      simp only [List.cons.injEq] at same
      exact absurd same.2.1 other.1
    next same =>
      simp only [List.cons.injEq] at same
      exact absurd same.2.1 other.2
    next same =>
      simp only [List.cons.injEq] at same
      obtain ⟨-, -, -, rfl⟩ := same
      rw [pairsOf_eq_some.mpr rfl]
      rfl
    next none_ => exact absurd rfl (none_ _ _ _)
  have parsers : (("fast" :: action :: task :: flat pairs)[1]?).bind parserOf = some parser := known
  rw [Plain, parsers, arguments_]
  simp only [Option.mem_def, Option.some.injEq, forall_eq', List.forall_mem_map]

/-- The two ways agree on plain command lines, and on those that no store accepts. -/
theorem agrees_iff (server : ∀ store receiptId now effect,
      (serverCall request >>= Call.run store receiptId now) = .ok effect ↔ call.run store receiptId now = .ok effect)
    (direct : ∀ store receiptId now effect, (∃ other, directCall argv = some other ∧ other.run store receiptId now = .ok effect) ↔
      Plain argv ∧ call.run store receiptId now = .ok effect)
    (possible : call.Possible ↔ Fits request = true) : Agrees argv request ↔ (Plain argv ∨ Fits request = false) := by
  have agree : Agrees argv request ↔ (call.Possible → Plain argv) := by
    constructor
    · rintro agrees ⟨store, receiptId, now, effect, accepted⟩
      exact ((direct ..).mp ((agrees ..).mp ((server ..).mpr accepted))).1
    · intro plain store receiptId now effect
      rw [server, direct]
      exact ⟨fun accepted => ⟨plain ⟨store, receiptId, now, effect, accepted⟩, accepted⟩, And.right⟩
  rw [agree, possible, imp_iff_or_not, Bool.not_eq_true]

/-- The same for requests that the server refuses and command lines that the parser does. -/
theorem agrees_never (server : ∀ store receiptId now effect, (serverCall request >>= Call.run store receiptId now) ≠ .ok effect)
    (direct : directCall argv = none) (possible : Fits request = false) : Agrees argv request ↔ (Plain argv ∨ Fits request = false) := by
  refine iff_of_true (fun store receiptId now effect => iff_of_false (server _ _ _ _) ?_) (.inr possible)
  rintro ⟨other, found, -⟩
  rw [direct] at found
  cases found

/-- Pairs that are complete and can be converted make one command, if they are plain. -/
theorem direct_iff (known : parserOf action = some parser) (single : parser.positionals = 1)
    (other : action ≠ "receipt" ∧ action ≠ "observe") (dash : Text.hasPrefix "-" task = false)
    (spelled : ∀ pair ∈ pairs, parser.Spelled pair.1)
    (converts : ∀ pair ∈ pairs, (parser.converted pair.1 pair.2).isSome = true)
    (complete : ∀ option ∈ parser.options, option.required = true → option.name ∈ pairs.map Prod.fst)
    (dispatched : ∀ parsed : Parsed Json, parsed.positionals = [task] →
      (∀ name, parsed.get? name = (lookup pairs name).bind (parser.converted name)) → dispatchFast action parsed = some call)
    (made : Call) : directCall ("fast" :: action :: task :: flat pairs) = some made ↔
      Plain ("fast" :: action :: task :: flat pairs) ∧ made = call := by
  rw [directCall_pairs known single dash spelled, plain_pairs known other]
  refine and_congr_right fun _ => ?_
  obtain ⟨parsed, folded⟩ : ∃ parsed, pairs.foldlM (fun parsed pair => parser.store pair.1 pair.2 parsed)
      (⟨[task], []⟩ : Parsed Json) = some parsed := Parser.foldlM_store_isSome.mpr converts
  obtain ⟨positionals, values⟩ := Parser.foldlM_store folded
  have value (name : String) : parsed.get? name = (lookup pairs name).bind (parser.converted name) := by
    rw [values]
    cases lookup pairs name <;> rfl
  have call_ := dispatched parsed positionals value
  have complete_ : parser.complete parsed = true := by
    rw [Parser.complete, positionals, single, Bool.and_eq_true, List.all_eq_true]
    refine ⟨rfl, fun option member => ?_⟩
    cases needed : option.required with
    | false => rfl
    | true =>
      obtain ⟨given, found⟩ := Option.isSome_iff_exists.mp (lookup_isSome.mpr (complete option member needed))
      rw [value, found]
      exact converts _ (mem_of_lookup found)
  constructor
  · rintro ⟨again, folded_, -, made_⟩
    rw [folded, Option.some.injEq] at folded_
    rw [← folded_, call_, Option.some.injEq] at made_
    exact made_.symm
  · rintro rfl
    exact ⟨parsed, folded, complete_, call_⟩

theorem lookup_valueOf {name : String} (given : name ∈ pairs.map Prod.fst) : lookup pairs name = some (valueOf pairs name) := by
  obtain ⟨value, found⟩ := Option.isSome_iff_exists.mp (lookup_isSome.mpr given)
  rw [valueOf, found]
  rfl

theorem spelled_all {names : List String} (spells : names.all parser.spells = true) (within : ∀ pair ∈ pairs, pair.1 ∈ names) :
    ∀ pair ∈ pairs, parser.Spelled pair.1 := fun pair member =>
  Parser.spelled_of_spells (List.all_eq_true.mp spells pair.1 (within pair member))

/-- Three names in three pairs are given once each. -/
theorem promote_distinct (three : (pairs.map Prod.fst).length = 3) (all_ : ∀ name ∈ promoteNames, name ∈ pairs.map Prod.fst) :
    (pairs.map Prod.fst).Nodup := by
  have some_ : promoteNames.Nodup := by decide
  have perm : promoteNames.Perm (pairs.map Prod.fst) := (List.subperm_of_subset some_ all_).perm_of_length_le three.le
  exact perm.nodup_iff.mp some_

/-- A server that takes a command under a condition that every store makes runs it as such. -/
theorem server_iff {good : Prop} (served : ∀ made, serverCall request = .ok made ↔ made = call ∧ good) (needed : call.Possible → good)
    (store : Store) (receiptId : String) (now : Nat) (effect : Effect) :
    (serverCall request >>= Call.run store receiptId now) = .ok effect ↔ call.run store receiptId now = .ok effect := by
  constructor
  · intro accepted
    obtain ⟨made, taken, run⟩ := bind_eq_ok.mp accepted
    obtain ⟨rfl, -⟩ := (served made).mp taken
    exact run
  · intro run
    rw [(served call).mpr ⟨rfl, needed ⟨store, receiptId, now, effect, run⟩⟩]
    exact run

theorem run_iff (direct : ∀ made, directCall argv = some made ↔ Plain argv ∧ made = call) (store : Store) (receiptId : String)
    (now : Nat) (effect : Effect) : (∃ other, directCall argv = some other ∧ other.run store receiptId now = .ok effect) ↔
      Plain argv ∧ call.run store receiptId now = .ok effect := by
  simp only [direct, and_assoc, exists_and_left, exists_eq_left]

theorem promote_spells : promoteNames.all promoteParser.spells = true := by decide

/-- The names of the pairs, as a client tests them. -/
theorem forall_pair {names : List String} : (pairs.map Prod.fst).all names.contains = true ↔ ∀ pair ∈ pairs, pair.1 ∈ names := by
  simp only [List.all_eq_true, List.contains_iff_mem, List.forall_mem_map]

theorem forall_name {names : List String} : names.all (pairs.map Prod.fst).contains = true ↔ ∀ name ∈ names, name ∈ pairs.map Prod.fst := by
  simp only [List.all_eq_true, List.contains_iff_mem]

theorem length_flat : (flat pairs).length = 2 * (pairs.map Prod.fst).length := by
  induction pairs with
  | nil => rfl
  | cons pair rest ih =>
    change (flat rest).length + 2 = _
    rw [ih, List.map_cons, List.length_cons]
    omega

/-- Options that a parser requires are among the names that a client requires. -/
theorem required_given {names : List String} (required : parser.options.all (fun option => !option.required || names.contains option.name) = true)
    (all_ : ∀ name ∈ names, name ∈ pairs.map Prod.fst) : ∀ option ∈ parser.options, option.required = true →
      option.name ∈ pairs.map Prod.fst := by
  intro option member needed
  have among := List.all_eq_true.mp required option member
  rw [needed, Bool.not_true, Bool.false_or, List.contains_iff_mem] at among
  exact all_ _ among

theorem promote_agrees {rest : List String} (requested : promoteRequest task rest = some request) :
    Agrees ("fast" :: "promote" :: task :: rest) request ↔ (Plain ("fast" :: "promote" :: task :: rest) ∨ Fits request = false) := by
  rw [promoteRequest, Option.ite_none_left_eq_some, not_or, not_not, Bool.not_eq_true] at requested
  obtain ⟨⟨long, dash⟩, requested⟩ := requested
  simp only [Option.bind_eq_bind, Option.bind_eq_some_iff, Option.ite_none_left_eq_some, Option.some.injEq] at requested
  obtain ⟨pairs, read, names, revision, read_, rfl⟩ := requested
  obtain rfl := pairsOf_eq_some.mp read
  rw [Bool.not_eq_true, Bool.not_eq_false', Bool.and_eq_true, forall_pair, forall_name] at names
  obtain ⟨within, all_⟩ := names
  have distinct : (pairs.map Prod.fst).Nodup := promote_distinct (by rw [length_flat] at long; omega) all_
  have revision_ : lookup pairs "--expected-revision" = some (valueOf pairs "--expected-revision") := lookup_valueOf (all_ _ (by decide))
  have note : lookup pairs "--note" = some (valueOf pairs "--note") := lookup_valueOf (all_ _ (by decide))
  have key : lookup pairs "--key" = some (valueOf pairs "--key") := lookup_valueOf (all_ _ (by decide))
  refine @agrees_iff _ _ (.promote (valueOf pairs "--key") task revision (valueOf pairs "--note")) (fun _ _ _ _ => Iff.rfl)
    (run_iff (direct_iff rfl rfl (by decide) dash (spelled_all promote_spells within) ?_ ?_ ?_)) ?_
  · intro pair member
    have value := (lookup_eq_some distinct).mpr member
    have own := within pair member
    simp only [promoteNames, List.mem_cons, List.not_mem_nil, or_false] at own
    obtain own | own | own := own <;> rw [own] at value ⊢
    · rw [revision_, Option.some.injEq] at value
      simp [Parser.converted, Parser.find, promoteParser, integer, ← value, read_]
    · simp [Parser.converted, Parser.find, promoteParser, anyText]
    · simp [Parser.converted, Parser.find, promoteParser, anyText]
  · exact required_given (by decide) all_
  · intro parsed positionals value
    simp only [dispatchFast, positionals, value, revision_, note, key, Option.bind_some]
    simp [Parser.converted, Parser.find, promoteParser, integer, anyText, read_, Json.exactInt?, Json.text]
  · have fits (key note : String) : Fits (.obj [("protocol", .int 1), ("action", .str "promote"), ("task", .str task),
        ("expected_revision", .int revision), ("note", .str note), ("key", .str key)]) =
      (isToken key && isToken task && decide (1 ≤ revision) && noteFits note) := rfl
    rw [promote_possible, fits]
    simp only [Bool.and_eq_true, decide_eq_true_eq, and_assoc]

/-- What the client has read of a heartbeat or a claim. -/
structure Leased (task : String) (pairs : List (String × String)) (revision lease : Int) (workerPid workerStartTime : Option Int) : Prop where
  dash : Text.hasPrefix "-" task = false
  distinct : (pairs.map Prod.fst).Nodup
  within : ∀ pair ∈ pairs, pair.1 ∈ leaseNames
  given : ∀ name ∈ ["--owner", "--expected-revision", "--key"], name ∈ pairs.map Prod.fst
  revisionRead : readInt (valueOf pairs "--expected-revision") = some revision
  leaseRead : readInt ((lookup pairs "--lease-minutes").getD "120") = some lease
  pidRead : optionalInt pairs "--worker-pid" = some workerPid
  startRead : optionalInt pairs "--worker-start-time" = some workerStartTime
  both : workerPid.isSome = workerStartTime.isSome

/-- The request of a heartbeat or a claim. -/
def leaseJson (action task owner : String) (revision lease : Int) (key : String) (workerPid workerStartTime : Option Int) : Json :=
  .obj (([("protocol", .int 1), ("action", .str action), ("task", .str task), ("owner", .str owner), ("expected_revision", .int revision),
    ("lease_minutes", .int lease), ("key", .str key)] : Dict) ++ (workerPid.map fun n => ("worker_pid", Json.int n)).toList ++
      (workerStartTime.map fun n => ("worker_start_time", Json.int n)).toList)

theorem lease_requested {rest : List String} (requested : leaseRequest action task rest = some request) :
    ∃ pairs revision lease workerPid workerStartTime, rest = flat pairs ∧ Leased task pairs revision lease workerPid workerStartTime ∧
      request = leaseJson action task (valueOf pairs "--owner") revision lease (valueOf pairs "--key") workerPid workerStartTime := by
  rw [leaseRequest, Option.ite_none_left_eq_some, not_or, Bool.not_eq_true] at requested
  obtain ⟨⟨-, dash⟩, requested⟩ := requested
  simp only [Option.bind_eq_bind, Option.bind_eq_some_iff, Option.ite_none_left_eq_some, Option.some.injEq] at requested
  obtain ⟨pairs, read, names, revision, revision_, lease, lease_, workerPid, pid, workerStartTime, started, identity, worker, rfl⟩ :=
    requested
  rw [Bool.not_eq_true, Bool.not_eq_false', Bool.and_eq_true, Bool.and_eq_true, decide_eq_true_eq, forall_pair, forall_name] at names
  obtain ⟨⟨distinct, within⟩, given⟩ := names
  refine ⟨pairs, revision, lease, workerPid, workerStartTime, pairsOf_eq_some.mp read,
    ⟨dash, distinct, within, given, revision_, lease_, pid, started, ?_⟩, ?_⟩
  · cases workerPid <;> cases workerStartTime <;> first | rfl | cases worker
  · cases workerPid <;> cases workerStartTime <;> cases worker <;> rfl

theorem optionalInt_eq_some {name : String} {number : Option Int} (read : optionalInt pairs name = some number) :
    (lookup pairs name).bind readInt = number ∧ ∀ value, lookup pairs name = some value → (readInt value).isSome = true := by
  unfold optionalInt at read
  cases found : lookup pairs name with
  | none =>
    rw [found] at read
    cases read
    exact ⟨rfl, nofun⟩
  | some value =>
    rw [found, Option.map_eq_some_iff] at read
    obtain ⟨n, read_, rfl⟩ := read
    refine ⟨by rw [Option.bind_some, read_], fun other same => ?_⟩
    cases same
    rw [read_]
    rfl

/-- An integer that a parser has converted is the one that a client reads. -/
theorem bind_integer {given : Option String} : (given.bind integer).bind Json.exactInt? = given.bind readInt := by
  cases given with
  | none => rfl
  | some value =>
    rw [Option.bind_some, integer, Option.bind_some]
    cases readInt value <;> rfl

theorem Leased.lease_eq {revision lease : Int} {workerPid workerStartTime : Option Int}
    (leased : Leased task pairs revision lease workerPid workerStartTime) :
    ((lookup pairs "--lease-minutes").bind readInt).getD 120 = lease := by
  have read := leased.leaseRead
  cases found : lookup pairs "--lease-minutes" with
  | none =>
    have usual : readInt "120" = some 120 := by decide
    rw [found, Option.getD_none, usual, Option.some.injEq] at read
    exact read
  | some value =>
    rw [found, Option.getD_some] at read
    rw [Option.bind_some, read, Option.getD_some]

section values

variable {parsed : Parsed Json} {name : String}

theorem text_given (value : parsed.get? name = (lookup pairs name).bind (parser.converted name)) (kept : parser.converted name = anyText)
    (given : name ∈ pairs.map Prod.fst) : parsed.get? name = some (.str (valueOf pairs name)) := by
  rw [value, lookup_valueOf given, kept]
  rfl

theorem number_given (value : parsed.get? name = (lookup pairs name).bind (parser.converted name)) (kept : parser.converted name = integer) :
    (parsed.get? name).bind Json.exactInt? = (lookup pairs name).bind readInt := by
  rw [value, kept, bind_integer]

end values

/-- A parser that keeps the options of a lease as texts and integers. -/
structure KeepsLease (parser : Parser Json) : Prop where
  owner : parser.converted "--owner" = anyText
  key : parser.converted "--key" = anyText
  revision : parser.converted "--expected-revision" = integer
  lease : parser.converted "--lease-minutes" = integer

section leases

variable {revision lease : Int} {workerPid workerStartTime : Option Int}

theorem Leased.converts (leased : Leased task pairs revision lease workerPid workerStartTime) (keeps : KeepsLease parser)
    (worker : ∀ pair ∈ pairs, pair.1 = "--worker-pid" ∨ pair.1 = "--worker-start-time" → (parser.converted pair.1 pair.2).isSome = true) :
    ∀ pair ∈ pairs, (parser.converted pair.1 pair.2).isSome = true := by
  intro pair member
  have value := (lookup_eq_some leased.distinct).mpr member
  have own := leased.within pair member
  simp only [leaseNames, List.mem_cons, List.not_mem_nil, or_false] at own
  obtain own | own | own | own | own | own := own
  · rw [own, keeps.owner]
    rfl
  · have read := leased.revisionRead
    rw [own] at value
    rw [valueOf, value, Option.getD_some] at read
    rw [own, keeps.revision, integer, Option.isSome_map, read]
    rfl
  · have read := leased.leaseRead
    rw [own] at value
    rw [value, Option.getD_some] at read
    rw [own, keeps.lease, integer, Option.isSome_map, read]
    rfl
  · exact worker pair member (.inl own)
  · exact worker pair member (.inr own)
  · rw [own, keeps.key]
    rfl

theorem Leased.kept (leased : Leased task pairs revision lease workerPid workerStartTime) (keeps : KeepsLease parser) {parsed : Parsed Json}
    (value : ∀ name, parsed.get? name = (lookup pairs name).bind (parser.converted name)) :
    parsed.get? "--key" = some (.str (valueOf pairs "--key")) ∧ parsed.get? "--owner" = some (.str (valueOf pairs "--owner")) ∧
      (parsed.get? "--expected-revision").bind Json.exactInt? = some revision ∧
        ((parsed.get? "--lease-minutes").bind Json.exactInt?).getD 120 = lease := by
  refine ⟨text_given (value _) keeps.key (leased.given _ (by decide)), text_given (value _) keeps.owner (leased.given _ (by decide)), ?_, ?_⟩
  · rw [number_given (value _) keeps.revision, lookup_valueOf (leased.given _ (by decide)), Option.bind_some, leased.revisionRead]
  · rw [number_given (value _) keeps.lease, leased.lease_eq]

end leases

theorem claim_spells : leaseNames.all claimParser.spells = true := by decide

/-- The server takes a claim whose worker is identified, or has none. -/
theorem claim_served {owner key : String} {revision lease : Int} {workerPid workerStartTime : Option Int}
    (both : workerPid.isSome = workerStartTime.isSome) :
    serverCall (leaseJson "claim" task owner revision lease key workerPid workerStartTime) = .ok call ↔
      call = .claim key task owner revision lease workerPid workerStartTime ∧ workerFits workerPid workerStartTime := by
  cases workerPid with
  | none =>
    cases workerStartTime with
    | none =>
      have served : serverCall (leaseJson "claim" task owner revision lease key none none) =
        .ok (.claim key task owner revision lease none none) := rfl
      rw [served, Except.ok.injEq, eq_comm]
      exact ⟨fun same => ⟨same, .inl ⟨rfl, rfl⟩⟩, And.left⟩
    | some started => cases both
  | some pid =>
    cases workerStartTime with
    | none => cases both
    | some started =>
      have required : requireRequest (leaseJson "claim" task owner revision lease key (some pid) (some started)) = (do
        raiseIf (!decide (0 < pid) || !decide (0 ≤ started)) (.runtimeError "invalid fast claim request fields")
        pure (leaseJson "claim" task owner revision lease key (some pid) (some started))) := rfl
      have identified : workerFits (some pid) (some started) ↔ (!decide (0 < pid) || !decide (0 ≤ started)) = false := by
        simp [workerFits]
      rw [serverCall, bind_eq_ok, identified]
      simp only [required, raiseIf_bind_ok, pure_eq_ok]
      constructor
      · rintro ⟨_, ⟨fits, rfl⟩, made⟩
        exact ⟨made.symm, fits⟩
      · rintro ⟨rfl, fits⟩
        exact ⟨_, ⟨fits, rfl⟩, rfl⟩

theorem claim_fits {owner key : String} {revision lease : Int} {workerPid workerStartTime : Option Int}
    (both : workerPid.isSome = workerStartTime.isSome) :
    Fits (leaseJson "claim" task owner revision lease key workerPid workerStartTime) = true ↔
      isToken key = true ∧ isToken task = true ∧ isToken owner = true ∧ 1 ≤ revision ∧ 1 ≤ lease ∧ lease ≤ 1440 ∧
        workerFits workerPid workerStartTime := by
  have fits : Fits (leaseJson "claim" task owner revision lease key workerPid workerStartTime) =
      (isToken key && isToken task && isToken owner && decide (1 ≤ revision) && decide (1 ≤ lease) && !decide (1441 ≤ lease) &&
        (!workerPid.isSome || (workerPid.any (1 ≤ ·) && workerStartTime.any (0 ≤ ·)))) := by
    cases workerPid <;> cases workerStartTime <;> rfl
  have worker : (!workerPid.isSome || (workerPid.any (1 ≤ ·) && workerStartTime.any (0 ≤ ·))) = true ↔
      workerFits workerPid workerStartTime := by
    unfold workerFits
    cases workerPid with
    | none =>
      cases workerStartTime with
      | none => simp
      | some started => cases both
    | some pid =>
      cases workerStartTime with
      | none => cases both
      | some started => simp [← Int.add_one_le_iff]
  have short : lease < 1441 ↔ lease ≤ 1440 := by omega
  rw [fits]
  simp only [Bool.and_eq_true, worker, decide_eq_true_eq, Bool.not_eq_true', decide_eq_false_iff_not, not_le, short, and_assoc]

theorem claim_keeps : KeepsLease claimParser := by
  constructor <;> funext text <;> simp [Parser.converted, Parser.find, claimParser]

theorem claim_worker {name : String} (worker : name = "--worker-pid" ∨ name = "--worker-start-time") :
    claimParser.converted name = integer := by
  funext text
  obtain rfl | rfl := worker <;> simp [Parser.converted, Parser.find, claimParser]

theorem claim_agrees {rest : List String} (requested : leaseRequest "claim" task rest = some request) :
    Agrees ("fast" :: "claim" :: task :: rest) request ↔ (Plain ("fast" :: "claim" :: task :: rest) ∨ Fits request = false) := by
  obtain ⟨pairs, revision, lease, workerPid, workerStartTime, rfl, leased, rfl⟩ := lease_requested requested
  obtain ⟨pid, pidReads⟩ := optionalInt_eq_some leased.pidRead
  obtain ⟨started, startReads⟩ := optionalInt_eq_some leased.startRead
  refine @agrees_iff _ _ (.claim (valueOf pairs "--key") task (valueOf pairs "--owner") revision lease workerPid workerStartTime)
    (server_iff (fun _ => claim_served leased.both) fun possible => (claim_possible.mp possible).2.2.2.2.2.2)
    (run_iff (direct_iff rfl rfl (by decide) leased.dash (spelled_all claim_spells leased.within) ?_ (required_given (by decide) leased.given) ?_)) ?_
  · refine leased.converts claim_keeps fun pair member worker => ?_
    have value := (lookup_eq_some leased.distinct).mpr member
    rw [claim_worker worker, integer, Option.isSome_map]
    obtain own | own := worker
    · exact pidReads _ (own ▸ value)
    · exact startReads _ (own ▸ value)
  · intro parsed positionals value
    obtain ⟨key, owner, revision_, lease_⟩ := leased.kept claim_keeps value
    simp only [dispatchFast, positionals]
    rw [key, owner, revision_, lease_, number_given (value _) (claim_worker (.inl rfl)), number_given (value _) (claim_worker (.inr rfl)),
      pid, started]
    rfl
  · rw [claim_possible, claim_fits leased.both]

/-- The parser of a heartbeat knows no worker. -/
theorem heartbeat_worker (worker : "--worker-pid" ∈ pairs.map Prod.fst) (dash : Text.hasPrefix "-" task = false)
    (spelled : ∀ pair ∈ pairs, heartbeatParser.Spelled pair.1) : directCall ("fast" :: "heartbeat" :: task :: flat pairs) = none := by
  refine Option.eq_none_iff_forall_ne_some.mpr fun made direct => ?_
  obtain ⟨-, parsed, folded, -⟩ := (directCall_pairs rfl rfl dash spelled).mp direct
  obtain ⟨pair, member, own⟩ := List.mem_map.mp worker
  have converted := Parser.foldlM_store_isSome.mp ⟨parsed, folded⟩ pair member
  rw [own] at converted
  simp [Parser.converted, Parser.find, heartbeatParser] at converted

theorem optionalInt_given {name : String} {number : Option Int} (read : optionalInt pairs name = some number) :
    name ∈ pairs.map Prod.fst ↔ number.isSome = true := by
  obtain ⟨value, reads⟩ := optionalInt_eq_some read
  rw [← lookup_isSome, ← value]
  cases found : lookup pairs name with
  | none => rfl
  | some given =>
    rw [Option.bind_some]
    exact iff_of_true rfl (reads given found)

theorem heartbeat_spells : leaseNames.all heartbeatParser.spells = true := by decide

theorem heartbeat_keeps : KeepsLease heartbeatParser := by
  constructor <;> funext text <;> simp [Parser.converted, Parser.find, heartbeatParser]

theorem heartbeat_agrees {rest : List String} (requested : leaseRequest "heartbeat" task rest = some request) :
    Agrees ("fast" :: "heartbeat" :: task :: rest) request ↔ (Plain ("fast" :: "heartbeat" :: task :: rest) ∨ Fits request = false) := by
  obtain ⟨pairs, revision, lease, workerPid, workerStartTime, rfl, leased, rfl⟩ := lease_requested requested
  have spelled := spelled_all heartbeat_spells leased.within
  have both := leased.both
  cases workerPid with
  | some pid =>
    cases workerStartTime with
    | none => cases both
    | some started =>
      -- the server does not take a worker either
      have refused (owner key : String) : serverCall (leaseJson "heartbeat" task owner revision lease key (some pid) (some started)) =
        .error (.runtimeError "invalid fast heartbeat request") := rfl
      refine agrees_never (fun _ _ _ _ accepted => ?_) (heartbeat_worker ?_ leased.dash spelled) (Bool.and_false _)
      · obtain ⟨call, made, -⟩ := bind_eq_ok.mp accepted
        rw [refused] at made
        cases made
      · exact (optionalInt_given leased.pidRead).mpr rfl
  | none =>
    cases workerStartTime with
    | some started => cases both
    | none =>
      refine @agrees_iff _ _ (.heartbeat (valueOf pairs "--key") task (valueOf pairs "--owner") revision lease) (fun _ _ _ _ => Iff.rfl)
        (run_iff (direct_iff rfl rfl (by decide) leased.dash spelled ?_ (required_given (by decide) leased.given) ?_)) ?_
      · refine leased.converts heartbeat_keeps fun pair member worker => ?_
        have given : pair.1 ∈ pairs.map Prod.fst := List.mem_map_of_mem member
        obtain own | own := worker
        · cases (optionalInt_given leased.pidRead).mp (own ▸ given)
        · cases (optionalInt_given leased.startRead).mp (own ▸ given)
      · intro parsed positionals value
        obtain ⟨key, owner, revision_, lease_⟩ := leased.kept heartbeat_keeps value
        simp only [dispatchFast, positionals]
        rw [key, owner, revision_, lease_]
        rfl
      · have fits (owner key : String) : Fits (leaseJson "heartbeat" task owner revision lease key none none) =
          (isToken key && isToken task && isToken owner && decide (1 ≤ revision) && decide (1 ≤ lease) && !decide (1441 ≤ lease) && true) := rfl
        have short : lease < 1441 ↔ lease ≤ 1440 := by omega
        rw [heartbeat_possible, fits]
        simp only [Bool.and_true, Bool.and_eq_true, decide_eq_true_eq, Bool.not_eq_true', decide_eq_false_iff_not, not_le, short, and_assoc]

/-- The changes of a command line in the order of their options. -/
def orderedChanges (pairs : List (String × String)) : Dict :=
  changeNames.filterMap fun name => (lookup pairs name).map fun value => (dest name, .str value)

theorem changes_perm (distinct : (pairs.map Prod.fst).Nodup) : (changesOf pairs).Perm (orderedChanges pairs) := by
  have nodup : (changeNames.filterMap fun name => (lookup pairs name).map fun value => (name, value)).Nodup := by
    refine List.Nodup.filterMap (fun name other pair here there => ?_) (by decide)
    obtain ⟨_, -, rfl⟩ := Option.map_eq_some_iff.mp here
    obtain ⟨_, -, same⟩ := Option.map_eq_some_iff.mp there
    exact (Prod.mk.inj same).1.symm
  have perm : (pairs.filter fun pair => changeNames.contains pair.1).Perm
      (changeNames.filterMap fun name => (lookup pairs name).map fun value => (name, value)) := by
    refine (List.perm_ext_iff_of_nodup ((List.Nodup.of_map _ distinct).filter _) nodup).mpr fun pair => ?_
    rw [List.mem_filter, List.contains_iff_mem, List.mem_filterMap]
    constructor
    · rintro ⟨member, known⟩
      exact ⟨pair.1, known, by rw [(lookup_eq_some distinct).mpr member]; rfl⟩
    · rintro ⟨name, known, found⟩
      obtain ⟨value, found_, rfl⟩ := Option.map_eq_some_iff.mp found
      exact ⟨mem_of_lookup found_, known⟩
  have moved := perm.map fun pair => (dest pair.1, Json.str pair.2)
  rw [List.map_filterMap] at moved
  simp only [Option.map_map] at moved
  exact moved

theorem changes_distinct : (Dict.keys (orderedChanges pairs)).Nodup := by
  have given (names : List String) : Dict.keys (names.filterMap fun name => (lookup pairs name).map fun value => (dest name, .str value)) =
      (names.filter fun name => (lookup pairs name).isSome).map dest := by
    induction names with
    | nil => rfl
    | cons name rest ih =>
      cases found : lookup pairs name with
      | none => simp [found, ih]
      | some value => simpa [found, Dict.keys] using ih
  have nodup : (changeNames.map dest).Nodup := by decide
  rw [orderedChanges, given]
  exact nodup.sublist (List.filter_sublist.map dest)

theorem update_spells : updateNames.all updateParser.spells = true := by decide

/-- The request of an update. -/
def updateJson (task owner : String) (revision : Int) (changes : Dict) (note key : String) : Json :=
  .obj [("protocol", .int 1), ("action", .str "update"), ("task", .str task), ("owner", .str owner), ("expected_revision", .int revision),
    ("changes", .obj changes), ("note", .str note), ("key", .str key)]

/-- The server takes an update whose changes are valid. -/
theorem update_served {owner key note : String} {revision : Int} {changes : Dict} :
    serverCall (updateJson task owner revision changes note key) = .ok call ↔
      call = .update key task owner revision changes note ∧ (validateUpdateChanges (.obj changes)).isOk = true := by
  have required : requireRequest (updateJson task owner revision changes note key) = (do
    raiseIf (!(validateUpdateChanges (.obj changes)).isOk) (.runtimeError "invalid fast update request fields")
    pure (updateJson task owner revision changes note key)) := rfl
  rw [serverCall, bind_eq_ok]
  simp only [required, raiseIf_bind_ok, pure_eq_ok, Bool.not_eq_false']
  constructor
  · rintro ⟨_, ⟨valid, rfl⟩, made⟩
    exact ⟨made.symm, valid⟩
  · rintro ⟨rfl, valid⟩
    exact ⟨_, ⟨valid, rfl⟩, rfl⟩

theorem update_fits {owner key note : String} {revision : Int} {changes : Dict} :
    Fits (updateJson task owner revision changes note key) = true ↔ isToken key = true ∧ isToken task = true ∧ isToken owner = true ∧
      1 ≤ revision ∧ noteFits note = true ∧ (validateUpdateChanges (.obj changes)).isOk = true := by
  have fits : Fits (updateJson task owner revision changes note key) = (isToken key && isToken task && isToken owner &&
    decide (1 ≤ revision) && noteFits note && (validateUpdateChanges (.obj changes)).isOk) := rfl
  rw [fits]
  simp only [Bool.and_eq_true, decide_eq_true_eq, and_assoc]

/-- The values that valid changes have for the options of few choices. -/
theorem valid_choice {changes : Dict} (valid : (validateUpdateChanges (.obj changes)).isOk = true) :
    (∀ value, Dict.find "status" changes = some (.str value) → statuses.contains value = true) ∧
      ∀ value, Dict.find "priority" changes = some (.str value) → Receipts.priorities.contains value = true := by
  have checked := (raiseIf_bind_ok.mp (validateUpdateChanges_isOk.mp valid)).1
  simp only [Bool.or_eq_false_iff] at checked
  obtain ⟨⟨-, status⟩, priority⟩ := checked
  have has {key value : String} (found : Dict.find key changes = some (.str value)) : (Json.obj changes).has key = true :=
    Option.isSome_iff_exists.mpr ⟨_, found⟩
  have get {key value : String} (found : Dict.find key changes = some (.str value)) : ((Json.obj changes).get key).toText = value := by
    change ((Dict.find key changes).getD .null).toText = value
    rw [found]
    rfl
  constructor
  · intro value found
    rw [has found, Bool.true_and, decide_eq_false_iff_not, not_not, get found] at status
    rw [status]
    decide
  · intro value found
    rw [has found, get found, Bool.true_and, Bool.not_eq_false'] at priority
    exact priority

/-- A change is found under its name. -/
theorem find_changesOf {name value : String} (distinct : (pairs.map Prod.fst).Nodup) (change_ : name ∈ changeNames)
    (found : lookup pairs name = some value) : Dict.find (dest name) (changesOf pairs) = some (.str value) := by
  have perm := changes_perm distinct
  rw [JsonText.find_perm changes_distinct perm.symm]
  have member : (dest name, Json.str value) ∈ orderedChanges pairs := by
    refine List.mem_filterMap.mpr ⟨name, change_, ?_⟩
    rw [found]
    rfl
  exact JsonText.find_of_mem changes_distinct member

/-- Valid changes are no obstacle to the parser. -/
theorem update_converts (distinct : (pairs.map Prod.fst).Nodup) (within : ∀ pair ∈ pairs, pair.1 ∈ updateNames)
    (revision : (readInt (valueOf pairs "--expected-revision")).isSome = true)
    (valid : (validateUpdateChanges (.obj (changesOf pairs))).isOk = true) :
    ∀ pair ∈ pairs, (updateParser.converted pair.1 pair.2).isSome = true := by
  intro pair member
  have value := (lookup_eq_some distinct).mpr member
  have own := within pair member
  have status (given : String) (found : lookup pairs "--status" = some given) : statuses.contains given = true := by
    have name : dest "--status" = "status" := by decide
    have change_ := find_changesOf distinct (by decide) found
    rw [name] at change_
    exact (valid_choice valid).1 given change_
  have priority (given : String) (found : lookup pairs "--priority" = some given) : Receipts.priorities.contains given = true := by
    have name : dest "--priority" = "priority" := by decide
    have change_ := find_changesOf distinct (by decide) found
    rw [name] at change_
    exact (valid_choice valid).2 given change_
  simp only [updateNames, changeNames, List.cons_append, List.nil_append, List.mem_cons, List.not_mem_nil, or_false] at own
  obtain own | own | own | own | own | own | own | own := own <;> rw [own] at value ⊢
  · simp [Parser.converted, Parser.find, updateParser, anyText]
  · rw [valueOf, value, Option.getD_some] at revision
    simpa [Parser.converted, Parser.find, updateParser, integer] using revision
  · have kept : updateParser.converted "--status" pair.2 = choice statuses pair.2 := by
      simp [Parser.converted, Parser.find, updateParser]
    rw [kept, choice, if_pos (status pair.2 value)]
    rfl
  · have kept : updateParser.converted "--priority" pair.2 = choice Receipts.priorities pair.2 := by
      simp [Parser.converted, Parser.find, updateParser]
    rw [kept, choice, if_pos (priority pair.2 value)]
    rfl
  · simp [Parser.converted, Parser.find, updateParser, anyText]
  · simp [Parser.converted, Parser.find, updateParser, anyText]
  · simp [Parser.converted, Parser.find, updateParser, anyText]
  · simp [Parser.converted, Parser.find, updateParser, anyText]

/-- A change that the parser keeps is the text that was given. -/
theorem change_kept {name : String} (converts : ∀ pair ∈ pairs, (updateParser.converted pair.1 pair.2).isSome = true)
    (member : name ∈ changeNames) : (lookup pairs name).bind (updateParser.converted name) = (lookup pairs name).map .str := by
  cases found : lookup pairs name with
  | none => rfl
  | some value =>
    have converted : (updateParser.converted name value).isSome = true := converts (name, value) (mem_of_lookup found)
    have chosen {choices : List String} (made : (choice choices value).isSome = true) : choice choices value = some (.str value) := by
      unfold choice at made ⊢
      split at made
      next known => rw [if_pos known]
      next => cases made
    rw [Option.bind_some, Option.map_some]
    simp only [changeNames, List.mem_cons, List.not_mem_nil, or_false] at member
    obtain rfl | rfl | rfl | rfl := member
    · have kept : updateParser.converted "--status" value = choice statuses value := by
        simp [Parser.converted, Parser.find, updateParser]
      rw [kept] at converted ⊢
      exact chosen converted
    · have kept : updateParser.converted "--priority" value = choice Receipts.priorities value := by
        simp [Parser.converted, Parser.find, updateParser]
      rw [kept] at converted ⊢
      exact chosen converted
    · simp [Parser.converted, Parser.find, updateParser, anyText]
    · simp [Parser.converted, Parser.find, updateParser, anyText]

theorem update_agrees {rest : List String} (requested : updateRequest task rest = some request) :
    Agrees ("fast" :: "update" :: task :: rest) request ↔ (Plain ("fast" :: "update" :: task :: rest) ∨ Fits request = false) := by
  rw [updateRequest, Option.ite_none_left_eq_some, not_or, Bool.not_eq_true] at requested
  obtain ⟨⟨-, dash⟩, requested⟩ := requested
  simp only [Option.bind_eq_bind, Option.bind_eq_some_iff, Option.ite_none_left_eq_some, Option.some.injEq] at requested
  obtain ⟨pairs, read, names, some_, revision, read_, made⟩ := requested
  obtain rfl := pairsOf_eq_some.mp read
  have request_ : request = updateJson task (valueOf pairs "--owner") revision (changesOf pairs) (valueOf pairs "--note")
    (valueOf pairs "--key") := made.symm
  subst request_
  rw [Bool.not_eq_true, Bool.not_eq_false', Bool.and_eq_true, Bool.and_eq_true, decide_eq_true_eq, forall_pair, forall_name] at names
  obtain ⟨⟨distinct, within⟩, given⟩ := names
  by_cases converts : ∀ pair ∈ pairs, (updateParser.converted pair.1 pair.2).isSome = true
  · have direct (made : Call) : directCall ("fast" :: "update" :: task :: flat pairs) = some made ↔
        Plain ("fast" :: "update" :: task :: flat pairs) ∧ made = .update (valueOf pairs "--key") task (valueOf pairs "--owner") revision
          (orderedChanges pairs) (valueOf pairs "--note") := by
      refine direct_iff rfl rfl (by decide) dash (spelled_all update_spells within) converts (required_given (by decide) given) ?_ made
      intro parsed positionals value
      have texts (name : String) (member : name ∈ ["--owner", "--note", "--key"]) : updateParser.converted name = anyText := by
        funext text
        simp only [List.mem_cons, List.not_mem_nil, or_false] at member
        obtain rfl | rfl | rfl := member <;> simp [Parser.converted, Parser.find, updateParser]
      have number : updateParser.converted "--expected-revision" = integer := by
        funext text
        simp [Parser.converted, Parser.find, updateParser]
      have changes : givenChanges parsed = orderedChanges pairs := by
        refine List.filterMap_congr fun name member => ?_
        rw [value, change_kept converts member, Option.map_map]
        rfl
      simp only [dispatchFast, positionals, changes]
      rw [text_given (value "--key") (texts _ (by decide)) (given _ (by decide)),
        text_given (value "--owner") (texts _ (by decide)) (given _ (by decide)),
        text_given (value "--note") (texts _ (by decide)) (given _ (by decide)),
        number_given (value _) number, lookup_valueOf (given "--expected-revision" (by decide)), Option.bind_some, read_]
      rfl
    refine @agrees_iff _ _ (.update (valueOf pairs "--key") task (valueOf pairs "--owner") revision (changesOf pairs) (valueOf pairs "--note"))
      (server_iff (fun _ => update_served) fun possible => (update_possible.mp possible).2.2.2.2.2) (fun store receiptId now effect => ?_) ?_
    · rw [run_iff direct, update_perm changes_distinct (changes_perm distinct).symm]
    · rw [update_possible]
      exact update_fits.symm
  · have invalid : (validateUpdateChanges (.obj (changesOf pairs))).isOk = false := by
      refine Bool.eq_false_iff.mpr fun valid => converts (update_converts distinct within ?_ valid)
      rw [read_]
      rfl
    refine agrees_never (fun _ _ _ _ accepted => ?_) (Option.eq_none_iff_forall_ne_some.mpr fun made direct => ?_) ?_
    · obtain ⟨call, made, -⟩ := bind_eq_ok.mp accepted
      rw [(update_served.mp made).2] at invalid
      cases invalid
    · obtain ⟨-, parsed, folded, -⟩ := (directCall_pairs rfl rfl dash (spelled_all update_spells within)).mp direct
      exact converts (Parser.foldlM_store_isSome.mp ⟨parsed, folded⟩)
    · rw [← Bool.not_eq_true]
      rw [update_fits, invalid]
      rintro ⟨-, -, -, -, -, never⟩
      cases never

theorem direct_receipt {receiptId : String} (made : Call) : directCall ["fast", "receipt", receiptId] = some made ↔
    Plain ["fast", "receipt", receiptId] ∧ made = .receipt receiptId := by
  have plain : Plain ["fast", "receipt", receiptId] ↔ isArgument receiptParser.strings receiptId = true := by
    have parsers : ((["fast", "receipt", receiptId] : List String)[1]?).bind parserOf = some receiptParser := rfl
    rw [Plain, parsers]
    simp [argumentsOf]
  have call_ : directCall ["fast", "receipt", receiptId] = (receiptParser.parse [receiptId]).bind (dispatchFast "receipt") := rfl
  have stored (name value : String) (parsed : Parsed Json) : receiptParser.store name value parsed = none := rfl
  rw [plain, call_]
  by_cases argument : isArgument receiptParser.strings receiptId = true
  · have parsed : receiptParser.parse [receiptId] = some ⟨[receiptId], []⟩ := by
      rw [Parser.parse, Parser.parseFrom_place argument]
      rfl
    rw [parsed, Option.bind_some]
    simp [argument, dispatchFast, eq_comm]
  · have parsed : receiptParser.parse [receiptId] = none := by
      rw [isArgument, Bool.and_eq_true, bne_iff_ne, Bool.not_eq_true', not_and, Bool.not_eq_false] at argument
      rw [Parser.parse, Parser.parseFrom]
      by_cases dashes : receiptId = "--"
      · rw [if_pos (beq_iff_eq.mpr dashes)]
        rfl
      · rw [if_neg (by simpa using dashes), argument dashes, Bool.not_true, if_neg Bool.false_ne_true]
        split
        next name given resolved => rw [stored, Option.filter_none]
        next => rfl
    rw [parsed]
    simp [argument]

theorem receipt_agrees {receiptId : String} : Agrees ["fast", "receipt", receiptId]
    (.obj [("protocol", .int 1), ("action", .str "receipt"), ("receipt_id", .str receiptId)]) ↔
      (Plain ["fast", "receipt", receiptId] ∨ Fits (.obj [("protocol", .int 1), ("action", .str "receipt"), ("receipt_id", .str receiptId)]) = false) :=
  @agrees_iff _ _ (.receipt receiptId) (fun _ _ _ _ => Iff.rfl) (run_iff direct_receipt) receipt_possible

theorem direct_observe {value : String} {maximum : Int} (read : readInt value = some maximum) (made : Call) :
    directCall ["fast", "observe", "--max-age-seconds", value] = some made ↔
      Plain ["fast", "observe", "--max-age-seconds", value] ∧ made = .observe (.int maximum) := by
  have plain : Plain ["fast", "observe", "--max-age-seconds", value] ↔ isArgument observeParser.strings value = true := by
    have parsers : ((["fast", "observe", "--max-age-seconds", value] : List String)[1]?).bind parserOf = some observeParser := rfl
    rw [Plain, parsers]
    simp [argumentsOf, pairsOf]
  have call_ : directCall ["fast", "observe", "--max-age-seconds", value] =
    (observeParser.parse ["--max-age-seconds", value]).bind (dispatchFast "observe") := rfl
  have spelled : observeParser.Spelled "--max-age-seconds" := Parser.spelled_of_spells (by decide)
  have kept : observeParser.store "--max-age-seconds" value ⟨[], []⟩ = some ⟨[], [("--max-age-seconds", .int maximum)]⟩ :=
    Parser.store_eq_some.mpr ⟨.int maximum, by simp [Parser.converted, Parser.find, observeParser, integer, read], rfl⟩
  rw [plain, call_, Parser.parse, Parser.parseFrom_pair spelled, kept]
  by_cases argument : isArgument observeParser.strings value = true
  · rw [if_pos argument, Option.bind_some, Parser.parseFrom]
    have complete : (some (⟨[], [("--max-age-seconds", .int maximum)]⟩ : Parsed Json)).filter observeParser.complete =
      some ⟨[], [("--max-age-seconds", .int maximum)]⟩ := rfl
    have dispatched : dispatchFast "observe" ⟨[], [("--max-age-seconds", .int maximum)]⟩ = some (.observe (.int maximum)) := rfl
    rw [complete, Option.bind_some, dispatched, Option.some.injEq, eq_comm, and_iff_right argument]
  · rw [if_neg argument]
    simp [argument]

theorem observe_agrees {value : String} (requested : observeRequest value = some request) :
    Agrees ["fast", "observe", "--max-age-seconds", value] request ↔
      (Plain ["fast", "observe", "--max-age-seconds", value] ∨ Fits request = false) := by
  simp only [observeRequest, Option.bind_eq_bind, Option.bind_eq_some_iff, Option.ite_none_right_eq_some, Option.some.injEq] at requested
  obtain ⟨maximum, read, valid, rfl⟩ := requested
  have served : serverCall (.obj [("protocol", .int 1), ("action", .str "observe"), ("max_age_seconds", .int maximum)]) =
      .ok (.observe (.int maximum)) := by
    have required : requireRequest (.obj [("protocol", .int 1), ("action", .str "observe"), ("max_age_seconds", .int maximum)]) = (do
      raiseIf (!(FastObservation.validateMaxAge (.int maximum)).isOk) (.runtimeError "invalid fast observation request")
      pure (.obj [("protocol", .int 1), ("action", .str "observe"), ("max_age_seconds", .int maximum)])) := rfl
    rw [serverCall, required, valid]
    rfl
  have possible : (Call.observe (.int maximum)).Possible := by
    cases checked : FastObservation.validateMaxAge (.int maximum) with
    | error message =>
      rw [checked] at valid
      cases valid
    | ok seconds =>
      refine ⟨⟨"", []⟩, "", 0, .observes seconds, ?_⟩
      rw [Call.run, checked]
      rfl
  refine agrees_iff (fun _ _ _ _ => ?_) (run_iff (direct_observe read)) (iff_of_true possible rfl)
  rw [served]
  rfl

/-- The socket and the command line do the same, unless an argument that the client takes is an option for the parser, in a request
that a store takes. -/
theorem socket_direct_agree (argv : List String) (request : Json) (requested : fastRequest argv = some request) :
    Agrees argv request ↔ (Plain argv ∨ Fits request = false) := by
  unfold fastRequest at requested
  split at requested
  next receiptId =>
    cases requested
    exact receipt_agrees
  next value => exact observe_agrees requested
  next task rest => exact promote_agrees requested
  next task rest => exact update_agrees requested
  next task rest => exact heartbeat_agrees requested
  next task rest => exact claim_agrees requested
  next => cases requested

end ways

section samples

def noteArgv (note : String) : List String := ["fast", "promote", "AR-0001", "--note", note, "--key", "k1", "--expected-revision", "3"]

def noteRequest (note : String) : Json :=
  .obj [("protocol", .int 1), ("action", .str "promote"), ("task", .str "AR-0001"), ("expected_revision", .int 3), ("note", .str note),
    ("key", .str "k1")]

theorem note_requested (note : String) : fastRequest (noteArgv note) = some (noteRequest note) := by
  have revision : readInt "3" = some 3 := by decide
  change promoteRequest "AR-0001" ["--note", note, "--key", "k1", "--expected-revision", "3"] = _
  simp [promoteRequest, pairsOf, promoteNames, valueOf, lookup, revision, noteRequest]
  decide

theorem socket_direct_sample : Agrees (noteArgv "ok") (noteRequest "ok") := by
  have plain : ∀ value ∈ argumentsOf (noteArgv "ok"), isArgument promoteParser.strings value = true := by decide
  refine (socket_direct_agree _ _ (note_requested "ok")).mpr (.inl fun parser known => ?_)
  cases known
  exact plain

/-- A note that begins like an option goes through the socket, and is an error on the command line. -/
theorem dashed_note_diverges : fastRequest (noteArgv "-x") = some (noteRequest "-x") ∧
    (serverCall (noteRequest "-x") >>= Call.run ⟨"p", []⟩ "00000000000000000000000000000000" 0).isOk = true ∧
      directCall (noteArgv "-x") = none := by
  refine ⟨note_requested "-x", by decide, Option.isNone_iff_eq_none.mp ?_⟩
  decide

end samples

end Coordinator.FastCommands
