import AshlrHub.Lib.KeyedMerge
import AshlrHub.Universe.PaymentBrokerOutcome

namespace AshlrHub.Universe

open Js Lib Authority

/-! An action that has had its effect is only replayed, however much later. -/

variable {policy : PaymentBrokerPolicy} {pinnedPolicy : JsString}
  {state next : PaymentBrokerState} {entry after : PaymentBrokerEntry}
  {input : PaymentBrokerAction} {verdict : Verdict}

/-! From one ledger to a later one. -/

def Grows (state next : PaymentBrokerState) : Prop :=
  ∀ requestId entry, state.find requestId = some entry →
    ∃ after, next.find requestId = some after ∧ Follows entry after

theorem Grows.of_entries (kept : next.entries = state.entries) : Grows state next := by
  intro requestId entry found
  refine ⟨entry, ?_, .same entry⟩
  unfold PaymentBrokerState.find at found ⊢
  rw [kept]
  exact found

instance : IsPreorder PaymentBrokerState Grows where
  refl _ := .of_entries rfl
  trans _ _ _ earlier later requestId _ found := by
    obtain ⟨middle, found, first⟩ := earlier requestId _ found
    obtain ⟨last, found, second⟩ := later requestId middle found
    exact ⟨last, found, first.trans second⟩

variable {requestId : JsString}

theorem find?_replaced (named : after.request.requestId = requestId) (other : JsString) :
    {entries : List PaymentBrokerEntry} →
    (entries.find? fun item => item.request.requestId = requestId) = some entry →
    ((replaceEntry requestId after entries).find? fun item => item.request.requestId = other) =
      if other = requestId then some after
      else entries.find? fun item => item.request.requestId = other
  | [], found => by cases found
  | item :: entries, found => by
      rw [List.find?_cons] at found
      rw [replaceEntry]
      by_cases same : item.request.requestId = requestId
      · rw [if_pos same, List.find?_cons, List.find?_cons, named, same]
        by_cases asked : other = requestId
        · rw [if_pos asked, decide_eq_true asked.symm]
        · rw [if_neg asked, decide_eq_false (Ne.symm asked)]
      · rw [decide_eq_false same] at found
        rw [if_neg same, List.find?_cons, List.find?_cons, find?_replaced named other found]
        by_cases asked : other = requestId
        · rw [if_pos asked, if_pos asked, asked, decide_eq_false same]
        · rw [if_neg asked, if_neg asked]

theorem find_placed (named : after.request.requestId = requestId)
    (found : state.find requestId = some entry)
    (placed : next.entries = replaceEntry requestId after state.entries) (other : JsString) :
    next.find other = if other = requestId then some after else state.find other := by
  unfold PaymentBrokerState.find at found ⊢
  rw [placed]
  exact find?_replaced named other found

theorem find_added {added : PaymentBrokerEntry} (placed : next.entries = state.entries ++ [added]) :
    next.find requestId = (state.find requestId).or
      (if added.request.requestId = requestId then some added else none) := by
  unfold PaymentBrokerState.find
  rw [placed, List.find?_append, List.find?_singleton]
  simp only [decide_eq_true_eq]

theorem Outcome.grows (outcome : Outcome pinnedPolicy state input verdict) :
    Grows state verdict.state := by
  cases outcome with
  | rejected _ kept => exact .of_entries kept
  | replayed _ _ _ kept _ _ => exact .of_entries kept
  | recorded _ _ _ _ added _ _ =>
      intro requestId entry found
      refine ⟨entry, ?_, .same entry⟩
      rw [find_added added, found, Option.some_or]
  | @changed entry after found bound follows effect placed status opened =>
      intro requestId other stands
      have named : after.request.requestId = input.requestId := by
        rw [follows.request, find_requestId found]
      rw [find_placed named found placed]
      by_cases asked : requestId = input.requestId
      · rw [if_pos asked]
        rw [asked, found] at stands
        cases stands
        exact ⟨after, rfl, follows⟩
      · rw [if_neg asked]
        exact ⟨other, stands, .same other⟩

theorem Outcome.took (outcome : Outcome pinnedPolicy state input verdict)
    (accepted : verdict.decision ≠ .rejected) : Took pinnedPolicy input verdict.state := by
  cases outcome with
  | rejected refused _ => exact absurd refused accepted
  | @replayed entry found bound effect kept _ _ =>
      refine ⟨entry, ?_, bound, effect⟩
      unfold PaymentBrokerState.find at found ⊢
      rw [kept]
      exact found
  | @recorded entry absent named bound effect added _ _ =>
      refine ⟨entry, ?_, bound, effect⟩
      rw [find_added added, absent, named, if_pos rfl, Option.none_or]
  | @changed entry after found bound follows effect placed _ _ =>
      refine ⟨after, ?_, follows.digest.trans bound, effect⟩
      have named : after.request.requestId = input.requestId := by
        rw [follows.request, find_requestId found]
      rw [find_placed named found placed, if_pos rfl]

theorem Took.later (took : Took pinnedPolicy input state) (grows : Grows state next) :
    Took pinnedPolicy input next := by
  obtain ⟨entry, found, bound, effect⟩ := took
  obtain ⟨after, stands, follows⟩ := grows _ entry found
  exact ⟨after, stands, follows.digest.trans bound, effect.later follows⟩

/-! The same action at another time. -/

def PaymentBrokerAction.at_ (nowMs : ℕ) : PaymentBrokerAction → PaymentBrokerAction
  | .request _ asked => .request nowMs asked
  | .reserve _ requestId requestDigest => .reserve nowMs requestId requestDigest
  | .deny _ requestId requestDigest => .deny nowMs requestId requestDigest
  | .settle _ requestId requestDigest reservation outcome =>
      .settle nowMs requestId requestDigest reservation outcome

def ActionValue.at_ (nowMs : NumberValue) : ActionValue → ActionValue
  | .request _ asked => .request nowMs asked
  | .reserve _ requestId requestDigest => .reserve nowMs requestId requestDigest
  | .deny _ requestId requestDigest => .deny nowMs requestId requestDigest
  | .settle _ requestId requestDigest reservation outcome =>
      .settle nowMs requestId requestDigest reservation outcome
  | .other => .other

theorem actionInput_at {action : ActionValue} {nowMs : NumberValue} {now : ℕ}
    (read : actionInput action = some input) (clock : integer 0 maxClock nowMs = some now) :
    actionInput (action.at_ nowMs) = some (input.at_ now) := by
  cases action with
  | other => cases read
  | _ =>
      simp only [actionInput, ActionValue.at_, Option.bind_eq_bind, Option.bind_eq_some_iff,
        Option.pure_def, Option.some.injEq] at read ⊢
      obtain ⟨_, _, checked, passed, rfl⟩ := read
      exact ⟨now, clock, checked, passed, rfl⟩

@[simp] theorem at_nowMs (nowMs : ℕ) : (input.at_ nowMs).nowMs = nowMs := by
  cases input <;> rfl

@[simp] theorem at_requestId (nowMs : ℕ) : (input.at_ nowMs).requestId = input.requestId := by
  cases input <;> rfl

@[simp] theorem at_pinnedRequest (nowMs : ℕ) :
    (input.at_ nowMs).pinnedRequest pinnedPolicy = input.pinnedRequest pinnedPolicy := by
  cases input <;> rfl

theorem Effect.at_ (effect : Effect input entry) (nowMs : ℕ) : Effect (input.at_ nowMs) entry := by
  cases input <;> exact effect

theorem act_of_effect (effect : Effect input entry) : ∃ reason,
    act policy pinnedPolicy state (some entry) input = some (replay state entry reason) := by
  cases input with
  | request nowMs asked => exact ⟨_, rfl⟩
  | reserve nowMs requestId requestDigest => exact ⟨_, if_pos effect⟩
  | deny nowMs requestId requestDigest => exact ⟨_, congrArg some (if_pos effect)⟩
  | settle nowMs requestId requestDigest reservation outcome =>
      obtain ⟨-, unreserved, reserved, settled⟩ := effect
      refine ⟨js "settlement-replayed", ?_⟩
      simp only [act, settleEntry]
      rw [if_neg (not_not_intro reserved), if_pos unreserved, if_pos settled]

theorem respond_bound (found : state.find input.requestId = some entry)
    (bound : entry.requestDigest = input.pinnedRequest pinnedPolicy)
    (forward : state.highWaterMs ≤ input.nowMs) :
    respond policy pinnedPolicy state input =
      act policy pinnedPolicy (state.advance input.nowMs) (some entry) input := by
  unfold PaymentBrokerState.find at found
  unfold respond
  dsimp only
  rw [if_neg (not_lt.mpr forward), found, Option.any_some, decide_eq_false (not_not_intro bound),
    if_neg Bool.false_ne_true]

theorem replay_of_took {nowMs : ℕ} (took : Took pinnedPolicy input state)
    (forward : state.highWaterMs ≤ nowMs) :
    ∃ entry reason, state.find input.requestId = some entry ∧
      respond policy pinnedPolicy state (input.at_ nowMs) =
        some (replay (state.advance nowMs) entry reason) := by
  obtain ⟨entry, found, bound, effect⟩ := took
  obtain ⟨reason, acted⟩ := @act_of_effect policy pinnedPolicy (state.advance nowMs) entry
    (input.at_ nowMs) (effect.at_ nowMs)
  refine ⟨entry, reason, found, ?_⟩
  rw [← acted, @respond_bound _ _ state entry]
  · rw [at_nowMs]
  · rw [at_requestId, found]
  · rw [at_pinnedRequest, bound]
  · rw [at_nowMs]
    exact forward

/-! Runs, with the action of each call. -/

abbrev BrokerCall := ActionValue × PaymentBrokerReceipt

def BrokerCalled (value : PolicyValue) (state : PaymentBrokerState) (call : BrokerCall)
    (next : PaymentBrokerState) : Prop :=
  reducePaymentBroker state value call.1 = some (next, call.2)

variable {value : PolicyValue} {call : BrokerCall}

structure Answers (policy : PaymentBrokerPolicy) (state : PaymentBrokerState) (call : BrokerCall)
    (input : PaymentBrokerAction) (verdict : Verdict) (next : PaymentBrokerState) : Prop where
  read : actionInput call.1 = some input
  answered : respond policy (policyDigest policy) state input = some verdict
  handed : next = verdict.state
  requestId : call.2.requestId = input.requestId
  decision : call.2.decision = verdict.decision
  replayed : call.2.replayed = verdict.replayed

section

variable (read : policyInput value = some policy) (sound : state.Valid policy (policyDigest policy))
  (called : BrokerCalled value state call next)
include read sound called

theorem BrokerCalled.answers :
    ∃ input verdict, Answers policy state call input verdict next := by
  unfold BrokerCalled reducePaymentBroker at called
  rw [read] at called
  simp only [Option.bind_eq_bind, Option.bind_some, sound.accepted, Option.bind_eq_some_iff,
    Option.pure_def, Option.some.injEq] at called
  obtain ⟨input, acted, verdict, answered, used, _, parts⟩ := called
  obtain ⟨rfl, receipt⟩ := Prod.mk.inj parts
  exact ⟨input, verdict, acted, answered, rfl, by rw [← receipt], by rw [← receipt],
    by rw [← receipt]⟩

theorem BrokerCalled.outcome :
    ∃ input verdict, Answers policy state call input verdict next ∧
      Outcome (policyDigest policy) state input verdict := by
  obtain ⟨input, verdict, answers⟩ := called.answers read sound
  exact ⟨input, verdict, answers,
    respond_outcome sound (actionInput_sound answers.read) answers.answered⟩

theorem BrokerCalled.valid :
    next.Valid policy (policyDigest policy) :=
  (BrokerStep.spec read sound ⟨call.1, called⟩).1

theorem BrokerCalled.grows :
    Grows state next := by
  obtain ⟨input, verdict, answers, outcome⟩ := called.outcome read sound
  rw [answers.handed]
  exact outcome.grows

end

structure Reached (value : PolicyValue) (policy : PaymentBrokerPolicy) (calls : List BrokerCall)
    (state : PaymentBrokerState) : Prop where
  read : policyInput value = some policy
  run : ∃ nowMs start, createPaymentBrokerState value nowMs = some start ∧
    Run (BrokerCalled value) start calls state

variable {calls : List BrokerCall}

theorem Reached.valid (reached : Reached value policy calls state) :
    state.Valid policy (policyDigest policy) := by
  obtain ⟨nowMs, start, created, run⟩ := reached.run
  exact run.invariant (fun valid called => called.valid reached.read valid)
    (createPaymentBrokerState_valid reached.read created)

theorem Reached.grows {later : List BrokerCall} (reached : Reached value policy calls state)
    (run : Run (BrokerCalled value) state later next) : Grows state next :=
  run.climbs (fun valid called => called.valid reached.read valid)
    (fun valid called => called.grows reached.read valid) reached.valid

def BrokerCall.charges (requestId : JsString) (call : BrokerCall) : Bool :=
  call.2.requestId = requestId && !call.2.replayed &&
    match call.2.decision with
    | .entry .reserved => true
    | _ => false

theorem BrokerCall.charges_iff : call.charges requestId = true ↔
    call.2.requestId = requestId ∧ call.2.replayed = false ∧ call.2.decision = .entry
    .reserved := by
  unfold BrokerCall.charges
  rw [Bool.and_eq_true, Bool.and_eq_true, decide_eq_true_eq, Bool.not_eq_true', and_assoc]
  refine and_congr_right fun _ => and_congr_right fun _ => ?_
  cases call.2.decision with
  | rejected => simp
  | entry status => cases status <;> simp

section

variable (read : policyInput value = some policy)
include read

theorem BrokerCalled.of_charges (valid : state.Valid policy (policyDigest policy))
    (called : BrokerCalled value state call next) (charges : call.charges requestId = true) :
    (∃ entry, state.find requestId = some entry ∧ entry.status = .requested) ∧
      ∃ entry, next.find requestId = some entry ∧ entry.status = .reserved := by
  obtain ⟨named, first, decided⟩ := BrokerCall.charges_iff.mp charges
  obtain ⟨input, verdict, answers, outcome⟩ := called.outcome read valid
  rw [answers.requestId] at named
  rw [answers.replayed] at first
  rw [answers.decision] at decided
  subst named
  rw [answers.handed]
  cases outcome with
  | rejected refused _ =>
      rw [refused] at decided
      cases decided
  | replayed _ _ _ _ _ again =>
      rw [again] at first
      cases first
  | recorded _ _ _ _ _ status unreserved =>
      rw [status] at decided
      exact absurd (Decision.entry.inj decided) unreserved
  | @changed entry after found bound follows effect placed status opened =>
      rw [status] at decided
      have reserved := Decision.entry.inj decided
      have same : after.request.requestId = input.requestId := by
        rw [follows.request, find_requestId found]
      refine ⟨⟨entry, found, opened reserved⟩, after, ?_, reserved⟩
      rw [find_placed same found placed, if_pos rfl]

section

variable {start : PaymentBrokerState} (valid : start.Valid policy (policyDigest policy))
  (run : Run (BrokerCalled value) start calls state)
include valid run

theorem charged_once (requestId : JsString) :
    calls.countP (·.charges requestId) ≤ 1 ∧
      (0 < calls.countP (·.charges requestId) →
        ∃ entry, state.find requestId = some entry ∧ entry.status ≠ .requested) := by
  induction run with
  | nil => exact ⟨Nat.zero_le _, fun some => absurd some (lt_irrefl 0)⟩
  | @snoc calls state next call run called ih =>
      have stands := run.invariant (fun valid called => called.valid read valid) valid
      rw [List.countP_append, List.countP_singleton]
      by_cases charges : call.charges requestId = true
      · obtain ⟨⟨entry, found, requested⟩, after, placed, reserved⟩ :=
          called.of_charges read stands charges
        have none : calls.countP (·.charges requestId) = 0 := by
          by_contra some
          obtain ⟨other, same, moved⟩ := ih.2 (Nat.pos_of_ne_zero some)
          rw [found] at same
          cases same
          exact moved requested
        rw [none, if_pos charges]
        refine ⟨le_rfl, fun _ => ⟨after, placed, ?_⟩⟩
        rw [reserved]
        decide
      · rw [if_neg charges]
        refine ⟨ih.1, fun some => ?_⟩
        obtain ⟨entry, found, moved⟩ := ih.2 some
        obtain ⟨after, placed, follows⟩ := called.grows read stands requestId entry found
        exact ⟨after, placed, follows.not_requested moved⟩

theorem took_of_accepted :
    ∀ call ∈ calls, call.2.decision ≠ .rejected →
      ∃ input, actionInput call.1 = some input ∧ call.2.requestId = input.requestId ∧
        Took (policyDigest policy) input state := by
  induction run with
  | nil => exact fun _ member => by cases member
  | @snoc calls state next last run called ih =>
      have stands := run.invariant (fun valid called => called.valid read valid) valid
      intro call member accepted
      rcases List.mem_append.mp member with earlier | new
      · obtain ⟨input, acted, named, took⟩ := ih call earlier accepted
        exact ⟨input, acted, named, took.later (called.grows read stands)⟩
      · obtain rfl := List.mem_singleton.mp new
        obtain ⟨input, verdict, answers, outcome⟩ := called.outcome read stands
        rw [answers.decision] at accepted
        refine ⟨input, answers.read, answers.requestId, ?_⟩
        rw [answers.handed]
        exact outcome.took accepted

end

theorem BrokerCalled.rejected (valid : state.Valid policy (policyDigest policy))
    (called : BrokerCalled value state call next) (refused : call.2.decision = .rejected) :
    next.entries = state.entries := by
  obtain ⟨input, verdict, answers, outcome⟩ := called.outcome read valid
  rw [answers.decision] at refused
  rw [answers.handed]
  cases outcome with
  | rejected _ kept => exact kept
  | replayed _ _ _ kept _ _ => exact kept
  | recorded _ _ _ _ _ status _ | changed _ _ _ _ _ status _ =>
      rw [status] at refused
      cases refused

end

/-- The calls of a run and of what follows it: an accepted action is only replayed, an ended entry
stands for good, an id is charged once, and a rejected action changes no entry. -/
theorem paymentBroker_replays {calls : List BrokerCall}
    (reached : Reached value policy calls state) :
    (∀ call ∈ calls, call.2.decision ≠ .rejected →
      ∀ nowMs now, integer 0 maxClock nowMs = some now → state.highWaterMs ≤ now →
        ∃ next receipt entry,
          reducePaymentBroker state value (call.1.at_ nowMs) = some (next, receipt) ∧
            next.entries = state.entries ∧ receipt.requestId = call.2.requestId ∧
            state.find receipt.requestId = some entry ∧
            receipt.decision = .entry entry.status ∧ receipt.replayed = true) ∧
    (∀ later last, Run (BrokerCalled value) state later last →
      ∀ entry ∈ state.entries, entry.status.Ended →
        last.find entry.request.requestId = some entry) ∧
    (∀ requestId, calls.countP (·.charges requestId) ≤ 1) ∧
    (state.entries.map (·.request.requestId)).Nodup ∧
    ∀ action next receipt, reducePaymentBroker state value action = some (next, receipt) →
      receipt.decision = .rejected → next.entries = state.entries := by
  have valid := reached.valid
  obtain ⟨nowMs, start, created, run⟩ := reached.run
  have begun := createPaymentBrokerState_valid reached.read created
  refine ⟨?_, ?_, fun requestId => (charged_once reached.read begun run requestId).1, valid.once,
    ?_⟩
  · intro call member accepted nowMs now clock forward
    obtain ⟨input, acted, named, took⟩ := took_of_accepted reached.read begun run call member
      accepted
    obtain ⟨entry, reason, found, answered⟩ := @replay_of_took policy _ _ _ _ took forward
    have read := actionInput_at acted clock
    obtain ⟨next, receipt, reduced, -⟩ := reducePaymentBroker_of_valid reached.read valid read
    have called : BrokerCalled value state (call.1.at_ nowMs, receipt) next := reduced
    obtain ⟨again, verdict, answers⟩ := called.answers reached.read valid
    have same : again = input.at_ now := Option.some.inj (answers.read.symm.trans read)
    have given := answers.answered
    rw [same, answered] at given
    obtain rfl := Option.some.inj given
    have name : receipt.requestId = input.requestId := by
      rw [answers.requestId, same, at_requestId]
    refine ⟨next, receipt, entry, reduced, by rw [answers.handed]; rfl, by rw [name, named],
      by rw [name, found], answers.decision, answers.replayed⟩
  · intro later last run entry member ended
    have stands : state.find entry.request.requestId = some entry :=
      (find?_eq_some_of_key valid.once).mpr ⟨member, rfl⟩
    obtain ⟨after, found, follows⟩ := reached.grows run _ entry stands
    rw [found, follows.of_ended ended]
  · intro action next receipt reduced refused
    have called : BrokerCalled value state (action, receipt) next := reduced
    exact called.rejected reached.read valid refused

theorem paymentBroker_replays_sample : ∃ policy next receipt,
    Reached samplePolicy policy [(sampleRequest, receipt)] next ∧ receipt.decision ≠ .rejected ∧
      ∃ again, (reducePaymentBroker next samplePolicy (sampleRequest.at_ (.number (.ofRat 7)))).map
        (·.2.replayed) = some again ∧ again = true := by
  have readable : (policyInput samplePolicy).isSome = true := by decide +kernel
  have creatable :
      (createPaymentBrokerState samplePolicy (.number (.ofRat 0))).isSome = true := by
    decide +kernel
  obtain ⟨policy, read⟩ := Option.isSome_iff_exists.mp readable
  obtain ⟨start, created⟩ := Option.isSome_iff_exists.mp creatable
  have answers : ((createPaymentBrokerState samplePolicy (.number (.ofRat 0))).bind fun start =>
      (reducePaymentBroker start samplePolicy sampleRequest).map fun result =>
        (result.1.highWaterMs, match result.2.decision with
          | .entry _ => true
          | .rejected => false)) = some (0, true) := by
    decide +kernel
  rw [created, Option.bind_some, Option.map_eq_some_iff] at answers
  obtain ⟨⟨next, receipt⟩, reduced, facts⟩ := answers
  obtain ⟨clock, entered⟩ := Prod.mk.inj facts
  have accepted : receipt.decision ≠ .rejected := by
    intro refused
    dsimp only at entered
    rw [refused] at entered
    cases entered
  have reached : Reached samplePolicy policy [(sampleRequest, receipt)] next :=
    ⟨read, _, start, created, .single reduced⟩
  have seven : integer 0 maxClock (.number (.ofRat 7)) = some 7 := by decide +kernel
  obtain ⟨last, other, entry, replayed, _, _, _, _, again⟩ :=
    (paymentBroker_replays reached).1 _ (List.mem_singleton_self _) accepted _ _ seven
      (by rw [show next.highWaterMs = 0 from clock]; exact Nat.zero_le _)
  exact ⟨policy, next, receipt, reached, accepted, _, by rw [replayed]; rfl, again⟩

end AshlrHub.Universe
