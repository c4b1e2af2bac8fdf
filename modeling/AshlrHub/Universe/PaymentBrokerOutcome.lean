import AshlrHub.Universe.PaymentBrokerRun

namespace AshlrHub.Universe

open Js Lib Authority

/-! What an entry may become, and what an answer does to the entries. -/

variable {policy : PaymentBrokerPolicy} {pinnedPolicy : JsString}
  {state : PaymentBrokerState} {entry after : PaymentBrokerEntry}
  {input : PaymentBrokerAction} {verdict : Verdict}

def EntryStatus.Ended : EntryStatus → Prop
  | .denied => True
  | .settled => True
  | .held => True
  | _ => False

inductive Follows : PaymentBrokerEntry → PaymentBrokerEntry → Prop
  | same (entry : PaymentBrokerEntry) : Follows entry entry
  | opened {entry after : PaymentBrokerEntry} (requested : entry.status = .requested)
      (request : after.request = entry.request)
      (digest : after.requestDigest = entry.requestDigest) : Follows entry after
  | settles {entry after : PaymentBrokerEntry} (reserved : entry.status = .reserved)
      (request : after.request = entry.request)
      (digest : after.requestDigest = entry.requestDigest)
      (at_ : after.reservedAtMs = entry.reservedAtMs)
      (ended : after.status = .settled ∨ after.status = .held) : Follows entry after

namespace Follows

section

variable (follows : Follows entry after)
include follows

theorem request : after.request = entry.request := by
  cases follows with
  | same => rfl
  | opened _ request _ => exact request
  | settles _ request _ _ _ => exact request

theorem digest : after.requestDigest = entry.requestDigest := by
  cases follows with
  | same => rfl
  | opened _ _ digest => exact digest
  | settles _ _ digest _ _ => exact digest

theorem of_ended (ended : entry.status.Ended) : after = entry := by
  cases follows with
  | same => rfl
  | opened requested _ _ =>
      rw [requested] at ended
      cases ended
  | settles reserved _ _ _ _ =>
      rw [reserved] at ended
      cases ended

theorem not_requested (moved : entry.status ≠ .requested) :
    after.status ≠ .requested := by
  cases follows with
  | same => exact moved
  | opened requested _ _ => exact absurd requested moved
  | settles _ _ _ _ ended => rcases ended with ended | ended <;> rw [ended] <;> decide

theorem not_open (moved : entry.status ≠ .requested)
    (unreserved : entry.status ≠ .reserved) : after = entry := by
  cases follows with
  | same => rfl
  | opened requested _ _ => exact absurd requested moved
  | settles reserved _ _ _ _ => exact absurd reserved unreserved

end

theorem trans {first second third : PaymentBrokerEntry} (earlier : Follows first second)
    (later : Follows second third) : Follows first third := by
  cases earlier with
  | same => exact later
  | opened requested request digest =>
      exact .opened requested (later.request.trans request) (later.digest.trans digest)
  | settles reserved request digest at_ ended =>
      have same : third = second := by
        apply later.of_ended
        rcases ended with ended | ended <;> rw [ended] <;> trivial
      rw [same]
      exact .settles reserved request digest at_ ended

end Follows

def Effect (input : PaymentBrokerAction) (entry : PaymentBrokerEntry) : Prop :=
  match input with
  | .request _ _ => True
  | .reserve _ _ _ => entry.status ≠ .requested
  | .deny _ _ _ => entry.status = .denied
  | .settle _ _ _ reservation outcome =>
      entry.status ≠ .requested ∧ entry.status ≠ .reserved ∧
        entry.reservationDigest = some reservation ∧ entry.settlement = some outcome

theorem Effect.later (effect : Effect input entry) (follows : Follows entry after) :
    Effect input after := by
  cases input with
  | request nowMs asked => trivial
  | reserve nowMs requestId requestDigest => exact follows.not_requested effect
  | deny nowMs requestId requestDigest =>
      have denied : entry.status = .denied := effect
      rw [follows.of_ended (by rw [denied]; trivial)]
      exact effect
  | settle nowMs requestId requestDigest reservation outcome =>
      obtain ⟨moved, unreserved, rest⟩ := effect
      rw [follows.not_open moved unreserved]
      exact ⟨moved, unreserved, rest⟩

def PaymentBrokerState.find (state : PaymentBrokerState) (requestId : JsString) :
    Option PaymentBrokerEntry :=
  state.entries.find? fun item => item.request.requestId = requestId

def Took (pinnedPolicy : JsString) (input : PaymentBrokerAction) (state : PaymentBrokerState) :
    Prop :=
  ∃ entry, state.find input.requestId = some entry ∧
    entry.requestDigest = input.pinnedRequest pinnedPolicy ∧ Effect input entry

inductive Outcome (pinnedPolicy : JsString) (state : PaymentBrokerState)
    (input : PaymentBrokerAction) (verdict : Verdict) : Prop
  | rejected (refused : verdict.decision = .rejected)
      (kept : verdict.state.entries = state.entries)
  | replayed {entry : PaymentBrokerEntry} (found : state.find input.requestId = some entry)
      (bound : entry.requestDigest = input.pinnedRequest pinnedPolicy)
      (effect : Effect input entry) (kept : verdict.state.entries = state.entries)
      (status : verdict.decision = .entry entry.status) (again : verdict.replayed = true)
  | recorded {entry : PaymentBrokerEntry} (absent : state.find input.requestId = none)
      (named : entry.request.requestId = input.requestId)
      (bound : entry.requestDigest = input.pinnedRequest pinnedPolicy)
      (effect : Effect input entry) (added : verdict.state.entries = state.entries ++ [entry])
      (status : verdict.decision = .entry entry.status) (unreserved : entry.status ≠ .reserved)
  | changed {entry after : PaymentBrokerEntry} (found : state.find input.requestId = some entry)
      (bound : entry.requestDigest = input.pinnedRequest pinnedPolicy)
      (follows : Follows entry after) (effect : Effect input after)
      (placed : verdict.state.entries = replaceEntry input.requestId after state.entries)
      (status : verdict.decision = .entry after.status)
      (opened : after.status = .reserved → entry.status = .requested)

variable {requestId : JsString}

theorem find_requestId (found : state.find requestId = some entry) :
    entry.request.requestId = requestId := by
  unfold PaymentBrokerState.find at found
  have named := List.find?_some found
  exact of_decide_eq_true named

theorem become_entries (found : state.find requestId = some entry)
    (request : after.request = entry.request) :
    (state.become after).entries = replaceEntry requestId after state.entries := by
  unfold PaymentBrokerState.become
  rw [request, find_requestId found]

theorem unbound_of_requested (valid : state.Valid policy pinnedPolicy)
    (member : entry ∈ state.entries) (requested : entry.status = .requested) :
    entry.reservationDigest = none := by
  have alone := valid.alone entry member
  simp only [entryAlone, statusInput, requested, Bool.and_eq_true,
    Option.isNone_iff_eq_none] at alone
  exact alone.2.1.1.1.2

theorem enter_outcome {reason : JsString} (found : state.find input.requestId = some entry)
    (bound : entry.requestDigest = input.pinnedRequest pinnedPolicy)
    (follows : Follows entry after) (effect : Effect input after)
    (opened : after.status = .reserved → entry.status = .requested) :
    Outcome pinnedPolicy state input (enter (state.become after) after reason) :=
  .changed found bound follows effect (become_entries found follows.request) rfl opened

variable {nowMs : ℕ}

theorem recordRequest_outcome {asked : PaymentBrokerRequest}
    (bound : ∀ entry ∈ state.find asked.requestId,
      entry.requestDigest = requestDigest pinnedPolicy asked) :
    Outcome pinnedPolicy state (.request nowMs asked)
      (recordRequest policy pinnedPolicy state (state.find asked.requestId) nowMs asked) := by
  cases found : state.find asked.requestId with
  | some entry => exact .replayed found (bound entry found) trivial rfl rfl rfl
  | none =>
      unfold recordRequest
      dsimp only
      by_cases full : paymentBrokerMaxEntries ≤ state.entries.length
      · rw [if_pos full]
        exact .rejected rfl rfl
      · rw [if_neg full]
        refine .recorded found rfl rfl trivial rfl rfl ?_
        cases denial policy asked <;> exact fun reserved => by cases reserved

variable {requestDigest : JsString}

section

variable (found : state.find requestId = some entry) (bound : entry.requestDigest = requestDigest)
include found bound

theorem reserveEntry_outcome
    (answered : reserveEntry policy pinnedPolicy state entry nowMs = some verdict) :
    Outcome pinnedPolicy state (.reserve nowMs requestId requestDigest) verdict := by
  unfold reserveEntry at answered
  by_cases requested : entry.status = .requested
  · rw [if_neg (not_not_intro requested), Option.bind_eq_bind, Option.bind_eq_some_iff] at answered
    obtain ⟨used, _, answered⟩ := answered
    split_ifs at answered with full
    · cases answered
      exact enter_outcome found bound (.opened requested rfl rfl) (fun again => by cases again)
        fun _ => requested
    · cases answered
      exact enter_outcome found bound (.opened requested rfl rfl) (fun again => by cases again)
        fun _ => requested
  · rw [if_pos requested] at answered
    cases answered
    exact .replayed found bound requested rfl rfl rfl

theorem denyEntry_outcome :
    Outcome pinnedPolicy state (.deny nowMs requestId requestDigest) (denyEntry state entry) := by
  unfold denyEntry
  split_ifs with denied moved
  · exact .replayed found bound denied rfl rfl rfl
  · exact .rejected rfl rfl
  · exact enter_outcome found bound (.opened (not_not.mp moved) rfl rfl)
      (rfl : EntryStatus.denied = _)
      fun again => by cases again

end

section

variable (valid : state.Valid policy pinnedPolicy)
include valid

theorem settleEntry_outcome {reservation : JsString}
    {outcome : SettlementOutcome} (found : state.find requestId = some entry)
    (bound : entry.requestDigest = requestDigest) :
    Outcome pinnedPolicy state (.settle nowMs requestId requestDigest reservation outcome)
      (settleEntry state entry nowMs reservation outcome) := by
  unfold settleEntry
  split_ifs with unbound ended replayed
  · exact .rejected rfl rfl
  · refine .replayed found bound ⟨?_, ended, not_not.mp unbound, replayed⟩ rfl rfl rfl
    intro requested
    have none := unbound_of_requested valid (List.mem_of_find?_eq_some found) requested
    rw [not_not.mp unbound] at none
    cases none
  · exact .rejected rfl rfl
  · have reserved := not_not.mp ended
    have closed : outcome.status = .settled ∨ outcome.status = .held := by
      cases outcome
      · exact .inl rfl
      · exact .inr rfl
      · exact .inr rfl
    refine enter_outcome found bound (.settles reserved rfl rfl rfl closed)
      ⟨?_, ?_, not_not.mp unbound, rfl⟩ ?_
    · rcases closed with closed | closed <;> exact fun again => by cases closed.symm.trans again
    · rcases closed with closed | closed <;> exact fun again => by cases closed.symm.trans again
    · rcases closed with closed | closed <;> exact fun again => by cases closed.symm.trans again

theorem act_outcome (agrees : ∀ entry ∈ state.find input.requestId,
      entry.requestDigest = input.pinnedRequest pinnedPolicy)
    (answered : act policy pinnedPolicy state (state.find input.requestId) input = some verdict) :
    Outcome pinnedPolicy state input verdict := by
  cases found : state.find input.requestId with
  | none =>
      rw [found] at answered
      cases input with
      | request nowMs asked =>
          cases answered
          have absent : state.find asked.requestId = none := found
          rw [← absent]
          exact recordRequest_outcome agrees
      | _ =>
          cases answered
          exact .rejected rfl rfl
  | some entry =>
      have bound := agrees entry found
      rw [found] at answered
      cases input with
      | request nowMs asked =>
          cases answered
          exact .replayed found bound trivial rfl rfl rfl
      | reserve nowMs requestId requestDigest => exact reserveEntry_outcome found bound answered
      | deny nowMs requestId requestDigest =>
          cases answered
          exact denyEntry_outcome found bound
      | settle nowMs requestId requestDigest reservation outcome =>
          cases answered
          exact settleEntry_outcome valid found bound

theorem respond_outcome (sound : input.Sound)
    (answered : respond policy pinnedPolicy state input = some verdict) :
    Outcome pinnedPolicy state input verdict := by
  unfold respond at answered
  dsimp only at answered
  by_cases back : input.nowMs < state.highWaterMs
  · rw [if_pos back] at answered
    cases answered
    exact .rejected rfl rfl
  rw [if_neg back] at answered
  have moved := valid.advance (not_lt.mp back) sound.clock
  split_ifs at answered with conflict
  · cases answered
    exact .rejected rfl rfl
  have agrees : ∀ entry ∈ (state.advance input.nowMs).find input.requestId,
      entry.requestDigest = input.pinnedRequest pinnedPolicy := by
    intro entry found
    have same : (state.entries.find? fun item => item.request.requestId = input.requestId) =
        some entry := found
    rw [same, Option.any_some, decide_eq_true_eq, not_not] at conflict
    exact conflict
  -- The clock moves, the entries stay as they were.
  cases act_outcome moved agrees answered with
  | rejected refused kept => exact .rejected refused kept
  | replayed found bound effect kept status again =>
      exact .replayed found bound effect kept status again
  | recorded absent named bound effect added status unreserved =>
      exact .recorded absent named bound effect added status unreserved
  | changed found bound follows effect placed status opened =>
      exact .changed found bound follows effect placed status opened

end

end AshlrHub.Universe
