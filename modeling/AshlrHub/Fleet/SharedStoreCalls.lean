import AshlrHub.Fleet.SharedStore
import AshlrHub.Lib.Fallible
import AshlrHub.Lib.Run

namespace AshlrHub.Fleet

open Js Authority

/-! The calls of the shared store: what each does to the queue under the lock. -/

/-! Cooldowns. -/

structure QueueClaimCooldownPolicy where
  itemIds : List JsString
  cooldownMs : JsNumber
  outcomeCooldownMs : WorkedOutcome → Option JsNumber

def maxCooldownKeys : ℕ := 32

def defaultClaimCooldownMs : ℤ := 6 * 60 * 60 * 1000

def validCooldownMs : JsNumber → Option ℚ
  | .finite d => if 0 ≤ d.val ∧ d.val ≤ JsNumber.maxSafeInteger then some d.val else none
  | _ => none

def latestWorkedEventForKeys (events : List WorkedEvent) (itemIds : List JsString) :
    Option (WorkedEvent × ℤ) :=
  events.foldl
    (fun latest event =>
      if event.itemId ∉ itemIds then latest
      else
        match dateParse event.ts with
        | none => latest
        | some eventMs =>
            if latest.all fun known => known.2 ≤ eventMs then some (event, eventMs) else latest)
    none

def workedEventIsCooling (event : WorkedEvent) (eventMs : ℤ) (cooldownMs : ℚ) (now : ℤ) : Bool :=
  isSuppressibleWorkedOutcome event.outcome && 0 ≤ now - eventMs && (now - eventMs : ℤ) < cooldownMs

def candidateIsCooling (worked : List WorkedEvent) (policy : QueueClaimCooldownPolicy) (now : ℤ) :
    Bool :=
  match validCooldownMs policy.cooldownMs with
  | none => true
  | some cooldownMs =>
      if policy.itemIds = [] ∨ maxCooldownKeys < policy.itemIds.length ∨
          policy.itemIds.any (fun id => id = [] || maxItemIdBytes < byteLength id) = true then true
      else
        match latestWorkedEventForKeys worked policy.itemIds with
        | none => false
        | some (latest, eventMs) =>
            match policy.outcomeCooldownMs latest.outcome with
            | none => workedEventIsCooling latest eventMs cooldownMs now
            | some override =>
                match validCooldownMs override with
                | none => true
                | some override => override ≠ 0 && (now - eventMs : ℤ) < override

def defaultClaimCooldownPolicy (itemId : JsString) : QueueClaimCooldownPolicy where
  itemIds := [itemId]
  cooldownMs := .ofRat defaultClaimCooldownMs
  outcomeCooldownMs := fun outcome => if outcome = .diff then some (.ofRat 0) else none

/-! Claiming. -/

section

variable (queue : SharedFleetQueue)

def setClaim (itemId : JsString) (claim : ItemClaim) : SharedFleetQueue :=
  { queue with claims := queue.claims.insert itemId claim }

def deleteClaim (itemId : JsString) : SharedFleetQueue :=
  { queue with claims := queue.claims.erase itemId }

def QueueClaimRef.keyed (ref : QueueClaimRef) : QueueClaimRef :=
  { ref with ownerKey := encodeOwner ref }

structure ClaimLane where
  candidateIds : List JsString
  limit : JsNumber

/-- One call of `claimLeasesByLane`, with its clock and the texts it draws. -/
structure ClaimCall where
  lanes : List ClaimLane
  count : JsNumber
  machineId : JsString
  cooldownPolicies : JsString → Option QueueClaimCooldownPolicy
  leaseMs : ℕ
  now : ℤ
  queueId : JsString
  ownerTokens : ℕ → JsString

/-- `Math.min(MAX_CLAIMS, Math.floor(count))` of a count that is accepted. -/
def ClaimCall.limit? (call : ClaimCall) : Option ℕ :=
  match call.count with
  | .finite d => if d.val ≤ 0 then none else some (min maxClaims ⌊d.val⌋.toNat)
  | _ => none

def ClaimCall.admitted (call : ClaimCall) : Bool :=
  call.machineId ≠ [] && byteLength call.machineId ≤ maxMachineIdBytes && call.limit?.isSome

/-- `laneClaims >= Math.max(0, Math.floor(limit))` -/
def laneFull (laneClaims : ℕ) : JsNumber → Bool
  | .finite d => max 0 ⌊d.val⌋ ≤ (laneClaims : ℤ)
  | .infinity negative => negative
  | .nan => false

/-- The queue in the middle of a claim: `claimed` in reverse. -/
structure Claiming where
  queue : SharedFleetQueue
  fence : QueueFence
  claimed : List QueueClaimRef
  seen : List JsString
  claimCount : ℕ

def claimable (existing : Option ItemClaim) (now : ℤ) : Bool :=
  match existing with
  | none => true
  | some claim => claim.owner?.any fun owner => owner.phase = .claimed && owner.leaseUntil ≤ now

def ClaimCall.nextRef (call : ClaimCall) (state : Claiming) (itemId : JsString) : QueueClaimRef :=
  QueueClaimRef.keyed
    { itemId := itemId
      machineId := call.machineId
      ownerKey := []
      ownerToken := call.ownerTokens state.claimed.length
      queueId := state.fence.queueId
      epoch := state.fence.nextClaimEpoch
      phase := .claimed
      leaseUntil := call.now + call.leaseMs }

def Claiming.install (state : Claiming) (ref : QueueClaimRef) : Claiming :=
  { state with
    queue := setClaim state.queue ref.itemId ⟨ref.ownerKey, ref.leaseUntil⟩
    fence := { state.fence with nextClaimEpoch := state.fence.nextClaimEpoch + 1 }
    claimed := ref :: state.claimed
    claimCount :=
      if (state.queue.claims.lookup ref.itemId).isNone then state.claimCount + 1
      else state.claimCount }

def claimLane (call : ClaimCall) (claimLimit : ℕ) (laneLimit : JsNumber) :
    ℕ → List JsString → Claiming → Claiming
  | _, [], state => state
  | laneClaims, id :: ids, state =>
      if claimLimit ≤ state.claimed.length ∨ laneFull laneClaims laneLimit = true then state
      else if id = [] ∨ maxItemIdBytes < byteLength id ∨ id ∈ state.seen then
        claimLane call claimLimit laneLimit laneClaims ids state
      else
        let state := { state with seen := id :: state.seen }
        let policy := (call.cooldownPolicies id).getD (defaultClaimCooldownPolicy id)
        let existing := state.queue.claims.lookup id
        if candidateIsCooling state.queue.worked policy call.now = true ∨
            claimable existing call.now = false then
          claimLane call claimLimit laneLimit laneClaims ids state
        else if (existing.isNone = true ∧ maxClaims ≤ state.claimCount) ∨
            JsNumber.maxSafeInteger ≤ state.fence.nextClaimEpoch then state
        else
          claimLane call claimLimit laneLimit (laneClaims + 1) ids
            (state.install (call.nextRef state id))

def claimLanes (call : ClaimCall) (claimLimit : ℕ) : List ClaimLane → Claiming → Claiming
  | [], state => state
  | lane :: lanes, state =>
      let state := claimLane call claimLimit lane.limit 0 lane.candidateIds state
      if claimLimit ≤ state.claimed.length then state else claimLanes call claimLimit lanes state

def ClaimCall.fence (call : ClaimCall) (queue : SharedFleetQueue) : QueueFence :=
  queue.fence.getD ⟨call.queueId, max 1 call.now.toNat⟩

/-- `claimLeasesByLane` under the lock. -/
def claimLeasesByLane (call : ClaimCall) (queue : SharedFleetQueue) :
    SharedFleetQueue × List QueueClaimRef :=
  let fence := call.fence queue
  let fenced := { queue with fence := some fence }
  if isUuid fence.queueId = false ∨ fence.nextClaimEpoch < 1 ∨
      JsNumber.maxSafeInteger < fence.nextClaimEpoch then (fenced, [])
  else
    let state := claimLanes call (call.limit?.getD 0) call.lanes
      ⟨fenced, fence, [], [], queue.claims.entries.length⟩
    ({ state.queue with fence := some state.fence }, state.claimed.reverse)

/-! Capabilities. -/

def claimMatches (ref : QueueClaimRef) : Bool :=
  (queue.fence.any fun fence => fence.queueId = ref.queueId) &&
    ref.ownerKey = encodeOwner ref &&
    (queue.claims.lookup ref.itemId).any fun claim => claim.machineId = encodeOwner ref

def claimCapabilityMatches (ref : QueueClaimRef) : Option ModernClaimOwner := do
  let claim ← queue.claims.lookup ref.itemId
  let owner ← claim.owner?
  let fence ← queue.fence
  guard (fence.queueId = ref.queueId ∧ owner.machineId = ref.machineId ∧ owner.epoch = ref.epoch ∧
    owner.phase = ref.phase ∧ owner.tokenHash = ownerTokenHash ref.ownerToken)
  pure owner

def readExactClaim (ref : QueueClaimRef) (phase : QueueClaimPhase) : Option QueueClaimRef := do
  let expected := { ref with phase := phase }
  let owner ← claimCapabilityMatches queue expected
  let claim ← queue.claims.lookup ref.itemId
  pure { expected with ownerKey := claim.machineId, leaseUntil := owner.leaseUntil }

end

/-! The other writers. -/

def renewedRef (ref : QueueClaimRef) (leaseMs : ℕ) (now : ℤ) : QueueClaimRef :=
  { ref with leaseUntil := max ref.leaseUntil (now + leaseMs) }.keyed

def renewClaims (leaseMs : ℕ) (now : ℤ) :
    List QueueClaimRef → SharedFleetQueue → SharedFleetQueue × List QueueClaimRef
  | [], queue => (queue, [])
  | ref :: refs, queue =>
      if claimMatches queue ref = false ∨ ref.leaseUntil ≤ now then renewClaims leaseMs now refs
        queue
      else
        let renewed := renewedRef ref leaseMs now
        let leaseUntil :=
          if ref.phase = .executing then legacyExecutingLease else renewed.leaseUntil
        let rest := renewClaims leaseMs now refs
          (setClaim queue ref.itemId ⟨renewed.ownerKey, leaseUntil⟩)
        (rest.1, renewed :: rest.2)

def beginClaimExecution (ref : QueueClaimRef) (now : ℤ) (queue : SharedFleetQueue) :
    SharedFleetQueue × Option QueueClaimRef :=
  if ref.phase ≠ .claimed ∨ claimMatches queue ref = false ∨ ref.leaseUntil ≤ now then (queue, none)
  else
    let executing := { ref with phase := .executing }.keyed
    (setClaim queue ref.itemId ⟨executing.ownerKey, legacyExecutingLease⟩, some executing)

def releaseClaims : List QueueClaimRef → SharedFleetQueue → SharedFleetQueue × List JsString
  | [], queue => (queue, [])
  | ref :: refs, queue =>
      if ref.phase ≠ .claimed ∨ claimMatches queue ref = false then releaseClaims refs queue
      else
        let rest := releaseClaims refs (deleteClaim queue ref.itemId)
        (rest.1, ref.itemId :: rest.2)

/-- One call of `completeClaimResult`, with its two looks at the clock. -/
structure CompleteCall where
  ref : QueueClaimRef
  workedItemId : JsString
  outcome : WorkedOutcome
  completionId : JsString
  now : ℤ
  /-- `new Date().toISOString()` -/
  ts : JsString

def CompleteCall.admitted (call : CompleteCall) : Bool :=
  isUuid call.completionId && call.workedItemId ≠ [] &&
    byteLength call.workedItemId ≤ maxItemIdBytes

def CompleteCall.event (call : CompleteCall) : WorkedEvent :=
  ⟨call.workedItemId, call.outcome, call.ts, none, some call.completionId⟩

def completeClaim (call : CompleteCall) (queue : SharedFleetQueue) : SharedFleetQueue × Bool :=
  if claimMatches queue call.ref = false ∨ call.ref.leaseUntil ≤ call.now then (queue, false)
  else
    (deleteClaim { queue with worked := queue.worked ++ [call.event] } call.ref.itemId, true)

def settleClaim (ref : QueueClaimRef) (now : ℤ) (queue : SharedFleetQueue) :
    SharedFleetQueue × Bool :=
  if ref.phase ≠ .executing ∨ claimMatches queue ref = false ∨ ref.leaseUntil ≤ now then
    (queue, false)
  else (deleteClaim queue ref.itemId, true)

open Lib

/-! An owner key says what it was encoded from. -/

variable {ref other : QueueClaimRef}

def ownerParts (ref : QueueClaimRef) : List JsString :=
  [modernOwnerPrefix, phaseMark ref.phase, toString36 ref.epoch,
    toBase64Url (utf8Encode ref.machineId), ownerTokenHash ref.ownerToken, leaseText ref.leaseUntil]

theorem colon_not_mem_toString36 (n : ℕ) : colon ∉ toString36 n := by
  intro member
  have digit := isDigit36_toString36 member
  cases digit

theorem colon_not_mem_leaseText (leaseUntil : ℤ) : colon ∉ leaseText leaseUntil := by
  unfold leaseText
  split_ifs
  · rw [List.mem_append, not_or]
    exact ⟨by decide, colon_not_mem_toString36 _⟩
  · exact colon_not_mem_toString36 _

theorem colon_not_mem_ownerTokenHash (ownerToken : JsString) :
    colon ∉ ownerTokenHash ownerToken := by
  intro member
  obtain ⟨digit, small, same⟩ := Sha256.mem_digest member
  have apart : ∀ digit < 16, colon ≠ Sha256.hexDigit digit := by decide
  exact apart digit small same

theorem splitOn_encodeOwner (ref : QueueClaimRef) :
    (encodeOwner ref).splitOn colon = ownerParts ref := by
  refine List.splitOn_intercalate colon ?_ (by simp)
  intro part member
  simp only [List.mem_cons, List.not_mem_nil, or_false] at member
  rcases member with rfl | rfl | rfl | rfl | rfl | rfl
  · decide
  · cases ref.phase <;> decide
  · exact colon_not_mem_toString36 _
  · exact colon_not_mem_toBase64Url _
  · exact colon_not_mem_ownerTokenHash _
  · exact colon_not_mem_leaseText _

theorem isPrefixOf_encodeOwner (ref : QueueClaimRef) :
    (modernOwnerPrefix ++ [colon]).isPrefixOf (encodeOwner ref) = true := by
  rw [List.isPrefixOf_iff_prefix, encodeOwner, List.intercalate_cons_cons, List.append_assoc]
  exact List.prefix_append_right_inj _ |>.mpr (List.prefix_append _ _)

theorem parsePhase_phaseMark (phase : QueueClaimPhase) :
    parsePhase (phaseMark phase) = some phase := by
  cases phase <;> decide

theorem parseCount36_toString36 {n value : ℕ} (parsed : parseCount36 (toString36 n) = some value) :
    value = n := by
  unfold parseCount36 at parsed
  simp only [Option.bind_eq_bind, Option.bind_eq_some_iff, Option.pure_def,
    Option.some.injEq] at parsed
  obtain ⟨_, _, _, _, _, _, same⟩ := parsed
  rw [← same, parseInt36_toString36]

theorem parseCount36_leaseText {leaseUntil : ℤ} {value : ℕ}
    (parsed : parseCount36 (leaseText leaseUntil) = some value) : (value : ℤ) = leaseUntil := by
  unfold leaseText at parsed
  split_ifs at parsed with negative
  · unfold parseCount36 at parsed
    simp only [Option.bind_eq_bind, Option.bind_eq_some_iff] at parsed
    obtain ⟨_, digits, _⟩ := parsed
    have sign := (guard_eq_some.mp digits).2
    cases sign
  · rw [parseCount36_toString36 parsed]
    omega

structure Owns (owner : ModernClaimOwner) (ref : QueueClaimRef) : Prop where
  epoch : owner.epoch = ref.epoch
  phase : owner.phase = ref.phase
  leaseUntil : owner.leaseUntil = ref.leaseUntil
  tokenHash : owner.tokenHash = ownerTokenHash ref.ownerToken

theorem parseOwnerParts_ownerParts {owner : ModernClaimOwner}
    (parsed : parseOwnerParts (ownerParts ref) = some owner) : Owns owner ref := by
  unfold parseOwnerParts ownerParts at parsed
  simp only [Option.bind_eq_bind, Option.bind_eq_some_iff, Option.pure_def,
    Option.some.injEq] at parsed
  obtain ⟨_, _, phase, marked, epoch, counted, leaseUntil, leased, _, _, machineId, _, rfl⟩ :=
    parsed
  rw [parsePhase_phaseMark] at marked
  exact ⟨parseCount36_toString36 counted, (Option.some.inj marked).symm,
    parseCount36_leaseText leased, rfl⟩

theorem parseModernOwner_encodeOwner (ref : QueueClaimRef) :
    parseModernOwner (encodeOwner ref) = .invalid ∨
      ∃ owner, parseModernOwner (encodeOwner ref) = .modern owner ∧ Owns owner ref := by
  unfold parseModernOwner
  rw [if_neg (by rw [isPrefixOf_encodeOwner]; decide)]
  split_ifs with long
  · exact .inl rfl
  · rw [splitOn_encodeOwner]
    cases parsed : parseOwnerParts (ownerParts ref) with
    | none => exact .inl rfl
    | some owner => exact .inr ⟨owner, rfl, parseOwnerParts_ownerParts parsed⟩

theorem owner?_encodeOwner {itemId : JsString} {claim : ItemClaim}
    (valid : validClaim itemId claim = true) (key : claim.machineId = encodeOwner ref) :
    ∃ owner, claim.owner? = some owner ∧ Owns owner ref := by
  unfold validClaim at valid
  rw [Bool.and_eq_true] at valid
  unfold ItemClaim.owner?
  rw [key] at valid ⊢
  rcases parseModernOwner_encodeOwner ref with invalid | ⟨owner, parsed, owns⟩
  · rw [invalid] at valid
    cases valid.2
  · rw [parsed]
    exact ⟨owner, rfl, owns⟩

theorem owns_of_owner? {claim : ItemClaim} {owner : ModernClaimOwner}
    (held : claim.owner? = some owner) (key : claim.machineId = encodeOwner ref) :
    Owns owner ref := by
  unfold ItemClaim.owner? at held
  rw [key] at held
  rcases parseModernOwner_encodeOwner ref with invalid | ⟨other, parsed, owns⟩
  · rw [invalid] at held
    cases held
  · rw [parsed] at held
    cases held
    exact owns

theorem phaseMark_inj {phase other : QueueClaimPhase} (same : phaseMark phase = phaseMark other) :
    phase = other := by
  have parsed := parsePhase_phaseMark phase
  rw [same, parsePhase_phaseMark] at parsed
  exact (Option.some.inj parsed).symm

theorem encodeOwner_inj (same : encodeOwner ref = encodeOwner other) :
    ref.epoch = other.epoch ∧ ref.phase = other.phase ∧
      ownerTokenHash ref.ownerToken = ownerTokenHash other.ownerToken := by
  have parts := congrArg (List.splitOn colon) same
  rw [splitOn_encodeOwner, splitOn_encodeOwner] at parts
  simp only [ownerParts, List.cons.injEq] at parts
  exact ⟨toString36_inj parts.2.2.1, phaseMark_inj parts.2.1, parts.2.2.2.2.1⟩

/-! Edits: the single changes that the calls make, one item at a time. -/

inductive QueueEdit where
  | fenced
  | created (ref : QueueClaimRef)
  | renewed (ref : QueueClaimRef)
  | begun (ref : QueueClaimRef)
  | released (ref : QueueClaimRef)
  | completed (call : CompleteCall)
  | settled (ref : QueueClaimRef)

inductive EditStep (queue : SharedFleetQueue) : QueueEdit → SharedFleetQueue → Prop
  | fenced {fence : QueueFence} (unfenced : queue.fence = none) :
      EditStep queue .fenced { queue with fence := some fence }
  | created {fence : QueueFence} {ref : QueueClaimRef} {now : ℤ} (fenced : queue.fence = some fence)
      (free : claimable (queue.claims.lookup ref.itemId) now = true)
      (epoch : ref.epoch = fence.nextClaimEpoch) :
      EditStep queue (.created ref)
        { setClaim queue ref.itemId ⟨encodeOwner ref, ref.leaseUntil⟩ with
          fence := some { fence with nextClaimEpoch := fence.nextClaimEpoch + 1 } }
  | renewed {ref : QueueClaimRef} {leaseUntil installed : ℤ}
      (matching : claimMatches queue ref = true) :
      EditStep queue (.renewed ref)
        (setClaim queue ref.itemId ⟨encodeOwner { ref with leaseUntil := leaseUntil }, installed⟩)
  | begun {ref : QueueClaimRef} (matching : claimMatches queue ref = true)
      (phase : ref.phase = .claimed) :
      EditStep queue (.begun ref)
        (setClaim queue ref.itemId
          ⟨encodeOwner { ref with phase := .executing }, legacyExecutingLease⟩)
  | released {ref : QueueClaimRef} (matching : claimMatches queue ref = true)
      (phase : ref.phase = .claimed) :
      EditStep queue (.released ref) (deleteClaim queue ref.itemId)
  | completed {call : CompleteCall} (matching : claimMatches queue call.ref = true) :
      EditStep queue (.completed call)
        (deleteClaim { queue with worked := queue.worked ++ [call.event] } call.ref.itemId)
  | settled {ref : QueueClaimRef} (matching : claimMatches queue ref = true) :
      EditStep queue (.settled ref) (deleteClaim queue ref.itemId)

/-! What the calls do, as edits. -/

def Claiming.current (state : Claiming) : SharedFleetQueue :=
  { state.queue with fence := some state.fence }

def Claims (state : Claiming) (refs : List QueueClaimRef) (next : Claiming) : Prop :=
  next.claimed = refs.reverse ++ state.claimed ∧
    Run EditStep state.current (refs.map .created) next.current

theorem Claims.refl (state : Claiming) : Claims state [] state :=
  ⟨rfl, .nil⟩

theorem Claims.trans {first second third : Claiming} {front back : List QueueClaimRef}
    (before : Claims first front second) (behind : Claims second back third) :
    Claims first (front ++ back) third := by
  refine ⟨?_, ?_⟩
  · rw [behind.1, before.1, List.reverse_append, List.append_assoc]
  · rw [List.map_append]
    exact before.2.append behind.2

theorem claimLane_claims (call : ClaimCall) (claimLimit : ℕ) (laneLimit : JsNumber) :
    (ids : List JsString) → (laneClaims : ℕ) → (state : Claiming) →
    ∃ refs, Claims state refs (claimLane call claimLimit laneLimit laneClaims ids state)
  | [], _, state => ⟨[], .refl state⟩
  | id :: ids, laneClaims, state => by
      rw [claimLane]
      dsimp only
      split_ifs with full skipped cooling exhausted
      · exact ⟨[], .refl state⟩
      · exact claimLane_claims call claimLimit laneLimit ids laneClaims state
      · exact claimLane_claims call claimLimit laneLimit ids laneClaims
          { state with seen := id :: state.seen }
      · exact ⟨[], .refl state⟩
      · rw [not_or, Bool.not_eq_false] at cooling
        let seen : Claiming := { state with seen := id :: state.seen }
        have first : Claims state [call.nextRef seen id] (seen.install (call.nextRef seen id)) :=
          ⟨rfl, .single (.created rfl cooling.2 rfl)⟩
        obtain ⟨refs, rest⟩ := claimLane_claims call claimLimit laneLimit ids (laneClaims + 1)
          (seen.install (call.nextRef seen id))
        exact ⟨_, first.trans rest⟩

theorem claimLanes_claims (call : ClaimCall) (claimLimit : ℕ) :
    (lanes : List ClaimLane) → (state : Claiming) →
    ∃ refs, Claims state refs (claimLanes call claimLimit lanes state)
  | [], state => ⟨[], .refl state⟩
  | lane :: lanes, state => by
      obtain ⟨front, first⟩ := claimLane_claims call claimLimit lane.limit lane.candidateIds 0 state
      rw [claimLanes]
      split_ifs with full
      · exact ⟨front, first⟩
      · obtain ⟨back, rest⟩ := claimLanes_claims call claimLimit lanes
          (claimLane call claimLimit lane.limit 0 lane.candidateIds state)
        exact ⟨_, first.trans rest⟩

theorem claimLeasesByLane_edits (call : ClaimCall) (queue : SharedFleetQueue) :
    ∃ fenced, (fenced = [] ∨ fenced = [.fenced]) ∧
      Run EditStep queue (fenced ++ (claimLeasesByLane call queue).2.map .created)
        (claimLeasesByLane call queue).1 := by
  have start : ∃ fenced, (fenced = [] ∨ fenced = [.fenced]) ∧
      Run EditStep queue fenced { queue with fence := some (call.fence queue) } := by
    cases fence : queue.fence with
    | some known =>
        refine ⟨[], .inl rfl, ?_⟩
        rw [ClaimCall.fence, fence, Option.getD_some, ← fence]
        exact .nil
    | none => exact ⟨[.fenced], .inr rfl, .single (.fenced fence)⟩
  obtain ⟨fenced, either, first⟩ := start
  refine ⟨fenced, either, ?_⟩
  unfold claimLeasesByLane
  dsimp only
  split_ifs with refused
  · rw [List.map_nil, List.append_nil]
    exact first
  · obtain ⟨refs, claimed, run⟩ := claimLanes_claims call (call.limit?.getD 0) call.lanes
      ⟨{ queue with fence := some (call.fence queue) }, call.fence queue, [], [],
        queue.claims.entries.length⟩
    rw [claimed, List.append_nil, List.reverse_reverse]
    exact first.append run

theorem renewClaims_edits (leaseMs : ℕ) (now : ℤ) :
    (refs : List QueueClaimRef) → (queue : SharedFleetQueue) →
    ∃ renewed : List QueueClaimRef, Run EditStep queue (renewed.map .renewed)
      (renewClaims leaseMs now refs queue).1
  | [], _ => ⟨[], .nil⟩
  | ref :: refs, queue => by
      rw [renewClaims]
      dsimp only
      by_cases skipped : claimMatches queue ref = false ∨ ref.leaseUntil ≤ now
      · rw [if_pos skipped]
        exact renewClaims_edits leaseMs now refs queue
      · rw [if_neg skipped]
        rw [not_or, Bool.not_eq_false] at skipped
        obtain ⟨renewed, run⟩ := renewClaims_edits leaseMs now refs _
        exact ⟨ref :: renewed, (Run.single (.renewed skipped.1)).append run⟩

theorem releaseClaims_edits :
    (refs : List QueueClaimRef) → (queue : SharedFleetQueue) →
    ∃ released : List QueueClaimRef, Run EditStep queue (released.map .released)
      (releaseClaims refs queue).1
  | [], _ => ⟨[], .nil⟩
  | ref :: refs, queue => by
      rw [releaseClaims]
      dsimp only
      split_ifs with skipped
      · exact releaseClaims_edits refs queue
      · rw [not_or, not_not, Bool.not_eq_false] at skipped
        obtain ⟨released, run⟩ := releaseClaims_edits refs (deleteClaim queue ref.itemId)
        exact ⟨ref :: released, (Run.single (.released skipped.2 skipped.1)).append run⟩

theorem beginClaimExecution_edits {ref : QueueClaimRef} {now : ℤ} (queue : SharedFleetQueue) :
    beginClaimExecution ref now queue = (queue, none) ∨
      (now < ref.leaseUntil ∧
        beginClaimExecution ref now queue =
          (setClaim queue ref.itemId
            ⟨encodeOwner { ref with phase := .executing }, legacyExecutingLease⟩,
            some { ref with phase := .executing }.keyed) ∧
        EditStep queue (.begun ref) (beginClaimExecution ref now queue).1) := by
  unfold beginClaimExecution
  split_ifs with refused
  · exact .inl rfl
  · rw [not_or, not_or, not_not, Bool.not_eq_false, not_le] at refused
    exact .inr ⟨refused.2.2, rfl, .begun refused.2.1 refused.1⟩

theorem completeClaim_edits {call : CompleteCall} (queue : SharedFleetQueue) :
    completeClaim call queue = (queue, false) ∨
      ((completeClaim call queue).2 = true ∧
        Run EditStep queue [.completed call] (completeClaim call queue).1) := by
  unfold completeClaim
  split_ifs with refused
  · exact .inl rfl
  · rw [not_or, Bool.not_eq_false] at refused
    exact .inr ⟨rfl, .single (.completed refused.1)⟩

theorem settleClaim_edits {ref : QueueClaimRef} {now : ℤ} (queue : SharedFleetQueue) :
    settleClaim ref now queue = (queue, false) ∨
      ((settleClaim ref now queue).2 = true ∧
        Run EditStep queue [.settled ref] (settleClaim ref now queue).1) := by
  unfold settleClaim
  split_ifs with refused
  · exact .inl rfl
  · rw [not_or, not_or, Bool.not_eq_false] at refused
    exact .inr ⟨rfl, .single (.settled refused.2.1)⟩

end AshlrHub.Fleet
