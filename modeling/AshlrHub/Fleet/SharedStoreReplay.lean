import AshlrHub.Fleet.SharedStoreAuthority
import AshlrHub.Js.Plain

namespace AshlrHub.Fleet

open Js Authority Lib

/-! Owner keys both ways, and what a claim and a completion are still worth later. -/

theorem value64_digit64 {value : ℕ} (small : value < 64) :
    value64 (digit64 value) = some value := by
  have table : ∀ value < 64, value64 (digit64 value) = some value := by decide
  exact table value small

theorem toBase64Url_values : (bytes : Bytes) →
    ∃ values, (toBase64Url bytes).mapM value64 = some values ∧ bytesOf64 values = bytes
  | [] => ⟨[], rfl, rfl⟩
  | [a] => by
      have below := a.toNat_lt
      refine ⟨[a.toNat / 4, a.toNat % 4 * 16], ?_, ?_⟩
      · simp [toBase64Url, List.mapM_cons, value64_digit64, show a.toNat / 4 < 64 by omega,
          show a.toNat % 4 * 16 < 64 by omega]
      · simp only [bytesOf64]
        rw [show a.toNat / 4 * 4 + a.toNat % 4 * 16 / 16 = a.toNat by omega, UInt8.ofNat_toNat]
  | [a, b] => by
      have below := a.toNat_lt
      have under := b.toNat_lt
      refine ⟨[a.toNat / 4, a.toNat % 4 * 16 + b.toNat / 16, b.toNat % 16 * 4], ?_, ?_⟩
      · simp [toBase64Url, List.mapM_cons, value64_digit64, show a.toNat / 4 < 64 by omega,
          show a.toNat % 4 * 16 + b.toNat / 16 < 64 by omega, show b.toNat % 16 * 4 < 64 by omega]
      · simp only [bytesOf64]
        rw [show a.toNat / 4 * 4 + (a.toNat % 4 * 16 + b.toNat / 16) / 16 = a.toNat by omega,
          show (a.toNat % 4 * 16 + b.toNat / 16) % 16 * 16 + b.toNat % 16 * 4 / 4 = b.toNat by omega,
          UInt8.ofNat_toNat, UInt8.ofNat_toNat]
  | a :: b :: c :: bytes => by
      have below := a.toNat_lt
      have under := b.toNat_lt
      have least := c.toNat_lt
      obtain ⟨values, read, back⟩ := toBase64Url_values bytes
      refine ⟨a.toNat / 4 :: (a.toNat % 4 * 16 + b.toNat / 16) ::
        (b.toNat % 16 * 4 + c.toNat / 64) :: c.toNat % 64 :: values, ?_, ?_⟩
      · simp [toBase64Url, List.mapM_cons, value64_digit64, read, show a.toNat / 4 < 64 by omega,
          show a.toNat % 4 * 16 + b.toNat / 16 < 64 by omega,
          show b.toNat % 16 * 4 + c.toNat / 64 < 64 by omega,
          show c.toNat % 64 < 64 by omega]
      · simp only [bytesOf64, back]
        rw [show a.toNat / 4 * 4 + (a.toNat % 4 * 16 + b.toNat / 16) / 16 = a.toNat by omega,
          show (a.toNat % 4 * 16 + b.toNat / 16) % 16 * 16 +
            (b.toNat % 16 * 4 + c.toNat / 64) / 4 = b.toNat by omega,
          show (b.toNat % 16 * 4 + c.toNat / 64) % 4 * 64 + c.toNat % 64 = c.toNat by omega,
          UInt8.ofNat_toNat, UInt8.ofNat_toNat, UInt8.ofNat_toNat]

theorem ofBase64Url_toBase64Url (bytes : Bytes) : ofBase64Url (toBase64Url bytes) = some bytes := by
  obtain ⟨values, read, back⟩ := toBase64Url_values bytes
  rw [ofBase64Url, read, Option.map_some, back]

theorem length_toBase64Url : (bytes : Bytes) →
    3 * (toBase64Url bytes).length ≤ 4 * bytes.length + 2
  | [] => by simp [toBase64Url]
  | [a] => by simp [toBase64Url]
  | [a, b] => by simp [toBase64Url]
  | a :: b :: c :: bytes => by
      have rest := length_toBase64Url bytes
      simp only [toBase64Url, List.length_cons]
      omega

theorem length_toString36 {n : ℕ} (safe : (n : ℤ) ≤ JsNumber.maxSafeInteger) :
    (toString36 n).length ≤ 11 := by
  unfold toString36
  split_ifs
  · decide
  · rw [List.length_map, List.length_reverse, Nat.digits_length_le_iff (by norm_num)]
    rw [JsNumber.maxSafeInteger] at safe
    omega

theorem isPlain_digit64 (value : ℕ) : isPlain (digit64 value) = true := by
  have table : ∀ value < 64, isPlain (digit64 value) = true := by decide
  by_cases small : value < 64
  · exact table value small
  · rw [digit64, if_neg (by omega), if_neg (by omega), if_neg (by omega), if_neg (by omega)]
    decide

theorem isPlain_toBase64Url : (bytes : Bytes) → (toBase64Url bytes).all isPlain = true
  | [] => rfl
  | [a] => by simp [toBase64Url, isPlain_digit64]
  | [a, b] => by simp [toBase64Url, isPlain_digit64]
  | a :: b :: c :: bytes => by simp [toBase64Url, isPlain_digit64, isPlain_toBase64Url bytes]

theorem isPlain_toString36 (n : ℕ) : (toString36 n).all isPlain = true := by
  rw [List.all_eq_true]
  intro unit member
  have digit := isDigit36_toString36 member
  simp only [isDigit36, Bool.or_eq_true, Bool.and_eq_true, decide_eq_true_eq] at digit
  have apart {code : CodeUnit} (other : code.toNat = 0x22 ∨ code.toNat = 0x5C) : unit ≠ code := by
    rintro rfl
    omega
  simp only [isPlain, Bool.and_eq_true, decide_eq_true_eq]
  exact ⟨⟨⟨by omega, by omega⟩, apart (.inl rfl)⟩, apart (.inr rfl)⟩

theorem isPlain_ownerTokenHash (ownerToken : JsString) :
    (ownerTokenHash ownerToken).all isPlain = true := by
  rw [List.all_eq_true]
  intro unit member
  obtain ⟨n, small, rfl⟩ := Sha256.mem_digest member
  have table : ∀ n < 16, isPlain (Sha256.hexDigit n) = true := by decide
  exact table n small

/-- The last part of a key whose lease is a positive whole number. -/
theorem leaseText_natCast (lease : ℕ) : leaseText lease = toString36 lease := by
  rw [leaseText, if_neg (by omega), Int.natAbs_natCast]

/-- What `claimLeasesByLane` accepts of a machine, and the range of a key's numbers. -/
structure KeyInRange (ref : QueueClaimRef) : Prop where
  machine : ref.machineId ≠ [] ∧ byteLength ref.machineId ≤ maxMachineIdBytes
  epoch : 1 ≤ ref.epoch ∧ (ref.epoch : ℤ) ≤ JsNumber.maxSafeInteger
  lease : 1 ≤ ref.leaseUntil ∧ ref.leaseUntil ≤ JsNumber.maxSafeInteger

theorem KeyInRange.whole (range : KeyInRange ref) : ∃ lease : ℕ, ref.leaseUntil = lease ∧
    1 ≤ lease ∧ (lease : ℤ) ≤ JsNumber.maxSafeInteger := by
  have bounds := range.lease
  refine ⟨ref.leaseUntil.toNat, ?_, ?_, ?_⟩ <;> omega

theorem encodeOwner_short (range : KeyInRange ref) :
    byteLength (encodeOwner ref) ≤ maxOwnerKeyBytes := by
  obtain ⟨lease, same, -, safe⟩ := range.whole
  have machine := length_toBase64Url (utf8Encode ref.machineId)
  have short := range.machine.2
  have epoch := length_toString36 range.epoch.2
  have late := length_toString36 safe
  have hash : (ownerTokenHash ref.ownerToken).length = 64 := Sha256.length_digest _
  have phase : (phaseMark ref.phase).length = 1 ∧ (phaseMark ref.phase).all isPlain = true := by
    cases ref.phase <;> decide
  have spelled : encodeOwner ref = modernOwnerPrefix ++ colon :: (phaseMark ref.phase ++
      colon :: (toString36 ref.epoch ++ colon :: (toBase64Url (utf8Encode ref.machineId) ++
        colon :: (ownerTokenHash ref.ownerToken ++ colon :: toString36 lease)))) := by
    simp [encodeOwner, List.intercalate, same, leaseText_natCast]
  have plain : (encodeOwner ref).all isPlain = true := by
    rw [spelled]
    simp [List.all_append, phase.2, isPlain_toString36, isPlain_toBase64Url,
      isPlain_ownerTokenHash, show modernOwnerPrefix.all isPlain = true by decide,
      show isPlain colon = true by decide]
  rw [byteLength, length_utf8Encode_plain plain, spelled]
  rw [byteLength, maxMachineIdBytes] at short
  simp only [List.length_append, List.length_cons, hash, phase.1, maxOwnerKeyBytes,
    show modernOwnerPrefix.length = 8 by decide]
  omega

theorem parseCount36_of_range {n : ℕ} (positive : 1 ≤ n)
    (safe : (n : ℤ) ≤ JsNumber.maxSafeInteger) : parseCount36 (toString36 n) = some n := by
  have digits : toString36 n ≠ [] ∧ (toString36 n).all isDigit36 = true := by
    refine ⟨?_, List.all_eq_true.mpr fun unit member => isDigit36_toString36 member⟩
    intro empty
    have back := parseInt36_toString36 n
    rw [empty] at back
    exact absurd back (by change 0 ≠ n; omega)
  simp [parseCount36, parseInt36_toString36, digits, positive, safe, guard]

theorem parseMachine_toBase64Url {machineId : JsString} (formed : wellFormed machineId = true)
    (named : machineId ≠ []) (short : byteLength machineId ≤ maxMachineIdBytes) :
    parseMachine (toBase64Url (utf8Encode machineId)) = some machineId := by
  simp [parseMachine, ofBase64Url_toBase64Url, utf8Decode_utf8Encode formed, named, short, guard]

def QueueClaimRef.owner (ref : QueueClaimRef) : ModernClaimOwner :=
  ⟨ref.machineId, ownerTokenHash ref.ownerToken, ref.epoch, ref.phase, ref.leaseUntil⟩

theorem parseModernOwner_of_range (formed : wellFormed ref.machineId = true)
    (range : KeyInRange ref) : parseModernOwner (encodeOwner ref) = .modern ref.owner := by
  obtain ⟨lease, same, positive, safe⟩ := range.whole
  have parts : parseOwnerParts (ownerParts ref) = some ref.owner := by
    simp only [ownerParts, parseOwnerParts, parsePhase_phaseMark, same, leaseText_natCast,
      parseCount36_of_range range.epoch.1 range.epoch.2,
      parseCount36_of_range positive safe,
      parseMachine_toBase64Url formed range.machine.1 range.machine.2,
      show sha256HexPattern (ownerTokenHash ref.ownerToken) = true from
        sha256HexPattern_sha256 _]
    simp [guard, QueueClaimRef.owner, same]
  unfold parseModernOwner
  rw [isPrefixOf_encodeOwner, if_neg (by decide), if_neg (not_lt.mpr (encodeOwner_short range)),
    splitOn_encodeOwner, parts]

theorem key_of_parsePhase {mark : JsString} {phase : QueueClaimPhase}
    (parsed : parsePhase mark = some phase) : phaseMark phase = mark := by
  unfold parsePhase at parsed
  split_ifs at parsed with claimed executing
  · cases parsed
    exact claimed.symm
  · cases parsed
    exact executing.symm

theorem key_of_parseCount36 {text : JsString} {n : ℕ} (parsed : parseCount36 text = some n) :
    toString36 n = text := by
  simp only [parseCount36, Option.bind_eq_bind, Option.bind_eq_some_iff, Option.pure_def,
    Option.some.injEq, guard_eq_some, exists_const] at parsed
  obtain ⟨-, canonical, -, rfl⟩ := parsed
  exact canonical

theorem key_of_parseMachine {text machineId : JsString}
    (parsed : parseMachine text = some machineId) :
    toBase64Url (utf8Encode machineId) = text := by
  simp only [parseMachine, Option.bind_eq_bind, Option.bind_eq_some_iff, Option.pure_def,
    Option.some.injEq, guard_eq_some, exists_const] at parsed
  obtain ⟨bytes, -, -, canonical, rfl⟩ := parsed
  exact canonical

def ModernClaimOwner.key (owner : ModernClaimOwner) : JsString :=
  [colon].intercalate
    [modernOwnerPrefix, phaseMark owner.phase, toString36 owner.epoch,
      toBase64Url (utf8Encode owner.machineId), owner.tokenHash, leaseText owner.leaseUntil]

theorem key_of_parseModernOwner {value : JsString} {owner : ModernClaimOwner}
    (parsed : parseModernOwner value = .modern owner) : value = owner.key := by
  unfold parseModernOwner at parsed
  split_ifs at parsed
  cases read : parseOwnerParts (value.splitOn colon) with
  | none =>
      rw [read] at parsed
      cases parsed
  | some found =>
      rw [read] at parsed
      cases parsed
      have joined : [colon].intercalate (value.splitOn colon) = value :=
        List.intercalate_splitOn colon
      unfold parseOwnerParts at read
      split at read
      case h_1 parts mark phase epoch encodedMachine tokenHash leaseUntil shape =>
        simp only [Option.bind_eq_bind, Option.bind_eq_some_iff, Option.pure_def,
          Option.some.injEq, guard_eq_some, exists_const] at read
        obtain ⟨rfl, marked, phased, count, counted, lease, leased, -, machineId, machine, rfl⟩ :=
          read
        rw [← joined, shape, ModernClaimOwner.key, leaseText_natCast, key_of_parsePhase phased,
          key_of_parseCount36 counted, key_of_parseCount36 leased, key_of_parseMachine machine]
      case h_2 => cases read

/-! What the other writers do besides the calls. -/

/-- `validateClaims` of a reading. -/
def validateClaims (reading : Option SharedFleetQueue) (now : ℤ) (refs : List QueueClaimRef) :
    List QueueClaimRef :=
  match reading with
  | none => []
  | some queue => refs.filterMap fun ref => do
      let owner ← claimCapabilityMatches queue ref
      let claim ← queue.claims.lookup ref.itemId
      guard (now < owner.leaseUntil)
      pure { ref with ownerKey := claim.machineId, leaseUntil := owner.leaseUntil }

/-- `recordOutcome` of a machine that holds no claim on the item. -/
def recordOutcome (event : WorkedEvent) (queue : SharedFleetQueue) : SharedFleetQueue × Bool :=
  ({ queue with worked := queue.worked ++ [event] }, true)

inductive StoreLabel where
  | call (label : QueueLabel)
  | recorded (event : WorkedEvent) (done : Option Bool)
  | tallied

inductive StoreStep (system : QueueSystem) : StoreLabel → QueueSystem → Prop
  | call {label : QueueLabel} {next : QueueSystem} (step : QueueStep system label next) :
      StoreStep system (.call label) next
  | recorded {event : WorkedEvent} {done : Option Bool} {file : Option SharedFleetQueue}
      (transacts : Transacts (recordOutcome event) system.file done file) :
      StoreStep system (.recorded event done) { system with file := file }
  | tallied {usage : List UsageEntry → List UsageEntry} {done : Option Unit}
      {file : Option SharedFleetQueue}
      (transacts : Transacts (fun queue => ({ queue with usage := usage queue.usage }, ()))
        system.file done file) :
      StoreStep system .tallied { system with file := file }

def StoreLabel.outcomes : StoreLabel → List WorkedEvent
  | .call label => label.completed.map CompleteCall.event
  | .recorded event (some _) => [event]
  | _ => []

structure Grows (file next : Option SharedFleetQueue) (outcomes : List WorkedEvent)
    (queue after : SharedFleetQueue) : Prop where
  read : readQueueResult file = some queue
  valid : validQueue (bounded after) = true
  file : next = some (bounded after)
  worked : after.worked = queue.worked ++ outcomes
  fence : ∀ fence, queue.fence = some fence →
    ∃ later, after.fence = some later ∧ later.queueId = fence.queueId

theorem EditStep.grows (step : EditStep queue change after) :
    after.worked = queue.worked ++ change.completes.map CompleteCall.event ∧
      ∀ fence, queue.fence = some fence →
        ∃ later, after.fence = some later ∧ later.queueId = fence.queueId := by
  cases step with
  | fenced unfenced =>
      refine ⟨(List.append_nil _).symm, fun fence fenced => ?_⟩
      rw [unfenced] at fenced
      cases fenced
  | created fenced free epoch =>
      refine ⟨(List.append_nil _).symm, fun fence same => ⟨_, rfl, ?_⟩⟩
      rw [fenced] at same
      rw [← Option.some.inj same]
  | completed => exact ⟨rfl, fun fence fenced => ⟨fence, fenced, rfl⟩⟩
  | _ => exact ⟨(List.append_nil _).symm, fun fence fenced => ⟨fence, fenced, rfl⟩⟩

theorem run_grows (run : Run EditStep queue edits after) :
    after.worked = queue.worked ++ (edits.flatMap QueueEdit.completes).map CompleteCall.event ∧
      ∀ fence, queue.fence = some fence →
        ∃ later, after.fence = some later ∧ later.queueId = fence.queueId := by
  induction run with
  | nil => exact ⟨(List.append_nil _).symm, fun fence fenced => ⟨fence, fenced, rfl⟩⟩
  | snoc before taken ih =>
      obtain ⟨grown, kept⟩ := EditStep.grows taken
      refine ⟨?_, fun fence fenced => ?_⟩
      · simp [grown, ih.1, List.flatMap_append]
      · obtain ⟨middle, stands, same⟩ := ih.2 fence fenced
        obtain ⟨later, holds, still⟩ := kept middle stands
        exact ⟨later, holds, still.trans same⟩

variable {system next last : QueueSystem}

theorem StoreStep.grows {label : StoreLabel} (step : StoreStep system label next) :
    next.file = system.file ∨
      ∃ queue after, Grows system.file next.file label.outcomes queue after := by
  cases step with
  | call step =>
      rcases step.installs with ⟨same, -⟩ | ⟨queue, edits, after, installs⟩
      · exact .inl same
      · obtain ⟨worked, fence⟩ := run_grows installs.run
        rw [installs.completes] at worked
        exact .inr ⟨queue, after, installs.read, installs.valid, installs.file, worked, fence⟩
  | recorded transacts =>
      cases transacts with
      | unwritten => exact .inl rfl
      | installed read valid =>
          exact .inr ⟨_, _, read, valid, rfl, rfl, fun fence fenced => ⟨fence, fenced, rfl⟩⟩
  | tallied transacts =>
      cases transacts with
      | unwritten => exact .inl rfl
      | installed read valid =>
          exact .inr ⟨_, _, read, valid, rfl, (List.append_nil _).symm,
            fun fence fenced => ⟨fence, fenced, rfl⟩⟩

def FencedBy (queueId : JsString) (file : Option SharedFleetQueue) : Prop :=
  ∃ queue fence, readQueueResult file = some queue ∧ queue.fence = some fence ∧
    fence.queueId = queueId

section

variable {queueId : JsString} (fenced : FencedBy queueId system.file)
include fenced

theorem FencedBy.step {label : StoreLabel} (step : StoreStep system label next) :
    FencedBy queueId next.file := by
  rcases step.grows with same | ⟨queue, after, grows⟩
  · rwa [same]
  · obtain ⟨held, fence, read, stands, rfl⟩ := fenced
    obtain rfl : held = queue := Option.some.inj (read.symm.trans grows.read)
    obtain ⟨later, holds, still⟩ := grows.fence fence stands
    refine ⟨bounded after, later, ?_, (fence_bounded after).trans holds, still⟩
    rw [grows.file]
    exact readQueueResult_some grows.valid

theorem FencedBy.run {labels : List StoreLabel} (run : Run StoreStep system labels last) :
    FencedBy queueId last.file := by
  induction run with
  | nil => exact fenced
  | snoc before taken ih => exact ih.step taken

end

/-- The completion is on file, with fewer than `count` outcomes behind it. -/
def OnFile (completionId : JsString) (count : ℕ) (file : Option SharedFleetQueue) : Prop :=
  ∃ queue before event behind, readQueueResult file = some queue ∧
    queue.worked = before ++ event :: behind ∧ event.claimCompletionId = some completionId ∧
    behind.length < count

variable {completionId : JsString}

/-- Nothing is dropped of what has fewer than `maxWorked` outcomes behind it. -/
theorem OnFile.bounded {before behind : List WorkedEvent}
    {event : WorkedEvent} (valid : validQueue (bounded after) = true)
    (split : after.worked = before ++ event :: behind)
    (marked : event.claimCompletionId = some completionId) (few : behind.length < maxWorked) :
    OnFile completionId (behind.length + 1) (some (bounded after)) := by
  refine ⟨_, before.drop (after.worked.length - maxWorked), event, behind,
    readQueueResult_some valid, ?_, marked, Nat.lt_succ_self _⟩
  rw [AshlrHub.Fleet.bounded]
  dsimp only
  rw [split, List.drop_append_of_le_length]
  rw [List.length_append, List.length_cons]
  omega

theorem QueueStep.completed_onFile {call : CompleteCall} {answer : Bool}
    (step : QueueStep system (.complete call (some true) answer) next) :
    OnFile call.completionId 1 next.file := by
  generalize done : some true = outcome at step
  cases step with
  | complete admitted transacts reports =>
      cases transacts with
      | unwritten => cases done
      | @installed queue read valid =>
          rcases @completeClaim_edits call queue with same | ⟨-, run⟩
          · rw [same] at done
            cases done
          · exact OnFile.bounded valid (run_grows run).1 rfl (by decide)

variable {count : ℕ}

theorem OnFile.grows {file later : Option SharedFleetQueue}
    {outcomes : List WorkedEvent} (held : OnFile completionId count file)
    (grows : Grows file later outcomes queue after) (few : count + outcomes.length ≤ maxWorked) :
    OnFile completionId (count + outcomes.length) later := by
  obtain ⟨_, before, event, behind, read, split, marked, short⟩ := held
  obtain rfl := Option.some.inj (read.symm.trans grows.read)
  have grown : after.worked = before ++ event :: (behind ++ outcomes) := by
    rw [grows.worked, split, List.append_assoc, List.cons_append]
  obtain ⟨queue, front, later, rest, again, shape, kept, bound⟩ :=
    OnFile.bounded grows.valid grown marked (by rw [List.length_append]; omega)
  rw [List.length_append] at bound
  rw [grows.file]
  exact ⟨queue, front, later, rest, again, shape, kept, by omega⟩

theorem OnFile.run {labels : List StoreLabel}
    (held : OnFile completionId count system.file) (run : Run StoreStep system labels last)
    (few : count + (labels.flatMap StoreLabel.outcomes).length ≤ maxWorked) :
    OnFile completionId (count + (labels.flatMap StoreLabel.outcomes).length) last.file := by
  induction run with
  | nil => exact held
  | snoc before taken ih =>
      rw [List.flatMap_append, List.length_append, ← add_assoc, List.flatMap_singleton] at few ⊢
      have sofar := ih (by omega)
      rcases taken.grows with same | ⟨queue, after, grows⟩
      · obtain ⟨queue, front, event, behind, read, split, marked, short⟩ := sofar
        rw [same]
        exact ⟨queue, front, event, behind, read, split, marked, by omega⟩
      · exact sofar.grows grows few

/-! What a call that returns a reference leaves under it. -/

def Carries (queue : SharedFleetQueue) (ref : QueueClaimRef) : Prop :=
  ∃ claim, queue.claims.lookup ref.itemId = some claim ∧ claim.machineId = ref.ownerKey

structure Granting (state : Claiming) : Prop where
  claimed : ∀ ref ∈ state.claimed, Carries state.queue ref ∧ ref.itemId ∈ state.seen ∧
    ref.queueId = state.fence.queueId ∧ ref.ownerKey = encodeOwner ref

theorem Granting.install {call : ClaimCall} {state : Claiming} {id : JsString}
    (granting : Granting state) (fresh : id ∉ state.seen) :
    Granting (Claiming.install { state with seen := id :: state.seen }
      (call.nextRef { state with seen := id :: state.seen } id)) where
  claimed := by
    intro ref member
    rcases List.mem_cons.mp member with rfl | earlier
    · exact ⟨⟨_, (lookup_setClaim _ _ _ _).trans (if_pos rfl), rfl⟩, List.mem_cons_self, rfl, rfl⟩
    · obtain ⟨⟨claim, held, key⟩, seen, fenced, spelled⟩ := granting.claimed ref earlier
      have apart : ref.itemId ≠ id := fun same => fresh (same ▸ seen)
      exact ⟨⟨claim, (lookup_setClaim _ _ _ _).trans ((if_neg apart).trans held), key⟩,
        List.mem_cons_of_mem _ seen, fenced, spelled⟩

theorem claimLane_granting (call : ClaimCall) (claimLimit : ℕ) (laneLimit : JsNumber) :
    (ids : List JsString) → (laneClaims : ℕ) → {state : Claiming} → Granting state →
    Granting (claimLane call claimLimit laneLimit laneClaims ids state)
  | [], _, _, granting => granting
  | id :: ids, laneClaims, state, granting => by
      rw [claimLane]
      dsimp only
      have noted : Granting { state with seen := id :: state.seen } :=
        ⟨fun ref member => by
          obtain ⟨carries, seen, rest⟩ := granting.claimed ref member
          exact ⟨carries, List.mem_cons_of_mem _ seen, rest⟩⟩
      split_ifs with full skipped cooling exhausted
      · exact granting
      · exact claimLane_granting call claimLimit laneLimit ids laneClaims granting
      · exact claimLane_granting call claimLimit laneLimit ids laneClaims noted
      · exact noted
      · rw [not_or, not_or] at skipped
        exact claimLane_granting call claimLimit laneLimit ids (laneClaims + 1)
          (granting.install skipped.2.2)

theorem claimLanes_granting (call : ClaimCall) (claimLimit : ℕ) :
    (lanes : List ClaimLane) → {state : Claiming} → Granting state →
    Granting (claimLanes call claimLimit lanes state)
  | [], _, granting => granting
  | lane :: lanes, state, granting => by
      have first := claimLane_granting call claimLimit lane.limit lane.candidateIds 0 granting
      rw [claimLanes]
      split_ifs with full
      · exact first
      · exact claimLanes_granting call claimLimit lanes first

/-- What a returned reference may count on in the queue that its call installed. -/
structure Granted (queue : SharedFleetQueue) (ref : QueueClaimRef) : Prop where
  carries : Carries queue ref
  fenced : ∃ fence, queue.fence = some fence ∧ fence.queueId = ref.queueId
  spelled : ref.ownerKey = encodeOwner ref

theorem claimLeasesByLane_granted {call : ClaimCall}
    (member : ref ∈ (claimLeasesByLane call queue).2) :
    Granted (claimLeasesByLane call queue).1 ref := by
  unfold claimLeasesByLane at member ⊢
  dsimp only at member ⊢
  split_ifs at member ⊢ with refused
  · cases member
  · have start : Granting ⟨{ queue with fence := some (call.fence queue) }, call.fence queue, [],
        [], queue.claims.entries.length⟩ := ⟨nofun⟩
    have granting := claimLanes_granting call (call.limit?.getD 0) call.lanes start
    obtain ⟨carries, -, fenced, spelled⟩ := granting.claimed ref (List.mem_reverse.mp member)
    exact ⟨carries, ⟨_, rfl, fenced.symm⟩, spelled⟩

theorem leaseText_inj {first second : ℤ} (same : leaseText first = leaseText second) :
    first = second := by
  have sign (n : ℕ) (text : JsString) : js "-" ++ text ≠ toString36 n := by
    intro equal
    have digit := isDigit36_toString36
      (equal ▸ List.mem_cons_self : (0x2D : CodeUnit) ∈ toString36 n)
    cases digit
  unfold leaseText at same
  split_ifs at same with less lesser
  · have equal := toString36_inj (List.append_cancel_left same)
    omega
  · exact absurd same (sign _ _)
  · exact absurd same.symm (sign _ _)
  · have equal := toString36_inj same
    omega

theorem encodeOwner_lease {other : QueueClaimRef} (same : encodeOwner ref = encodeOwner other) :
    ref.leaseUntil = other.leaseUntil := by
  have parts := congrArg (List.splitOn colon) same
  rw [splitOn_encodeOwner, splitOn_encodeOwner] at parts
  simp only [ownerParts, List.cons.injEq] at parts
  exact leaseText_inj parts.2.2.2.2.2.1

theorem renewClaims_carries {leaseMs : ℕ} {now : ℤ} {held : QueueClaimRef}
    (spelled : held.ownerKey = encodeOwner held) (renewed : now + leaseMs ≤ held.leaseUntil) :
    (refs : List QueueClaimRef) → {queue : SharedFleetQueue} → Carries queue held →
    Carries (renewClaims leaseMs now refs queue).1 held
  | [], _, carries => carries
  | ref :: refs, queue, carries => by
      rw [renewClaims]
      dsimp only
      by_cases skipped : claimMatches queue ref = false ∨ ref.leaseUntil ≤ now
      · rw [if_pos skipped]
        exact renewClaims_carries spelled renewed refs carries
      · rw [if_neg skipped]
        rw [not_or, Bool.not_eq_false] at skipped
        refine renewClaims_carries spelled renewed refs ?_
        by_cases same : held.itemId = ref.itemId
        · obtain ⟨claim, record, key⟩ := carries
          obtain ⟨other, found, matched⟩ := claimMatches_lookup skipped.1
          rw [← same, record] at found
          cases found
          have equal : encodeOwner ref = encodeOwner held := matched.symm.trans (key.trans spelled)
          have late : max ref.leaseUntil (now + leaseMs) = ref.leaseUntil :=
            max_eq_left (encodeOwner_lease equal ▸ renewed)
          refine ⟨_, (lookup_setClaim _ _ _ _).trans (if_pos same), ?_⟩
          rw [spelled, ← equal]
          change encodeOwner { ref with leaseUntil := max ref.leaseUntil (now + leaseMs) } = _
          rw [late]
        · obtain ⟨claim, record, key⟩ := carries
          exact ⟨claim, (lookup_setClaim _ _ _ _).trans ((if_neg same).trans record), key⟩

theorem renewClaims_fence (leaseMs : ℕ) (now : ℤ) :
    (refs : List QueueClaimRef) → (queue : SharedFleetQueue) →
    (renewClaims leaseMs now refs queue).1.fence = queue.fence
  | [], _ => rfl
  | ref :: refs, queue => by
      rw [renewClaims]
      dsimp only
      by_cases skipped : claimMatches queue ref = false ∨ ref.leaseUntil ≤ now
      · rw [if_pos skipped, renewClaims_fence leaseMs now refs queue]
      · rw [if_neg skipped]
        exact renewClaims_fence leaseMs now refs _

theorem renewClaims_granted {leaseMs : ℕ} {now : ℤ} :
    (refs : List QueueClaimRef) → {queue : SharedFleetQueue} →
    ref ∈ (renewClaims leaseMs now refs queue).2 →
    Granted (renewClaims leaseMs now refs queue).1 ref
  | [], _, member => by cases member
  | first :: refs, queue, member => by
      rw [renewClaims] at member ⊢
      dsimp only at member ⊢
      by_cases skipped : claimMatches queue first = false ∨ first.leaseUntil ≤ now
      · rw [if_pos skipped] at member ⊢
        exact renewClaims_granted refs member
      · rw [if_neg skipped] at member ⊢
        rcases List.mem_cons.mp member with rfl | later
        · rw [not_or, Bool.not_eq_false] at skipped
          refine ⟨renewClaims_carries rfl (le_max_right _ _) refs ⟨_,
            (lookup_setClaim _ _ _ _).trans (if_pos rfl), rfl⟩, ?_, rfl⟩
          have fenced := skipped.1
          unfold claimMatches at fenced
          rw [Bool.and_eq_true, Bool.and_eq_true, Option.any_eq_true] at fenced
          obtain ⟨fence, stands, same⟩ := fenced.1.1
          exact ⟨fence, (renewClaims_fence leaseMs now refs _).trans stands, of_decide_eq_true same⟩
        · exact renewClaims_granted refs later

/-! Later. -/

def QueueLabel.returned : QueueLabel → List QueueClaimRef
  | .claim _ _ answer => answer
  | .renew _ _ answer => answer
  | _ => []

/-- The record of the item is there, under the key of the reference. -/
def Held (file : Option SharedFleetQueue) (ref : QueueClaimRef) : Prop :=
  ∃ queue, readQueueResult file = some queue ∧ Carries queue ref

theorem Granted.held (granted : Granted queue ref) (valid : validQueue (bounded queue) = true) :
    Held (some (bounded queue)) ref ∧ FencedBy ref.queueId (some (bounded queue)) ∧
      ref.ownerKey = encodeOwner ref := by
  have read := readQueueResult_some valid
  obtain ⟨fence, stands, same⟩ := granted.fenced
  refine ⟨⟨_, read, ?_⟩, ⟨_, fence, read, (fence_bounded queue).trans stands, same⟩,
    granted.spelled⟩
  unfold Carries
  rw [claims_bounded]
  exact granted.carries

theorem QueueStep.returned_held {label : QueueLabel} (step : QueueStep system label next)
    (member : ref ∈ label.returned) :
    Held next.file ref ∧ FencedBy ref.queueId next.file ∧ ref.ownerKey = encodeOwner ref := by
  cases step with
  | claim admitted transacts reports =>
      rcases reports with done | rfl
      · cases transacts with
        | unwritten => cases done
        | installed read valid =>
            cases done
            exact (claimLeasesByLane_granted member).held valid
      · cases member
  | renew transacts reports =>
      rcases reports with done | rfl
      · cases transacts with
        | unwritten => cases done
        | installed read valid =>
            cases done
            exact (renewClaims_granted _ member).held valid
      · cases member
  | _ => cases member

theorem parseMachine_eq {machineId found : JsString} (formed : wellFormed machineId = true)
    (parsed : parseMachine (toBase64Url (utf8Encode machineId)) = some found) :
    found = machineId := by
  simp only [parseMachine, ofBase64Url_toBase64Url, Option.bind_eq_bind, Option.bind_eq_some_iff,
    Option.pure_def, Option.some.injEq, guard_eq_some, exists_const] at parsed
  obtain ⟨_, rfl, -, -, rfl⟩ := parsed
  exact utf8Decode_utf8Encode formed

theorem owner?_machineId {claim : ItemClaim} {owner : ModernClaimOwner}
    (formed : wellFormed ref.machineId = true) (held : claim.owner? = some owner)
    (key : claim.machineId = encodeOwner ref) : owner.machineId = ref.machineId := by
  unfold ItemClaim.owner? parseModernOwner at held
  rw [key, isPrefixOf_encodeOwner, if_neg (by decide), splitOn_encodeOwner] at held
  split_ifs at held
  cases read : parseOwnerParts (ownerParts ref) with
  | none =>
      rw [read] at held
      cases held
  | some found =>
      rw [read] at held
      cases held
      simp only [parseOwnerParts, ownerParts, Option.bind_eq_bind, Option.bind_eq_some_iff,
        Option.pure_def, Option.some.injEq] at read
      obtain ⟨-, -, -, -, -, -, -, -, -, -, machineId, machine, rfl⟩ := read
      exact parseMachine_eq formed machine

theorem validateClaims_held {file : Option SharedFleetQueue} {now : ℤ}
    (formed : wellFormed ref.machineId = true) (held : Held file ref)
    (fenced : FencedBy ref.queueId file) (spelled : ref.ownerKey = encodeOwner ref)
    (live : now < ref.leaseUntil) : validateClaims (readQueueResult file) now [ref] = [ref] := by
  obtain ⟨queue, read, claim, record, key⟩ := held
  obtain ⟨other, fence, again, stands, same⟩ := fenced
  obtain rfl := Option.some.inj (read.symm.trans again)
  obtain ⟨owner, owned, owns⟩ :=
    owner?_encodeOwner (valid_claim (readQueueResult_valid read) record) (key.trans spelled)
  have machine := owner?_machineId formed owned (key.trans spelled)
  have matched : claimCapabilityMatches queue ref = some owner := by
    simp [claimCapabilityMatches, record, owned, stands, same, machine, owns.epoch, owns.phase,
      owns.tokenHash, guard]
  simp [validateClaims, read, matched, record, key, owns.leaseUntil, live, guard]

/-- A ref that no later call replaced is still `Held`; a completion that is asked for again ends
in its `probe`. -/
theorem claim_replay :
    (∀ ref, wellFormed ref.machineId = true → KeyInRange ref →
      parseModernOwner (encodeOwner ref) = .modern ref.owner) ∧
    (∀ value owner, parseModernOwner value = .modern owner → value = owner.key) ∧
    (∀ system label next, QueueStep system label next → ∀ ref ∈ label.returned,
      wellFormed ref.machineId = true → Held next.file ref ∧
        ∀ labels last, Run StoreStep next labels last → Held last.file ref →
          ∀ now < ref.leaseUntil, validateClaims (readQueueResult last.file) now [ref] = [ref]) ∧
    ∀ system call answer next, QueueStep system (.complete call (some true) answer) next →
      ∀ labels last, Run StoreStep next labels last →
        (labels.flatMap StoreLabel.outcomes).length < maxWorked → ∀ ref now,
          (WaitingCall.complete ref call.completionId).probe (readQueueResult last.file) now =
            .answers (.success none) := by
  refine ⟨fun ref formed range => parseModernOwner_of_range formed range,
    fun value owner parsed => key_of_parseModernOwner parsed, ?_, ?_⟩
  · intro system label next step ref member formed
    obtain ⟨held, fenced, spelled⟩ := step.returned_held member
    refine ⟨held, fun labels last run still now live => ?_⟩
    have kept := fenced.run run
    exact validateClaims_held formed still kept spelled live
  · intro system call answer next step labels last run few ref now
    have installed := step.completed_onFile
    obtain ⟨queue, before, event, behind, read, split, marked, -⟩ := installed.run run (by omega)
    have known : (queue.worked.any fun event =>
        event.claimCompletionId = some call.completionId) = true := by
      rw [List.any_eq_true]
      exact ⟨event, by rw [split]; simp, by simp [marked]⟩
    simp only [WaitingCall.probe, read, known, if_true]

/-! A machine id that UTF-8 does not keep, and as many outcomes as the list holds. -/

def brokenRef : QueueClaimRef :=
  { claimedRef with machineId := [0xD800] }

def laterOutcome : WorkedEvent :=
  ⟨js "item-b", .empty, js "2026-10-01T00:01:00.000Z", none, none⟩

def filledQueue (count : ℕ) : SharedFleetQueue :=
  ⟨some ⟨sampleId, 10001⟩, ∅, completingCall.event :: List.replicate count laterOutcome, []⟩

def forgetfulQueue : SharedFleetQueue :=
  ⟨some ⟨sampleId, 10001⟩, ∅, List.replicate maxWorked laterOutcome, []⟩

theorem valid_outcomes {worked : List WorkedEvent} (few : worked.length ≤ maxWorked)
    (valid : worked.all validWorkedEvent = true) :
    validQueue ⟨some ⟨sampleId, 10001⟩, ∅, worked, []⟩ = true := by
  have fence : validFence ⟨some ⟨sampleId, 10001⟩, ∅, worked, []⟩ = true := by
    simp only [validFence, SharedFleetQueue.owners, AList.empty_entries, List.filterMap_nil,
      List.all_nil]
    decide +kernel
  simp [validQueue, few, fence, valid]

theorem valid_events : validWorkedEvent completingCall.event = true ∧
    validWorkedEvent laterOutcome = true := by
  decide +kernel

theorem valid_filledQueue (few : count < maxWorked) :
    validQueue (filledQueue count) = true := by
  refine valid_outcomes (by simp; omega) ?_
  rw [List.all_cons, List.all_replicate]
  simp [valid_events]

theorem fills : (count : ℕ) → count < maxWorked →
    Run StoreStep ⟨some (filledQueue 0), []⟩
      (List.replicate count (.recorded laterOutcome (some true))) ⟨some (filledQueue count), []⟩
  | 0, _ => .nil
  | count + 1, few => by
      have before := fills count (by omega)
      have recorded : recordOutcome laterOutcome (filledQueue count) =
          (filledQueue (count + 1), true) := by
        simp [recordOutcome, filledQueue, List.replicate_succ']
      have whole : bounded (filledQueue (count + 1)) = filledQueue (count + 1) := by
        simp [bounded, filledQueue, Nat.sub_eq_zero_of_le (Nat.succ_le_of_lt few)]
      rw [List.replicate_succ']
      exact before.snoc (.recorded (.of_eq (readQueueResult_some (valid_filledQueue (by omega)))
        recorded whole (valid_filledQueue few)))

theorem forgets : Run StoreStep ⟨some (filledQueue 0), []⟩
    (List.replicate maxWorked (.recorded laterOutcome (some true))) ⟨some forgetfulQueue, []⟩ := by
  have full := valid_filledQueue (show 1999 < maxWorked by decide)
  have drops : bounded (recordOutcome laterOutcome (filledQueue 1999)).1 = forgetfulQueue := by
    have dropped : (completingCall.event :: List.replicate 1999 laterOutcome ++
        [laterOutcome]).drop 1 = List.replicate maxWorked laterOutcome :=
      (List.replicate_succ' (n := 1999)).symm
    have excess : (completingCall.event :: List.replicate 1999 laterOutcome ++
        [laterOutcome]).length - maxWorked = 1 := by
      rw [List.length_append, List.length_cons, List.length_replicate]
      rfl
    simp only [bounded, recordOutcome, filledQueue, forgetfulQueue, excess, dropped, List.drop_nil]
  have valid : validQueue forgetfulQueue = true := by
    refine valid_outcomes (by simp) ?_
    rw [List.all_replicate]
    simp [valid_events]
  have last : Transacts (recordOutcome laterOutcome) (some (filledQueue 1999)) (some true)
      (some forgetfulQueue) := by
    have installed : Transacts (recordOutcome laterOutcome) (some (filledQueue 1999)) (some true)
        (some (bounded (recordOutcome laterOutcome (filledQueue 1999)).1)) :=
      .installed (readQueueResult_some full) (by rwa [drops])
    rwa [drops] at installed
  rw [show maxWorked = 1999 + 1 from rfl, List.replicate_succ']
  exact (fills 1999 (by decide)).snoc (.recorded last)

theorem completed_step : QueueStep ⟨some begunQueue, []⟩ (.complete completingCall (some true) true)
    ⟨some (filledQueue 0), []⟩ := by
  have changes : completeClaim completingCall begunQueue = (filledQueue 0, true) := by
    decide +kernel
  refine .complete (by decide +kernel) (.of_eq (readQueueResult_some sample_steps.2.2) changes ?_
    (valid_filledQueue (by decide))) (.inl rfl)
  simp [bounded, filledQueue, maxWorked]

theorem claim_replay_sample :
    validateClaims (readQueueResult (some claimedQueue)) 10999 [claimedRef] = [claimedRef] ∧
      (WaitingCall.complete begunRef sampleId).probe (readQueueResult (some (filledQueue 1)))
        20000 = .answers (.success none) := by
  obtain ⟨-, -, returned, completed⟩ := claim_replay
  obtain ⟨held, later⟩ := returned _ _ _ claimed_step claimedRef (List.mem_singleton_self _)
    (by decide)
  exact ⟨later [] _ .nil held 10999 (by decide),
    completed _ _ _ _ completed_step _ _ (fills 1 (by decide)) (by decide) begunRef 20000⟩

/-- A lone surrogate in a machine id reads back as another id, and a completion is forgotten
behind as many outcomes as the list keeps. -/
theorem replay_forgets :
    (KeyInRange brokenRef ∧ parseModernOwner (encodeOwner brokenRef) ≠ .modern brokenRef.owner) ∧
    ∃ next labels last,
      QueueStep ⟨some begunQueue, []⟩ (.complete completingCall (some true) true) next ∧
      Run StoreStep next labels last ∧ ∀ now,
        (WaitingCall.complete begunRef sampleId).probe (readQueueResult last.file) now ≠
          .answers (.success none) := by
  refine ⟨⟨⟨by decide, by decide, by decide⟩, by decide +kernel⟩, ⟨some (filledQueue 0), []⟩, _,
    ⟨some forgetfulQueue, []⟩, completed_step, forgets, fun now => ?_⟩
  have unknown : (forgetfulQueue.worked.any fun event =>
      event.claimCompletionId = some sampleId) = false := by
    rw [forgetfulQueue, List.any_replicate]
    simp [laterOutcome]
  unfold readQueueResult
  dsimp only
  split_ifs
  · simp [WaitingCall.probe, unknown]
  · simp [WaitingCall.probe]

/-- Whatever answers are lost: an item is completed once under an epoch, and no later claim on it
carries that epoch. -/
theorem completed_once {start : Option SharedFleetQueue} {labels : List QueueLabel}
    {system : QueueSystem} (run : Run QueueStep ⟨start, []⟩ labels system) :
    (completedIn labels).Pairwise (fun first second =>
      ¬ (first.ref.itemId = second.ref.itemId ∧ first.ref.epoch = second.ref.epoch)) ∧
      ∀ call ∈ completedIn labels, ∀ queue ref, readQueueResult system.file = some queue →
        Keyed queue call.ref.itemId ref → ref.epoch ≠ call.ref.epoch := by
  rcases run_issued run with ⟨-, -, none⟩ | ⟨queue, read, issued⟩
  · rw [none]
    exact ⟨.nil, nofun⟩
  · refine ⟨issued.once, fun call done other ref again keyed => ?_⟩
    cases read.symm.trans again
    exact issued.gone call done keyed

/-! Two items under one epoch, both completed. -/

def pairQueue : SharedFleetQueue :=
  { begunQueue with
    claims := begunQueue.claims.insert (js "item-b") ⟨begunRef.ownerKey, legacyExecutingLease⟩ }

def otherCall : CompleteCall :=
  { completingCall with
    ref := { begunRef with itemId := js "item-b" }
    completionId := js "1b9a1a52-7b5e-4c1e-9d7a-2f5a4c8e1b30" }

theorem completed_once_sample :
    (completedIn [.complete completingCall (some true) true,
      .complete otherCall (some true) true]).Pairwise fun first second =>
        ¬ (first.ref.itemId = second.ref.itemId ∧ first.ref.epoch = second.ref.epoch) := by
  have first : Completes completingCall pairQueue := by decide +kernel
  have second : Completes otherCall (completeClaim completingCall pairQueue).1 := by
    decide +kernel
  exact (completed_once ((Run.single first.step).snoc second.step)).1

end AshlrHub.Fleet
