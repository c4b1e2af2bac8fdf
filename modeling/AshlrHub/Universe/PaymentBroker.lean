import AshlrHub.Js.Map
import AshlrHub.Universe.Artifacts

namespace AshlrHub.Universe

open Js Artifacts Authority

/-! The payment broker: a pure reducer over a ledger of simulated reservations. -/

def paymentBrokerMaxEntries : ℕ := 512

def dayMs : ℕ := 86400000

def maxClock : ℕ := 253402300799999

def maxSafe : ℕ := 9007199254740991

inductive PaymentBrokerDenial where
  | merchantNotAllowed
  | scopeNotAllowed
  | currencyNotAllowed
  | requestCap
  | dayCap
  | callerDenied
deriving DecidableEq

inductive EntryStatus where
  | requested
  | denied
  | reserved
  | settled
  | held
deriving DecidableEq

inductive SettlementOutcome where
  | succeeded
  | failed
  | unknown
deriving DecidableEq

structure PaymentBrokerRequest where
  requestId : JsString
  merchantId : JsString
  scopeId : JsString
  currency : JsString
  amountMinor : ℕ

structure PaymentBrokerPolicy where
  policyId : JsString
  currency : JsString
  allowedMerchantIds : List JsString
  allowedScopeIds : List JsString
  maxPerRequestMinor : ℕ
  maxPerDayMinor : ℕ
  dayCapSafe : maxPerDayMinor ≤ maxSafe

structure PaymentBrokerEntry where
  request : PaymentBrokerRequest
  requestDigest : JsString
  status : EntryStatus
  requestedAtMs : ℕ
  reservedAtMs : Option ℕ
  settledAtMs : Option ℕ
  reservationDigest : Option JsString
  settlement : Option SettlementOutcome
  denial : Option PaymentBrokerDenial

structure PaymentBrokerState where
  policyDigest : JsString
  dayIndex : ℕ
  highWaterMs : ℕ
  entries : List PaymentBrokerEntry

/-! What is handed in. -/

/-- A number as it is handed in: `-0` is told from `0`. -/
inductive NumberValue where
  | negativeZero
  | number (value : JsNumber)

structure PolicyValue where
  policyId : JsString
  currency : JsString
  allowedMerchantIds : List JsString
  allowedScopeIds : List JsString
  maxPerRequestMinor : NumberValue
  maxPerDayMinor : NumberValue

structure RequestValue where
  requestId : JsString
  merchantId : JsString
  scopeId : JsString
  currency : JsString
  amountMinor : NumberValue

inductive ActionValue where
  | request (nowMs : NumberValue) (request : RequestValue)
  | reserve (nowMs : NumberValue) (requestId requestDigest : JsString)
  | deny (nowMs : NumberValue) (requestId requestDigest : JsString)
  | settle (nowMs : NumberValue) (requestId requestDigest reservationDigest : JsString)
      (outcome : SettlementOutcome)
  /-- Another kind, other keys, accessors, or no object at all. -/
  | other

inductive PaymentBrokerAction where
  | request (nowMs : ℕ) (request : PaymentBrokerRequest)
  | reserve (nowMs : ℕ) (requestId requestDigest : JsString)
  | deny (nowMs : ℕ) (requestId requestDigest : JsString)
  | settle (nowMs : ℕ) (requestId requestDigest reservationDigest : JsString)
      (outcome : SettlementOutcome)

inductive Decision where
  | entry (status : EntryStatus)
  | rejected

structure PaymentBrokerReceipt where
  policyDigest : JsString
  requestId : JsString
  requestDigest : JsString
  reservationDigest : Option JsString
  atMs : ℕ
  decision : Decision
  reason : JsString
  replayed : Bool
  chargedMinor : ℕ
  remainingMinor : ℤ
  previousStateDigest : JsString
  nextStateDigest : JsString

/-! Texts. -/

def PaymentBrokerDenial.text : PaymentBrokerDenial → JsString
  | .merchantNotAllowed => js "merchant-not-allowed"
  | .scopeNotAllowed => js "scope-not-allowed"
  | .currencyNotAllowed => js "currency-not-allowed"
  | .requestCap => js "request-cap"
  | .dayCap => js "day-cap"
  | .callerDenied => js "caller-denied"

def EntryStatus.text : EntryStatus → JsString
  | .requested => js "requested"
  | .denied => js "denied"
  | .reserved => js "reserved"
  | .settled => js "settled"
  | .held => js "held"

def SettlementOutcome.text : SettlementOutcome → JsString
  | .succeeded => js "succeeded"
  | .failed => js "failed"
  | .unknown => js "unknown"

section

variable (policy : PaymentBrokerPolicy)

def PaymentBrokerPolicy.json : JsValue :=
  .obj [(js "schemaVersion", count 1), (js "policyId", .str policy.policyId),
    (js "currency", .str policy.currency),
    (js "allowedMerchantIds", texts policy.allowedMerchantIds),
    (js "allowedScopeIds", texts policy.allowedScopeIds),
    (js "maxPerRequestMinor", count policy.maxPerRequestMinor),
    (js "maxPerDayMinor", count policy.maxPerDayMinor)]

def PaymentBrokerRequest.json (request : PaymentBrokerRequest) : JsValue :=
  .obj [(js "requestId", .str request.requestId), (js "merchantId", .str request.merchantId),
    (js "scopeId", .str request.scopeId), (js "currency", .str request.currency),
    (js "amountMinor", count request.amountMinor)]

def PaymentBrokerEntry.json (entry : PaymentBrokerEntry) : JsValue :=
  .obj [(js "request", entry.request.json), (js "requestDigest", .str entry.requestDigest),
    (js "status", .str entry.status.text), (js "requestedAtMs", count entry.requestedAtMs),
    (js "reservedAtMs", nullable count entry.reservedAtMs),
    (js "settledAtMs", nullable count entry.settledAtMs),
    (js "reservationDigest", nullable .str entry.reservationDigest),
    (js "settlement", nullable (fun outcome => .str outcome.text) entry.settlement),
    (js "denial", nullable (fun denial => .str denial.text) entry.denial)]

def PaymentBrokerState.json (state : PaymentBrokerState) : JsValue :=
  .obj [(js "schemaVersion", count 1), (js "policyDigest", .str state.policyDigest),
    (js "dayIndex", count state.dayIndex), (js "highWaterMs", count state.highWaterMs),
    (js "entries", .arr (state.entries.map (·.json)))]

def digest (domain : JsString) (value : JsValue) : JsString :=
  Sha256.digest (utf8Encode (writeValue (.arr [.str domain, value])))

def policyDigest : JsString :=
  digest (js "payment-broker-policy-v1") policy.json

def requestDigest (policyDigest : JsString) (request : PaymentBrokerRequest) : JsString :=
  digest (js "payment-broker-request-v1")
    (.obj [(js "policyDigest", .str policyDigest), (js "request", request.json)])

def reservationDigest (policyDigest requestDigest : JsString) (reservedAtMs : Option ℕ) :
    JsString :=
  digest (js "payment-broker-reservation-v1")
    (.obj [(js "policyDigest", .str policyDigest), (js "requestDigest", .str requestDigest),
      (js "reservedAtMs", nullable count reservedAtMs)])

def stateDigest (state : PaymentBrokerState) : JsString :=
  digest (js "payment-broker-state-v1") state.json

/-! Checks. -/

/-- `ID`: `/^[a-zA-Z0-9][a-zA-Z0-9._:-]{0,127}$/` -/
def identifierPattern (text : JsString) : Bool :=
  headThenUpTo isAlphanumeric (fun unit => isAlphanumeric unit || (js "._:-").contains unit) 127
    text

/-- `/^[A-Z]{3}$/` -/
def currencyPattern (text : JsString) : Bool :=
  text.length = 3 && text.all isUpper

def integer (minimum maximum : ℕ) : NumberValue → Option ℕ
  | .negativeZero => none
  | .number value =>
      value.safeInteger?.bind fun n =>
        if (minimum : ℤ) ≤ n ∧ n ≤ maximum then some n.toNat else none

def checkedAdd (left right : ℕ) : Option ℕ :=
  if maxSafe - right < left then none else some (left + right)

def identifierList (items : List JsString) : Option (List JsString) :=
  if items.length ≤ 128 ∧ items.all identifierPattern ∧ items ≠ [] ∧ items.Nodup then
    some (items.insertionSort (· ≤ ·))
  else none

theorem integer_bounds {minimum maximum n : ℕ} {value : NumberValue}
    (read : integer minimum maximum value = some n) : minimum ≤ n ∧ n ≤ maximum := by
  cases value with
  | negativeZero => cases read
  | number value =>
      obtain ⟨m, _, within⟩ := Option.bind_eq_some_iff.mp read
      split_ifs at within with bounds
      cases within
      omega

def policyInput (value : PolicyValue) : Option PaymentBrokerPolicy := do
  guard (identifierPattern value.policyId ∧ currencyPattern value.currency)
  let merchants ← identifierList value.allowedMerchantIds
  let scopes ← identifierList value.allowedScopeIds
  let perRequest ← integer 1 maxSafe value.maxPerRequestMinor
  match read : integer 1 maxSafe value.maxPerDayMinor with
  | none => none
  | some perDay =>
      if perDay < perRequest then none
      else some ⟨value.policyId, value.currency, merchants, scopes, perRequest, perDay,
        (integer_bounds read).2⟩

def requestInput (value : RequestValue) : Option PaymentBrokerRequest := do
  guard (identifierPattern value.requestId ∧ identifierPattern value.merchantId ∧
    identifierPattern value.scopeId ∧ currencyPattern value.currency)
  let amount ← integer 1 maxSafe value.amountMinor
  pure ⟨value.requestId, value.merchantId, value.scopeId, value.currency, amount⟩

def pinned (requestId requestDigest : JsString) : Bool :=
  identifierPattern requestId && sha256HexPattern requestDigest

def actionInput : ActionValue → Option PaymentBrokerAction
  | .request nowMs request => do
      let now ← integer 0 maxClock nowMs
      let request ← requestInput request
      pure (.request now request)
  | .reserve nowMs requestId requestDigest => do
      let now ← integer 0 maxClock nowMs
      guard (pinned requestId requestDigest)
      pure (.reserve now requestId requestDigest)
  | .deny nowMs requestId requestDigest => do
      let now ← integer 0 maxClock nowMs
      guard (pinned requestId requestDigest)
      pure (.deny now requestId requestDigest)
  | .settle nowMs requestId requestDigest reservationDigest outcome => do
      let now ← integer 0 maxClock nowMs
      guard (pinned requestId requestDigest ∧ sha256HexPattern reservationDigest)
      pure (.settle now requestId requestDigest reservationDigest outcome)
  | .other => none

def denial (request : PaymentBrokerRequest) : Option PaymentBrokerDenial :=
  if request.currency ≠ policy.currency then some .currencyNotAllowed
  else if !policy.allowedMerchantIds.contains request.merchantId then some .merchantNotAllowed
  else if !policy.allowedScopeIds.contains request.scopeId then some .scopeNotAllowed
  else if policy.maxPerRequestMinor < request.amountMinor then some .requestCap
  else none

def PaymentBrokerEntry.counts (day : ℕ) (entry : PaymentBrokerEntry) : Bool :=
  entry.reservedAtMs.any fun reservedAt =>
    entry.status = .reserved || entry.status = .held || reservedAt / dayMs = day

def charged (entries : List PaymentBrokerEntry) (day : ℕ) : Option ℕ :=
  entries.foldlM (fun sum entry =>
    if entry.counts day then checkedAdd sum entry.request.amountMinor else some sum) 0

def statusInput (pinnedPolicy : JsString) (entry : PaymentBrokerEntry) : Bool :=
  match entry.status with
  | .requested =>
      entry.reservedAtMs.isNone && entry.settledAtMs.isNone && entry.reservationDigest.isNone &&
        entry.settlement.isNone && entry.denial.isNone && (denial policy entry.request).isNone
  | .denied =>
      entry.reservedAtMs.isNone && entry.settledAtMs.isNone && entry.reservationDigest.isNone &&
        entry.settlement.isNone &&
        match denial policy entry.request with
        | some expected => entry.denial = some expected
        | none => entry.denial = some .dayCap || entry.denial = some .callerDenied
  | status =>
      entry.reservedAtMs.isSome &&
        entry.reservationDigest =
          some (reservationDigest pinnedPolicy entry.requestDigest entry.reservedAtMs) &&
        entry.denial.isNone && (denial policy entry.request).isNone &&
        match status with
        | .reserved => entry.settlement.isNone && entry.settledAtMs.isNone
        | .settled => entry.settlement = some .succeeded && entry.settledAtMs.isSome
        | _ => (entry.settlement = some .failed || entry.settlement = some .unknown) &&
            entry.settledAtMs.isSome

def requestAgain (request : PaymentBrokerRequest) : Bool :=
  identifierPattern request.requestId && identifierPattern request.merchantId &&
    identifierPattern request.scopeId && currencyPattern request.currency &&
    1 ≤ request.amountMinor && request.amountMinor ≤ maxSafe

def entryAlone (pinnedPolicy : JsString) (highWaterMs : ℕ) (entry : PaymentBrokerEntry) : Bool :=
  requestAgain entry.request && entry.requestedAtMs ≤ highWaterMs &&
    entry.reservedAtMs.all (fun reservedAt =>
      entry.requestedAtMs ≤ reservedAt && reservedAt ≤ highWaterMs) &&
    entry.settledAtMs.all (fun settledAt =>
      entry.reservedAtMs.getD entry.requestedAtMs ≤ settledAt && settledAt ≤ highWaterMs) &&
    entry.requestDigest = requestDigest pinnedPolicy entry.request &&
    sha256HexPattern entry.requestDigest && entry.reservationDigest.all sha256HexPattern &&
    statusInput policy pinnedPolicy entry

/-- The ids read so far, and what each day's reservations come to. -/
structure Seen where
  ids : List JsString
  daily : JsMap ℕ ℕ

def entryInput (pinnedPolicy : JsString) (highWaterMs : ℕ)
    (seen : Seen) (entry : PaymentBrokerEntry) : Option Seen := do
  guard (entryAlone policy pinnedPolicy highWaterMs entry)
  guard (¬ seen.ids.contains entry.request.requestId)
  let ids := seen.ids ++ [entry.request.requestId]
  match entry.reservedAtMs with
  | none => pure ⟨ids, seen.daily⟩
  | some reservedAt =>
      let day := reservedAt / dayMs
      let used ← checkedAdd ((seen.daily.get? day).getD 0) entry.request.amountMinor
      guard (used ≤ policy.maxPerDayMinor)
      pure ⟨ids, seen.daily.set day used⟩

def stateInput (pinnedPolicy : JsString)
    (state : PaymentBrokerState) : Option PaymentBrokerState := do
  guard (state.policyDigest = pinnedPolicy ∧ state.highWaterMs ≤ maxClock ∧
    state.dayIndex ≤ maxSafe ∧ state.dayIndex = state.highWaterMs / dayMs ∧
    state.entries.length ≤ paymentBrokerMaxEntries)
  let _ ← state.entries.foldlM (entryInput policy pinnedPolicy state.highWaterMs) ⟨[], []⟩
  let used ← charged state.entries state.dayIndex
  guard (used ≤ policy.maxPerDayMinor)
  pure state

end

/-! The reducer. -/

def createPaymentBrokerState (policy : PolicyValue) (nowMs : NumberValue) :
    Option PaymentBrokerState := do
  let normalized ← policyInput policy
  let now ← integer 0 maxClock nowMs
  pure ⟨policyDigest normalized, now / dayMs, now, []⟩

namespace PaymentBrokerAction

def nowMs : PaymentBrokerAction → ℕ
  | .request nowMs _ => nowMs
  | .reserve nowMs _ _ => nowMs
  | .deny nowMs _ _ => nowMs
  | .settle nowMs _ _ _ _ => nowMs

def requestId : PaymentBrokerAction → JsString
  | .request _ asked => asked.requestId
  | .reserve _ requestId _ => requestId
  | .deny _ requestId _ => requestId
  | .settle _ requestId _ _ _ => requestId

def pinnedRequest (pinnedPolicy : JsString) : PaymentBrokerAction → JsString
  | .request _ asked => Universe.requestDigest pinnedPolicy asked
  | .reserve _ _ requestDigest => requestDigest
  | .deny _ _ requestDigest => requestDigest
  | .settle _ _ requestDigest _ _ => requestDigest

end PaymentBrokerAction

/-- What an action comes to, before its receipt. -/
structure Verdict where
  state : PaymentBrokerState
  entry : Option PaymentBrokerEntry
  decision : Decision
  reason : JsString
  replayed : Bool

def replaceEntry (requestId : JsString) (changed : PaymentBrokerEntry) :
    List PaymentBrokerEntry → List PaymentBrokerEntry
  | [] => []
  | entry :: entries =>
      if entry.request.requestId = requestId then changed :: entries
      else entry :: replaceEntry requestId changed entries

section

variable (state : PaymentBrokerState)

def PaymentBrokerState.become (changed : PaymentBrokerEntry) : PaymentBrokerState :=
  { state with entries := replaceEntry changed.request.requestId changed state.entries }

def rejected (state : PaymentBrokerState) (entry : Option PaymentBrokerEntry) (reason : JsString) :
    Verdict :=
  ⟨state, entry, .rejected, reason, false⟩

section

variable (entry : PaymentBrokerEntry)

def replay (reason : JsString) : Verdict :=
  ⟨state, some entry, .entry entry.status, reason, true⟩

def enter (reason : JsString) : Verdict :=
  ⟨state, some entry, .entry entry.status, reason, false⟩

def PaymentBrokerEntry.reasonOr (reason : JsString) : JsString :=
  (entry.denial.map (·.text)).getD reason

def recordRequest (policy : PaymentBrokerPolicy) (pinnedPolicy : JsString)
    (state : PaymentBrokerState) (entry : Option PaymentBrokerEntry) (nowMs : ℕ)
    (request : PaymentBrokerRequest) : Verdict :=
  match entry with
  | some entry => replay state entry (entry.reasonOr (js "request-replayed"))
  | none =>
      if paymentBrokerMaxEntries ≤ state.entries.length then
        rejected state none (js "ledger-capacity")
      else
        let denied := denial policy request
        let recorded : PaymentBrokerEntry :=
          ⟨request, requestDigest pinnedPolicy request,
            if denied.isSome then .denied else .requested, nowMs, none, none, none, none, denied⟩
        enter { state with entries := state.entries ++ [recorded] } recorded
          (recorded.reasonOr (js "request-recorded-not-reserved"))

def reserveEntry (policy : PaymentBrokerPolicy) (pinnedPolicy : JsString)
    (state : PaymentBrokerState) (entry : PaymentBrokerEntry) (nowMs : ℕ) : Option Verdict :=
  if entry.status ≠ .requested then
    some (replay state entry (entry.reasonOr (js "reservation-replayed")))
  else do
    let used ← charged state.entries state.dayIndex
    if (policy.maxPerDayMinor : ℤ) - used < entry.request.amountMinor then
      let denied := { entry with status := .denied, denial := some .dayCap }
      pure (enter (state.become denied) denied (js "day-cap"))
    else
      let reserved := { entry with
        status := .reserved
        reservedAtMs := some nowMs
        reservationDigest := some (reservationDigest pinnedPolicy entry.requestDigest (some nowMs))
          }
      pure (enter (state.become reserved) reserved (js "reservation-recorded-no-transfer"))

def denyEntry : Verdict :=
  if entry.status = .denied then replay state entry (entry.reasonOr [])
  else if entry.status ≠ .requested then
    rejected state (some entry) (js "reserved-funds-cannot-be-denied")
  else
    let denied := { entry with status := .denied, denial := some .callerDenied }
    enter (state.become denied) denied (js "caller-denied")

/-- `outcome === 'succeeded' ? 'settled' : 'held'` -/
def SettlementOutcome.status : SettlementOutcome → EntryStatus
  | .succeeded => .settled
  | _ => .held

def SettlementOutcome.reason : SettlementOutcome → JsString
  | .succeeded => js "simulated-settlement"
  | _ => js "uncertain-reservation-held"

def settleEntry (nowMs : ℕ) (reservation : JsString) (outcome : SettlementOutcome) : Verdict :=
  if entry.reservationDigest ≠ some reservation then
    rejected state (some entry) (js "reservation-binding-mismatch")
  else if entry.status ≠ .reserved then
    if entry.settlement = some outcome then replay state entry (js "settlement-replayed")
    else rejected state (some entry) (js "settlement-conflict")
  else
    let settled := { entry with
      settlement := some outcome
      settledAtMs := some nowMs
      status := outcome.status }
    enter (state.become settled) settled outcome.reason

end

def act (policy : PaymentBrokerPolicy) (pinnedPolicy : JsString) (state : PaymentBrokerState)
    (entry : Option PaymentBrokerEntry) : PaymentBrokerAction → Option Verdict
  | .request nowMs request => some (recordRequest policy pinnedPolicy state entry nowMs request)
  | .reserve nowMs _ _ =>
      match entry with
      | none => some (rejected state none (js "request-missing"))
      | some entry => reserveEntry policy pinnedPolicy state entry nowMs
  | .deny _ _ _ =>
      match entry with
      | none => some (rejected state none (js "request-missing"))
      | some entry => some (denyEntry state entry)
  | .settle nowMs _ _ reservation outcome =>
      match entry with
      | none => some (rejected state none (js "request-missing"))
      | some entry => some (settleEntry state entry nowMs reservation outcome)

def PaymentBrokerState.advance (nowMs : ℕ) : PaymentBrokerState :=
  { state with highWaterMs := nowMs, dayIndex := nowMs / dayMs }

def respond (policy : PaymentBrokerPolicy) (pinnedPolicy : JsString) (state : PaymentBrokerState)
    (input : PaymentBrokerAction) : Option Verdict :=
  let entry := state.entries.find? fun item => item.request.requestId = input.requestId
  if input.nowMs < state.highWaterMs then some (rejected state entry (js "clock-reversal"))
  else
    let moved := state.advance input.nowMs
    if entry.any fun entry => entry.requestDigest ≠ input.pinnedRequest pinnedPolicy then
      some (rejected moved entry (js "request-conflict"))
    else act policy pinnedPolicy moved entry input

def reducePaymentBroker (policy : PolicyValue) (action : ActionValue) :
    Option (PaymentBrokerState × PaymentBrokerReceipt) := do
  let normalizedPolicy ← policyInput policy
  let pinnedPolicy := policyDigest normalizedPolicy
  let next ← stateInput normalizedPolicy pinnedPolicy state
  let input ← actionInput action
  let verdict ← respond normalizedPolicy pinnedPolicy next input
  let used ← charged verdict.state.entries verdict.state.dayIndex
  pure (verdict.state, {
    policyDigest := pinnedPolicy
    requestId := input.requestId
    requestDigest := input.pinnedRequest pinnedPolicy
    reservationDigest := verdict.entry.bind (·.reservationDigest)
    atMs := input.nowMs
    decision := verdict.decision
    reason := verdict.reason
    replayed := verdict.replayed
    chargedMinor := used
    remainingMinor := normalizedPolicy.maxPerDayMinor - used
    previousStateDigest := stateDigest next
    nextStateDigest := stateDigest verdict.state })

end

end AshlrHub.Universe
