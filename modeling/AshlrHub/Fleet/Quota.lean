import AshlrHub.Authority.Patterns
import AshlrHub.Js.Indented
import AshlrHub.Js.Map
import AshlrHub.Js.Object
import AshlrHub.Lib.Retention
import AshlrHub.Lib.Run

namespace AshlrHub.Quota

open Js Authority Lib

/-! The fleet's quota reservations: a ledger of the launches of the rolling windows. -/

inductive EngineId where
  | builtin
  | localCoder
  | llamaServer
  | ashlrcode
  | aw
  | claude
  | claudeApi
  | codex
  | grokCli
  | devinCli
  | hermes
  | kimi
  | nim
  | opencode
  | metaMuse
  | grok
deriving DecidableEq

def EngineId.text : EngineId → JsString
  | .builtin => js "builtin"
  | .localCoder => js "local-coder"
  | .llamaServer => js "llama-server"
  | .ashlrcode => js "ashlrcode"
  | .aw => js "aw"
  | .claude => js "claude"
  | .claudeApi => js "claude-api"
  | .codex => js "codex"
  | .grokCli => js "grok-cli"
  | .devinCli => js "devin-cli"
  | .hermes => js "hermes"
  | .kimi => js "kimi"
  | .nim => js "nim"
  | .opencode => js "opencode"
  | .metaMuse => js "meta-muse"
  | .grok => js "grok"

instance : JsEnum EngineId where
  text := EngineId.text
  all := [.builtin, .localCoder, .llamaServer, .ashlrcode, .aw, .claude, .claudeApi, .codex,
    .grokCli, .devinCli, .hermes, .kimi, .nim, .opencode, .metaMuse, .grok]
  complete := by intro engine; cases engine <;> simp
  distinct := by decide +kernel

/-- `ENGINE_IDS` -/
def engineIds : List EngineId :=
  [.builtin, .localCoder, .llamaServer, .ashlrcode, .aw, .claude, .codex, .hermes, .kimi, .nim,
    .opencode, .metaMuse, .grok, .grokCli, .devinCli]

def maxEvents : ℕ := 2000

def maxLedgerBytes : ℕ := 1024 * 1024

def maxAuthorityLedgerBytes : ℕ := 8 * 1024 * 1024

def maxDispatchIdBytes : ℕ := 4096

def maxBatchReservations : ℕ := 64

def maxAuthorityEvents : ℕ := maxEvents * engineIds.length

structure FleetQuotaEvent where
  backend : EngineId
  ts : JsString
  reservationIdHash : Option JsString
deriving DecidableEq

structure FleetQuotaReservationRequest where
  backend : EngineId
  dispatchId : JsString

structure QuotaLimit where
  window : Option JsString
  max : Option ℤ

/-- `cfg.foundry.limits` -/
abbrev AshlrConfig := EngineId → Option QuotaLimit

def reservationWindowMs (window : JsString) : Option ℤ :=
  if window = js "1m" then some 60000
  else if window = js "5m" then some (5 * 60000)
  else if window = js "15m" then some (15 * 60000)
  else if window = js "1h" then some 3600000
  else if window = js "5h" then some (5 * 3600000)
  else if window = js "1d" then some 86400000
  else if window = js "7d" then some (7 * 86400000)
  else if window = js "30d" then some (30 * 86400000)
  else none

/-- `reservationWindowMs('30d')` -/
def maximumWindowMs : ℤ := 30 * 86400000

/-! The codec of the ledger. A file is here the value that its text spells. -/

def FleetQuotaEvent.toValue (event : FleetQuotaEvent) : JsValue :=
  .obj ((js "backend", .str (JsEnum.text event.backend)) :: (js "ts", .str event.ts) ::
    (event.reservationIdHash.map fun hash => (js "reservationIdHash", JsValue.str hash)).toList)

def ledgerValue (events : List FleetQuotaEvent) : JsValue :=
  .obj [(js "events", .arr (events.map FleetQuotaEvent.toValue))]

def fileBytes (file : JsValue) : ℕ :=
  (utf8Encode (writeIndented 0 file ++ js "\n")).length

def strictQuotaEvent (value : JsValue) : Option FleetQuotaEvent := do
  let row ← value.asRecord
  guard (exactKeys row [js "backend", js "ts"] ∨
    exactKeys row [js "backend", js "reservationIdHash", js "ts"])
  let backend ← (JsEnum.ofValue (getMember row (js "backend"))).filter (· ∈ engineIds)
  let ts ← (getMember row (js "ts")).asString.filter isCanonicalInstant
  match getMember row (js "reservationIdHash") with
  | .undefined => return ⟨backend, ts, none⟩
  | .str hash => if sha256HexPattern hash then return ⟨backend, ts, some hash⟩ else none
  | _ => none

/-- `bytes` is the size of the text; nothing is parsed where it is no JSON. -/
def parseStrictQuota (bytes : ℕ) (parsed : Option JsValue) (mostEvents mostBytes : ℕ) :
    Option (List FleetQuotaEvent) :=
  if mostBytes < bytes then none
  else
    match parsed.bind JsValue.asRecord with
    | none => none
    | some row =>
        if exactKeys row [js "events"] = false then none
        else
          match (getMember row (js "events")).asArray with
          | none => none
          | some events => if mostEvents < events.length then none else events.mapM strictQuotaEvent

/-! What the surroundings do to one call. -/

/-- `quota.json`, the telemetry that seeds a first ledger. -/
inductive LegacyFile where
  | missing
  | unreadable
  | found (bytes : ℕ) (parsed : Option JsValue)

/-- How `saveQuotaReservation` ends: before its rename, after it without a confirmation, or
well. -/
inductive Saved where
  | notInstalled
  | unconfirmed
  | confirmed

structure Weather where
  locked : Bool
  /-- The directory is found private. -/
  pinned : Bool
  /-- The ledger's file is read, or found missing. -/
  readable : Bool
  legacy : LegacyFile
  /-- The directory is flushed, and still the same. -/
  flushed : Bool
  saved : Saved
  released : Bool
  /-- The process ends before it answers. -/
  crashed : Bool

/-- `loadStrictQuota` -/
def loadStrictQuota (weather : Weather) (file : Option JsValue) :
    Option (List FleetQuotaEvent) :=
  if weather.readable = false then none
  else
    match file with
    | none =>
        match weather.legacy with
        | .missing => some []
        | .unreadable => none
        | .found bytes parsed =>
            if maxLedgerBytes < bytes then none
            else parseStrictQuota bytes parsed maxEvents maxLedgerBytes
    | some value =>
        if maxAuthorityLedgerBytes < fileBytes value then none
        else parseStrictQuota (fileBytes value) (some value) maxAuthorityEvents
          maxAuthorityLedgerBytes

def saveQuotaReservation (weather : Weather) (events : List FleetQuotaEvent) :
    Option JsValue × Bool :=
  if maxAuthorityEvents < events.length ∨
      maxAuthorityLedgerBytes < fileBytes (ledgerValue events) then (none, false)
  else
    match weather.saved with
    | .notInstalled => (none, false)
    | .unconfirmed => (some (ledgerValue events), false)
    | .confirmed => (some (ledgerValue events), true)

/-! A batch of requests. -/

/-- `JSON.stringify([RESERVATION_DOMAIN, dispatchId])`, hashed. -/
def reservationIdHash (dispatchId : JsString) : JsString :=
  Sha256.digest (utf8Encode (writeValue
    (.arr [.str (js "ashlr:fleet-quota-reservation:v1"), .str dispatchId])))

def validReservationIdentity (request : FleetQuotaReservationRequest) : Bool :=
  engineIds.contains request.backend && 0 < request.dispatchId.length &&
    (utf8Encode request.dispatchId).length ≤ maxDispatchIdBytes

structure ReservationLimit where
  max : ℕ
  windowMs : ℤ

structure NormalizedQuotaRequest where
  backend : EngineId
  hash : JsString
  limit : Option ReservationLimit

inductive RefusalKind where
  | invalid
  | duplicate
  | conflict
  | exhausted
  | unavailable

structure FleetQuotaReservationReceipt where
  backend : EngineId
  /-- None: unlimited. -/
  reserved : Option ReservationLimit
  used : ℕ

structure QuotaRefusal where
  kind : RefusalKind
  backend : Option EngineId
  used : Option ℕ
  limit : Option ℕ
  /-- The durable reservation exists, but this call must not launch. -/
  reservationConsumed : Bool

inductive FleetQuotaReservationResult where
  | unlimited (reservations : List FleetQuotaReservationReceipt)
  | reserved (reservations : List FleetQuotaReservationReceipt)
  | refused (refusal : QuotaRefusal)

def FleetQuotaReservationResult.launchAuthorized : FleetQuotaReservationResult → Bool
  | .unlimited _ => true
  | .reserved _ => true
  | .refused _ => false

/-- `result.kind === 'reserved'` -/
def FleetQuotaReservationResult.isReserved : FleetQuotaReservationResult → Bool
  | .reserved _ => true
  | _ => false

/-- `Number.isFinite` -/
def isFinite : JsNumber → Bool
  | .finite _ => true
  | _ => false

def refusal (kind : RefusalKind) : QuotaRefusal := ⟨kind, none, none, none, false⟩

def refusalOf (kind : RefusalKind) (backend : EngineId) : QuotaRefusal :=
  ⟨kind, some backend, none, none, false⟩

def configuredReservationLimit (cfg : AshlrConfig) (backend : EngineId) :
    Except Unit (Option ReservationLimit) :=
  match cfg backend with
  | none => .ok none
  | some configured =>
      match configured.window.bind reservationWindowMs, configured.max with
      | some windowMs, some max =>
          if max ≤ 0 ∨ (maxEvents : ℤ) < max then .error () else .ok (some ⟨max.toNat, windowMs⟩)
      | _, _ => .error ()

/-- `prior` already has the hash, for the same backend or for another. -/
def replayKind (prior backend : EngineId) : RefusalKind :=
  if prior = backend then .duplicate else .conflict

def normalizeRequests (cfg : AshlrConfig) (inputHashes : JsMap JsString EngineId) :
    List FleetQuotaReservationRequest → Except QuotaRefusal (List NormalizedQuotaRequest)
  | [] => .ok []
  | request :: requests =>
      if validReservationIdentity request = false then .error (refusal .invalid)
      else
        let hash := reservationIdHash request.dispatchId
        match inputHashes.get? hash with
        | some prior => .error (refusalOf (replayKind prior request.backend) request.backend)
        | none =>
            match configuredReservationLimit cfg request.backend with
            | .error _ => .error (refusalOf .invalid request.backend)
            | .ok limit =>
                (normalizeRequests cfg (inputHashes.set hash request.backend) requests).map
                  (⟨request.backend, hash, limit⟩ :: ·)

/-- `Date.parse(event.ts)` of an event that the codec accepts. -/
def FleetQuotaEvent.time (event : FleetQuotaEvent) : ℤ :=
  (dateParse event.ts).getD 0

def groupEvent (byBackend : JsMap EngineId (List FleetQuotaEvent)) (event : FleetQuotaEvent) :
    JsMap EngineId (List FleetQuotaEvent) :=
  byBackend.set event.backend (pushBounded maxEvents ((byBackend.get? event.backend).getD []) event)

def compactReservationEvents (events : List FleetQuotaEvent) (nowMs : ℤ) :
    List FleetQuotaEvent :=
  let retained := byTime FleetQuotaEvent.time (events.filter fun event =>
    (dateParse event.ts).any fun ts => nowMs - maximumWindowMs ≤ ts)
  byTime FleetQuotaEvent.time ((retained.foldl groupEvent []).flatMap Prod.snd)

def usedSince (events : List FleetQuotaEvent) (backend : EngineId) (cutoff : ℤ) : ℕ :=
  events.countP fun event => event.backend = backend && cutoff ≤ event.time

def requestedOf (limited : List NormalizedQuotaRequest) (backend : EngineId) : ℕ :=
  limited.countP fun request => request.backend = backend

def replayed (compacted : List FleetQuotaEvent) :
    List NormalizedQuotaRequest → Option QuotaRefusal
  | [] => none
  | request :: requests =>
      match (JsMap.ofEntries (compacted.filterMap fun event =>
          event.reservationIdHash.map fun hash => (hash, event.backend))).get? request.hash with
      | some existing => some (refusalOf (replayKind existing request.backend) request.backend)
      | none => replayed compacted requests

def chargeUsage (compacted : List FleetQuotaEvent) (limited : List NormalizedQuotaRequest)
    (nowMs : ℤ) (usage : JsMap EngineId ℕ) :
    List NormalizedQuotaRequest → Except QuotaRefusal (JsMap EngineId ℕ)
  | [] => .ok usage
  | request :: requests =>
      if usage.has request.backend then chargeUsage compacted limited nowMs usage requests
      else
        match request.limit with
        | none => chargeUsage compacted limited nowMs usage requests
        | some limit =>
            let used := usedSince compacted request.backend (nowMs - limit.windowMs)
            if limit.max < used + requestedOf limited request.backend then
              .error ⟨.exhausted, some request.backend, some used, some limit.max, false⟩
            else chargeUsage compacted limited nowMs (usage.set request.backend used) requests

def reserveLimitedQuotaUsesLocked (weather : Weather) (nowMs : ℤ)
    (normalized limited : List NormalizedQuotaRequest) (loaded : List FleetQuotaEvent) :
    Option JsValue × FleetQuotaReservationResult :=
  if weather.flushed = false then (none, .refused (refusal .unavailable))
  else
    let compacted := compactReservationEvents loaded nowMs
    match replayed compacted normalized with
    | some found => (none, .refused found)
    | none =>
        match chargeUsage compacted limited nowMs [] limited with
        | .error exhausted => (none, .refused exhausted)
        | .ok usage =>
            match toISOString nowMs with
            | none => (none, .refused (refusal .unavailable))
            | some ts =>
                let next := compactReservationEvents
                  (compacted ++ limited.map fun request =>
                    ⟨request.backend, ts, some request.hash⟩) nowMs
                let saved := saveQuotaReservation weather next
                if saved.2 = false then (saved.1, .refused (refusal .unavailable))
                else
                  (saved.1, .reserved (normalized.map fun request =>
                    match request.limit with
                    | none => ⟨request.backend, none, 0⟩
                    | some limit =>
                        ⟨request.backend, some limit, (usage.get? request.backend).getD 0 +
                          requestedOf limited request.backend⟩))

structure Call where
  requests : List FleetQuotaReservationRequest
  cfg : AshlrConfig
  lockWaitMs : Option JsNumber
  nowMs : ℤ
  weather : Weather

/-- `reserveFleetQuotaUses`: the file that it installs, and its answer. -/
def reserveFleetQuotaUses (file : Option JsValue) (call : Call) :
    Option JsValue × FleetQuotaReservationResult :=
  if call.requests.length = 0 ∨ maxBatchReservations < call.requests.length then
    (none, .refused (refusal .invalid))
  else if call.lockWaitMs.all isFinite = false then
    (none, .refused (refusal .invalid))
  else
    match normalizeRequests call.cfg [] call.requests with
    | .error refused => (none, .refused refused)
    | .ok normalized =>
        let limited := normalized.filter fun request => request.limit.isSome
        if limited.length = 0 then
          (none, .unlimited (normalized.map fun request => ⟨request.backend, none, 0⟩))
        else if call.weather.locked = false then (none, .refused (refusal .unavailable))
        else
          let done :=
            if call.weather.pinned = false then (none, .refused (refusal .unavailable))
            else
              match loadStrictQuota call.weather file with
              | none => (none, .refused (refusal .unavailable))
              | some loaded =>
                  reserveLimitedQuotaUsesLocked call.weather call.nowMs normalized limited loaded
          if call.weather.released = false then
            (done.1, .refused { refusal .unavailable with
              reservationConsumed := done.2.isReserved })
          else done

end AshlrHub.Quota
