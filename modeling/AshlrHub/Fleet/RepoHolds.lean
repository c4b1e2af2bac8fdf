import AshlrHub.Authority.Clamp
import AshlrHub.Js.Indented
import AshlrHub.Js.LowerCase

namespace AshlrHub.RepoHolds

open Js Authority

/-! The holds that pause a repository: their file, and their rows in the authority ledger. -/

inductive RepoHoldKind where
  | quarantine
  | ownerHold
  | leaderPause
  | cooldown
deriving DecidableEq

def RepoHoldKind.text : RepoHoldKind → JsString
  | .quarantine => js "quarantine"
  | .ownerHold => js "owner-hold"
  | .leaderPause => js "leader-pause"
  | .cooldown => js "cooldown"

instance : JsEnum RepoHoldKind where
  text := RepoHoldKind.text
  all := [.quarantine, .ownerHold, .leaderPause, .cooldown]
  complete := by intro kind; cases kind <;> simp
  distinct := by decide +kernel

structure RepoHold where
  repo : JsString
  kind : RepoHoldKind
  reason : JsString
  since : JsString
  /-- None: until it is cleared. -/
  until' : Option JsString
  setBy : FleetActor
  landingId : Option JsString
deriving DecidableEq

structure RepoHoldSpec where
  reason : JsString
  until' : Option JsString
  landingId : Option JsString

structure SetRepoHoldRequest where
  repo : JsString
  kind : RepoHoldKind
  /-- None clears the kind. -/
  hold : Option RepoHoldSpec
  actor : FleetActor

structure HoldPermissions where
  maySet : List FleetActor
  mayClear : List FleetActor

/-- `HOLD_PERMISSIONS` -/
def holdPermissions : RepoHoldKind → HoldPermissions
  | .quarantine => ⟨[.mason, .daemon, .postMergeWatch], [.mason, .daemon, .postMergeWatch]⟩
  | .ownerHold => ⟨[.mason, .daemon, .postMergeWatch], [.mason]⟩
  | .leaderPause => ⟨[.mason, .leader], [.mason, .leader]⟩
  | .cooldown => ⟨[.mason, .daemon, .backpressure], [.mason, .daemon, .backpressure]⟩

def maxStoreBytes : ℕ := 1024 * 1024

def maxHolds : ℕ := 2000

def maxReasonChars : ℕ := 500

def maxLandingIdChars : ℕ := 240

/-- `LANDING_ID_RE` -/
def landingIdPattern (text : JsString) : Bool :=
  headThenUpTo isAlphanumeric
    (fun unit => isAlphanumeric unit || (js "_.:@/#-").contains unit) text.length text

/-! The file's codec. A file is here the value that its text spells. -/

def nullableText : Option JsString → JsValue
  | none => .null
  | some text => .str text

def RepoHold.toValue (hold : RepoHold) : JsValue :=
  .obj
    [(js "v", jsInt 1), (js "repo", .str hold.repo), (js "kind", .str (JsEnum.text hold.kind)),
      (js "reason", .str hold.reason), (js "since", .str hold.since),
      (js "until", nullableText hold.until'), (js "setBy", .str (JsEnum.text hold.setBy)),
      (js "landingId", nullableText hold.landingId)]

def storeValue (holds : List RepoHold) : JsValue :=
  .obj [(js "v", jsInt 1), (js "holds", .arr (holds.map RepoHold.toValue))]

def storeBytes (file : JsValue) : ℕ :=
  (utf8Encode (writeIndented 0 file ++ js "\n")).length

inductive StoreFault where
  | unreadable
  | notObject
  | unknownVersion
  | malformedHold
  | twoHolds (kind : RepoHoldKind) (repo : JsString)
deriving DecidableEq

/-- What a text or `null` reads as, where the text passes `admits`. -/
def nullableWhere (admits : JsString → Bool) : JsValue → Option (Option JsString)
  | .null => some none
  | .str text => if admits text then some (some text) else none
  | _ => none

def sameRepo (a b : JsString) : Bool :=
  toLowerCase a = toLowerCase b

def RepoHold.isFor (hold : RepoHold) (repo : JsString) (kind : RepoHoldKind) : Bool :=
  sameRepo hold.repo repo && hold.kind = kind

def repeatedHold (seen : List RepoHold) : List RepoHold → Option RepoHold
  | [] => none
  | hold :: rest =>
      if seen.any fun other => other.isFor hold.repo hold.kind then some hold
      else repeatedHold (hold :: seen) rest

section

/-! `parseDate` is `Date.parse`, none for its `NaN`; `scrub` is `scrubSecrets`. -/

variable (parseDate : JsString → Option ℤ) (scrub : JsString → JsString)

def isIso (text : JsString) : Bool :=
  text.length ≤ 40 && (parseDate text).isSome

/-- `isHold`, with the hold that the value is. -/
def holdOfValue (value : JsValue) : Option RepoHold := do
  let members ← value.asRecord
  guard ((getMember members (js "v")).asSafeInteger = some 1)
  let repo ← (getMember members (js "repo")).asString.filter nameWithOwnerPattern
  let kind ← JsEnum.ofValue (getMember members (js "kind"))
  let reason ← (getMember members (js "reason")).asString.filter fun text =>
    text.length ≤ maxReasonChars * 2
  let since ← (getMember members (js "since")).asString.filter (isIso parseDate)
  let until' ← nullableWhere (isIso parseDate) (getMember members (js "until"))
  let setBy ← JsEnum.ofValue (getMember members (js "setBy"))
  let landingId ← nullableWhere (fun text => text.length ≤ maxLandingIdChars)
    (getMember members (js "landingId"))
  return ⟨repo, kind, reason, since, until', setBy, landingId⟩

def parseStore (file : JsValue) : Except StoreFault (List RepoHold) :=
  match file.asRecord with
  | none => .error .notObject
  | some store =>
      if (getMember store (js "v")).asSafeInteger ≠ some 1 then .error .unknownVersion
      else
        match (getMember store (js "holds")).asArray with
        | none => .error .malformedHold
        | some items =>
            if maxHolds < items.length then .error .malformedHold
            else
              match items.mapM (holdOfValue parseDate) with
              | none => .error .malformedHold
              | some holds =>
                  match repeatedHold [] holds with
                  | some hold => .error (.twoHolds hold.kind hold.repo)
                  | none => .ok holds

/-- Active at `nowMs`: no expiry, or an expiry still in the future. -/
def isHoldActive (hold : RepoHold) (nowMs : ℤ) : Bool :=
  match hold.until' with
  | none => true
  | some text => (parseDate text).any fun time => nowMs < time

def laterUntil : Option JsString → Option JsString → Option JsString
  | some a, some b =>
      match parseDate a, parseDate b with
      | some first, some second => if second ≤ first then some a else some b
      | _, _ => some b
  | _, _ => none

def cleanReason (reason : JsString) : Option JsString :=
  let text := trim (collapseSpace false (scrub reason))
  if text = [] then none
  else if maxReasonChars < text.length then some (text.take (maxReasonChars - 1) ++ [0x2026])
  else some text

/-! What the surroundings do to one call. -/

inductive Look where
  | fine
  /-- `existsSync` meets an error and answers that there is no file. -/
  | overlooked
  | unreadable

inductive Appended where
  | recorded
  /-- A refusal, though the row may stand. -/
  | refused (stands : Bool)

inductive Written where
  | done
  /-- `writePrivateFileAtomically` throws, before its rename or after it. -/
  | failed (installed : Bool)

/-- The `hold:set` and `hold:cleared` rows. -/
inductive HoldRow where
  | set (hold : RepoHold) (actor : FleetActor)
  | cleared (repo : JsString) (kind : RepoHoldKind) (reason : JsString) (actor : FleetActor)

structure Weather where
  /-- The directory is in order and the lock is had. -/
  locked : Bool
  look : Look
  append : HoldRow → Appended
  write : Written

/-- What a call does to the files, one act after the other. -/
inductive Effect where
  | append (row : HoldRow)
  | install (file : JsValue)

structure Records where
  /-- `holds.json` -/
  file : Option JsValue
  rows : List HoldRow

def Records.apply (records : Records) : Effect → Records
  | .append row => { records with rows := records.rows ++ [row] }
  | .install file => { records with file := some file }

def Records.applyAll (records : Records) (effects : List Effect) : Records :=
  effects.foldl Records.apply records

def readStoreUnlocked (look : Look) (file : Option JsValue) :
    Except StoreFault (List RepoHold) :=
  match look, file with
  | _, none => .ok []
  | .overlooked, some _ => .ok []
  | .unreadable, some _ => .error .unreadable
  | .fine, some value =>
      if maxStoreBytes < storeBytes value then .error .unreadable
      else parseStore parseDate value

def writeStoreUnlocked (write : Written) (holds : List RepoHold) : List Effect × Bool :=
  if maxStoreBytes < storeBytes (storeValue holds) then ([], false)
  else
    match write with
    | .done => ([.install (storeValue holds)], true)
    | .failed true => ([.install (storeValue holds)], false)
    | .failed false => ([], false)

/-- The effects of `ledgerHoldSet` or `ledgerHoldCleared`, and whether the row is accepted. -/
def ledgerHold (weather : Weather) (row : HoldRow) : List Effect × Bool :=
  match weather.append row with
  | .recorded => ([.append row], true)
  | .refused true => ([.append row], false)
  | .refused false => ([], false)

inductive Refusal where
  | notNameWithOwner
  | noReason
  | expiryNotIso
  | expiryPast
  | landingIdMalformed
  | maySet (actor : FleetActor) (kind : RepoHoldKind)
  | mayClear (actor : FleetActor) (kind : RepoHoldKind)
  | onlyMason (repo : JsString)
  | locked
  | store (fault : StoreFault)
  | ledger
  | full
  | notWritten

structure RepoHoldChange where
  ok : Bool
  reason : Option Refusal
  before : Option RepoHold
  after : Option RepoHold

def refuse (reason : Refusal) (before : Option RepoHold) : RepoHoldChange :=
  ⟨false, some reason, before, before⟩

def checkSpec (nowMs : ℤ) (req : SetRepoHoldRequest) (spec : RepoHoldSpec) :
    Except Refusal RepoHoldSpec :=
  match cleanReason scrub spec.reason with
  | none => .error .noReason
  | some reason =>
      if (spec.until'.all (isIso parseDate)) = false then .error .expiryNotIso
      else if spec.until'.any fun text => (parseDate text).any (· ≤ nowMs) then
        .error .expiryPast
      else if (spec.landingId.all fun text =>
          text.length ≤ maxLandingIdChars && landingIdPattern text) = false then
        .error .landingIdMalformed
      else if (holdPermissions req.kind).maySet.contains req.actor = false then
        .error (.maySet req.actor req.kind)
      else .ok { spec with reason := reason }

/-- The hold that stands after a request to set; none where `toISOString` throws. -/
def changedHold (nowMs : ℤ) (req : SetRepoHoldRequest) (spec : RepoHoldSpec)
    (before : Option RepoHold) : Option RepoHold :=
  let fresh (repo : JsString) : Option RepoHold :=
    (toISOString nowMs).map fun since =>
      ⟨repo, req.kind, spec.reason, since, spec.until', req.actor, spec.landingId⟩
  match before with
  | none => fresh req.repo
  | some hold =>
      if (holdPermissions req.kind).mayClear.contains req.actor = false then
        -- May set it again but not shorten it.
        some
          { hold with
            reason := spec.reason
            until' := laterUntil parseDate hold.until' spec.until'
            setBy := req.actor
            landingId := spec.landingId.or hold.landingId }
      else fresh hold.repo

/-- The live holds with `after` in its place; none where the store is full. -/
def placeHold (req : SetRepoHoldRequest) (after : RepoHold) (live : List RepoHold) :
    Option (List RepoHold) :=
  match live.findIdx? (·.isFor req.repo req.kind) with
  | some index => some (live.set index after)
  | none => if maxHolds ≤ live.length then none else some (live ++ [after])

def clearedRow (repo : JsString) (kind : RepoHoldKind) (actor : FleetActor) : HoldRow :=
  .cleared repo kind (js "cleared by " ++ JsEnum.text actor) actor

/-- The clearing half of `setRepoHold` under the lock. -/
def clearHold (weather : Weather) (req : SetRepoHoldRequest) (live : List RepoHold) :
    List Effect × RepoHoldChange :=
  match live.find? (·.isFor req.repo req.kind) with
  | none => ([], ⟨true, none, none, none⟩)
  | some before =>
      if (holdPermissions req.kind).mayClear.contains req.actor = false then
        ([], refuse
          (if req.kind = .ownerHold then .onlyMason before.repo
            else .mayClear req.actor req.kind) (some before))
      else
        -- Raising authority: the row must land first.
        let ledger := ledgerHold weather (clearedRow before.repo req.kind req.actor)
        if ledger.2 = false then (ledger.1, refuse .ledger (some before))
        else
          let written := writeStoreUnlocked weather.write (live.eraseP (·.isFor req.repo req.kind))
          (ledger.1 ++ written.1,
            if written.2 then ⟨true, none, some before, none⟩
            else refuse .notWritten (some before))

/-- The setting half of `setRepoHold` under the lock; no answer where it throws. -/
def setHold (weather : Weather) (nowMs : ℤ) (req : SetRepoHoldRequest) (spec : RepoHoldSpec)
    (live : List RepoHold) : List Effect × Option RepoHoldChange :=
  let before := live.find? (·.isFor req.repo req.kind)
  match changedHold parseDate nowMs req spec before with
  | none => ([], none)
  | some after =>
      match placeHold req after live with
      | none => ([], some (refuse .full before))
      | some holds =>
          let written := writeStoreUnlocked weather.write holds
          if written.2 = false then (written.1, some (refuse .notWritten before))
          else
            -- Lowering authority: the hold stands even if the ledger append fails.
            (written.1 ++ (ledgerHold weather (.set after req.actor)).1,
              some ⟨true, none, before, some after⟩)

def setRepoHold (records : Records) (weather : Weather) (nowMs : ℤ)
    (req : SetRepoHoldRequest) : List Effect × Option RepoHoldChange :=
  let live (holds : List RepoHold) := holds.filter fun hold => isHoldActive parseDate hold nowMs
  if nameWithOwnerPattern req.repo = false then ([], some (refuse .notNameWithOwner none))
  else
    match req.hold with
    | none =>
        if weather.locked = false then ([], some (refuse .locked none))
        else
          match readStoreUnlocked parseDate weather.look records.file with
          | .error fault => ([], some (refuse (.store fault) none))
          | .ok holds =>
              let done := clearHold weather req (live holds)
              (done.1, some done.2)
    | some spec =>
        match checkSpec parseDate scrub nowMs req spec with
        | .error refusal => ([], some (refuse refusal none))
        | .ok spec =>
            if weather.locked = false then ([], some (refuse .locked none))
            else
              match readStoreUnlocked parseDate weather.look records.file with
              | .error fault => ([], some (refuse (.store fault) none))
              | .ok holds => setHold parseDate weather nowMs req spec (live holds)

structure SweepResult where
  swept : List RepoHold
  error : Bool

def expiredRow (hold : RepoHold) : HoldRow :=
  .cleared hold.repo hold.kind (js "expired at " ++ hold.until'.getD (js "null")) .daemon

def sweepExpiredRepoHolds (records : Records) (weather : Weather) (nowMs : ℤ) :
    List Effect × SweepResult :=
  if weather.locked = false then ([], ⟨[], true⟩)
  else
    match readStoreUnlocked parseDate weather.look records.file with
    | .error _ => ([], ⟨[], true⟩)
    | .ok holds =>
        let expired := holds.filter fun hold => isHoldActive parseDate hold nowMs = false
        -- Ledger first: a refused row leaves its hold in the file.
        let accepted := fun hold => (ledgerHold weather (expiredRow hold)).2
        let effects := expired.flatMap fun hold => (ledgerHold weather (expiredRow hold)).1
        let swept := expired.filter accepted
        if swept = [] then (effects, ⟨[], expired.any fun hold => accepted hold = false⟩)
        else
          let written := writeStoreUnlocked weather.write (holds.filter fun hold => hold ∉ swept)
          (effects ++ written.1,
            if written.2 then ⟨swept, expired.any fun hold => accepted hold = false⟩
            else ⟨[], true⟩)

def listRepoHolds (file : Option JsValue) (nowMs : ℤ) : Except StoreFault (List RepoHold) :=
  (readStoreUnlocked parseDate .fine file).map fun holds =>
    holds.filter fun hold => isHoldActive parseDate hold nowMs

/-! Runs of calls. -/

inductive HoldCall where
  | setRepoHold (req : SetRepoHoldRequest)
  | sweepExpiredRepoHolds

structure Turn where
  call : HoldCall
  nowMs : ℤ
  weather : Weather
  /-- The acts that happen before a crash. -/
  crashed : Option ℕ

def Turn.outcome (turn : Turn) (records : Records) : List Effect × Bool :=
  match turn.call with
  | .setRepoHold req =>
      let done := RepoHolds.setRepoHold parseDate scrub records turn.weather turn.nowMs req
      (done.1, done.2.any (·.ok))
  | .sweepExpiredRepoHolds =>
      let done := RepoHolds.sweepExpiredRepoHolds parseDate records turn.weather turn.nowMs
      (done.1, done.2.error = false)

def Turn.effects (turn : Turn) (records : Records) : List Effect :=
  match turn.crashed with
  | none => (turn.outcome parseDate scrub records).1
  | some count => (turn.outcome parseDate scrub records).1.take count

structure World where
  clock : ℤ
  records : Records

def Step (world : World) (turn : Turn) (next : World) : Prop :=
  world.clock ≤ turn.nowMs ∧
    next = ⟨turn.nowMs, world.records.applyAll (turn.effects parseDate scrub world.records)⟩

end

def replay (repo : JsString) (kind : RepoHoldKind) (rows : List HoldRow) : Option RepoHold :=
  rows.foldl
    (fun found row =>
      match row with
      | .set hold _ => if hold.isFor repo kind then some hold else found
      | .cleared cleared clearedKind _ _ =>
          if sameRepo cleared repo && clearedKind = kind then none else found)
    none

end AshlrHub.RepoHolds
