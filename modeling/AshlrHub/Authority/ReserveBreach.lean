import AshlrHub.Authority.StandingGrant
import AshlrHub.Authority.LedgerTypes
import AshlrHub.Lib.Sorting
import AshlrHub.Routing.Headroom

namespace AshlrHub.Authority

open Js Lib Routing

/-! The reserve watch: a seat that autonomy used past the line its grant signed is reported
once for as long as it stays past the line. -/

/-- `Date.parse`, whose reading of texts other than ISO ones is the engine's own. -/
structure DateParser where
  parse : JsString → Option ℤ
  inRange : ∀ {text t}, parse text = some t → isTime t = true
  written : ∀ {text t}, toISOString t = some text → parse text = some t

def isoDates : DateParser where
  parse := dateParse
  inRange := by
    intro text t parsed
    unfold dateParse at parsed
    split at parsed
    · split_ifs at parsed with fits
      obtain rfl := Option.some.inj parsed
      rw [Bool.and_eq_true] at fits
      exact fits.2
    · cases parsed
  written := dateParse_toISOString

/-- `ATTRIBUTION_LOOKBACK_MS` -/
def attributionLookbackMs : ℤ := 2 * 60 * 60 * 1000

/-- `EPISODE_SPAN_MS`: the window's own length. -/
def episodeSpanMs : QuotaWindow → ℤ
  | .session => 5 * 60 * 60 * 1000
  | .weekly => 7 * 24 * 60 * 60 * 1000

/-- `MAX_CLOCK_SKEW_MS` -/
def maxClockSkewMs : ℤ := 5 * 60 * 1000

/-- `WATCH_MAX_KEYS` -/
def watchMaxKeys : ℕ := 256

structure ReserveWatchEntry where
  /-- The last fresh reading was past the line. -/
  overLine : Bool
  /-- When that reading was observed. -/
  at' : JsString
  /-- This episode is already on the ledger as a breach. -/
  recorded : Bool
deriving DecidableEq

abbrev ReserveWatchState := JsMap JsString ReserveWatchEntry

def QuotaWindow.text : QuotaWindow → JsString
  | .session => js "session"
  | .weekly => js "weekly"

def watchKey (seatId : SeatId) (window : QuotaWindow) : JsString :=
  seatId.text ++ (js "|" ++ window.text)

structure ReserveBreachRecord where
  seatId : SeatId
  window : QuotaWindow
  usedPercent : ℚ
  limitPercent : ℚ
  at' : JsString

structure WindowReading where
  window : QuotaWindow
  usedPercent : ℚ
  limitPercent : ℚ
deriving DecidableEq

structure WatchCall where
  seats : List SeatCapacity
  policy : EffectiveSpendPolicy
  nowMs : ℤ
  priorBreaches : List LedgerEvidenceRow
  /-- Autonomy was routed to the seat at or after a time. -/
  autonomyUsed : SeatId → ℤ → Bool

structure ReserveBreachDetection where
  breaches : List ReserveBreachRecord
  state : ReserveWatchState

section Readings

variable (parser : DateParser) (seat : SeatCapacity) (nowMs : ℤ)

def highestOf (class' : SeatWindowClass) : Option ℚ :=
  (seat.windows.filter fun window =>
    classifyWindow parser.parse seat.engine window nowMs = class').foldl
      (fun highest window =>
        match if window.limitReached then some 100 else window.usedPercent with
        | none => highest
        | some used => some (max (highest.getD 0) used))
      none

def hasWeeklyWindow : Bool :=
  seat.windows.any fun window =>
    classifyWindow parser.parse seat.engine window nowMs = .weekly

def windowReadings (policy : EffectiveSeatPolicy) : List WindowReading :=
  let reserveLine := minus 100 policy.reserveFloorPercent
  let ceiling := policy.maxSessionWindowPercent.map (Subtype.val)
  let sessionLine :=
    if hasWeeklyWindow parser seat nowMs then ceiling
    else some (min (ceiling.getD 100) reserveLine)
  (match highestOf parser seat nowMs .weekly with
    | none => []
    | some used => [⟨.weekly, used, reserveLine⟩]) ++
    match highestOf parser seat nowMs .session, sessionLine with
    | some used, some line => [⟨.session, used, line⟩]
    | _, _ => []

end Readings

structure Sighting where
  seatId : SeatId
  observedMs : ℤ
  reading : WindowReading
deriving DecidableEq

namespace Sighting

variable (sighting : Sighting)

def pair : SeatId × QuotaWindow :=
  (sighting.seatId, sighting.reading.window)

def overLine : Bool :=
  sighting.reading.limitPercent < sighting.reading.usedPercent

/-- `new Date(observedMs).toISOString()` -/
def observedAt : JsString :=
  (toISOString sighting.observedMs).getD []

end Sighting

section Detector

variable (parser : DateParser) (call : WatchCall)

def seatSightings (seat : SeatCapacity) : List Sighting :=
  match call.policy.seats.get? seat.seatId with
  | none => []
  | some policy =>
      match policy.enabled, parseAt parser.parse seat.observedAt with
      | true, some observedMs =>
          if headroomReadingMaxAgeMs < call.nowMs - observedMs ∨
              maxClockSkewMs < observedMs - call.nowMs then []
          else (windowReadings parser seat call.nowMs policy).map (⟨seat.seatId, observedMs, ·⟩)
      | _, _ => []

def sightings (seen : List SeatId) : List SeatCapacity → List Sighting
  | [] => []
  | seat :: seats =>
      if seat.free ∨ seat.seatId ∈ seen then sightings seen seats
      else seatSightings parser call seat ++ sightings (seat.seatId :: seen) seats

def onRecord (sighting : Sighting) : Bool :=
  call.priorBreaches.any fun row =>
    row.seatId = some sighting.seatId.text && row.window = some sighting.reading.window &&
      match parser.parse row.at' with
      | none => false
      | some atMs => sighting.observedMs - atMs < episodeSpanMs sighting.reading.window

def attributed (sighting : Sighting) : Bool :=
  call.autonomyUsed sighting.seatId (sighting.observedMs - attributionLookbackMs)

/-- What a reading makes of the entry before it, and whether it is charged as a breach.  None
where a newer reading was seen already. -/
def judge (previous : Option ReserveWatchEntry) (sighting : Sighting) :
    Option (ReserveWatchEntry × Bool) :=
  let at' := sighting.observedAt
  if previous.any fun entry => (parser.parse entry.at').any (sighting.observedMs < ·) then none
  else if !sighting.overLine then some (⟨false, at', false⟩, false)
  else if previous.any fun entry => entry.overLine && entry.recorded then
    some (⟨true, at', true⟩, false)
  else if previous.isNone && onRecord parser call sighting then
    -- lost or first-ever watch state: the ledger is the memory
    some (⟨true, at', true⟩, false)
  else some (⟨true, at', attributed call sighting⟩, attributed call sighting)

def breachOf (sighting : Sighting) : ReserveBreachRecord where
  seatId := sighting.seatId
  window := sighting.reading.window
  -- `Math.round(usedPercent * 10) / 10`
  usedPercent := nearestDouble (⌊nearestDouble (sighting.reading.usedPercent * 10) + 1 / 2⌋ / 10)
  limitPercent := sighting.reading.limitPercent
  at' := sighting.observedAt

def watchSighting (state : ReserveWatchState) (found : ReserveBreachDetection)
    (sighting : Sighting) : ReserveBreachDetection :=
  let key := watchKey sighting.seatId sighting.reading.window
  match judge parser call (state.get? key) sighting with
  | none => found
  | some (entry, charged) =>
      { breaches := if charged then found.breaches ++ [breachOf sighting] else found.breaches
        state := found.state.set key entry }

def watchAll (state : ReserveWatchState) : ReserveBreachDetection :=
  (sightings parser call [] call.seats).foldl (watchSighting parser call state) ⟨[], state⟩

/-- By the time of the entry; a comparison with a text that names no time is `NaN`, which
sorts as a tie. -/
def compareEntries (a b : JsString × ReserveWatchEntry) : ℚ :=
  match parser.parse a.2.at', parser.parse b.2.at' with
  | some first, some second => first - second
  | _, _ => 0

/-- Drop the oldest keys if a misbehaving source floods seat ids. -/
def boundWatch (sorting : SortAlgorithm) (state : ReserveWatchState) : ReserveWatchState :=
  if watchMaxKeys < state.length then
    ((sorting.sort (compareEntries parser) state).take (state.length - watchMaxKeys)).foldl
      (fun kept entry => JsMap.delete entry.1 kept) state
  else state

def detectReserveBreaches (sorting : SortAlgorithm) (state : Option ReserveWatchState) :
    ReserveBreachDetection :=
  let found := watchAll parser call (state.getD [])
  { found with state := boundWatch parser sorting found.state }

end Detector

end AshlrHub.Authority
