import AshlrHub.Authority.Clamp
import AshlrHub.Fleet.SharedStore

namespace AshlrHub.TurnQueue

open Js Authority

/-! Follow-ups typed while a turn runs: a queue for each chat, kept in memory and on disk. -/

def verseQueueMax : ℕ := 3

def verseQueueTextMaxBytes : ℕ := 64 * 1024

structure VerseQueuedTurn where
  id : JsString
  sessionId : JsString
  text : JsString
  createdAt : JsString
deriving DecidableEq

structure QueueState where
  items : List VerseQueuedTurn
  held : Bool
  heldReason : Option JsString
  heldAt : Option JsString
  /-- The item to send next even though the turn it waited on was stopped. -/
  sendNow : Option JsString

def emptyState : QueueState := ⟨[], false, none, none, none⟩

inductive QueueErrorCode where
  | invalid
  | tooLarge
  | queueFull

structure VerseQueueError where
  code : QueueErrorCode
  message : JsString

/-- `/^[0-9a-f]{12}$/` -/
def isQueueId (id : JsString) : Bool :=
  id.length = 12 && id.all fun unit =>
    (0x30 ≤ unit && unit ≤ 0x39) || (0x61 ≤ unit && unit ≤ 0x66)

def validateQueuedText (text : JsString) : Except VerseQueueError JsString :=
  if trim text = [] then .error ⟨.invalid, js "text is required"⟩
  else if verseQueueTextMaxBytes < (utf8Encode text).length then
    .error ⟨.tooLarge, js "text exceeds 65536 bytes"⟩
  else if 0 ∈ text then .error ⟨.invalid, js "text must not contain NUL bytes"⟩
  else .ok text

/-! What a queue file holds. -/

def VerseQueuedTurn.json (item : VerseQueuedTurn) : JsValue :=
  .obj [(js "id", .str item.id), (js "sessionId", .str item.sessionId),
    (js "text", .str item.text), (js "createdAt", .str item.createdAt)]

def textOrNull : Option JsString → JsValue
  | none => .null
  | some text => .str text

section

variable (state : QueueState)

def QueueState.json : JsValue :=
  .obj [(js "items", .arr (state.items.map VerseQueuedTurn.json)),
    (js "held", .bool state.held), (js "heldReason", textOrNull state.heldReason),
    (js "heldAt", textOrNull state.heldAt)]

def QueueState.bytes : Bytes :=
  utf8Encode (writeValue state.json ++ [0x0A])

/-- `isQueuedTurn`, with the item that it finds. -/
def queuedTurn (sessionId : JsString) (value : JsValue) : Option VerseQueuedTurn := do
  let members ← value.asRecord
  let id ← (getMember members (js "id")).asString
  let session ← (getMember members (js "sessionId")).asString
  let text ← (getMember members (js "text")).asString
  let createdAt ← (getMember members (js "createdAt")).asString
  if isQueueId id ∧ session = sessionId ∧ text ≠ [] then some ⟨id, session, text, createdAt⟩
  else none

def listed : JsValue → List JsValue
  | .arr items => items
  | _ => []

/-- What `load` makes of the bytes of a file. -/
def readState (sessionId : JsString) (bytes : Bytes) : QueueState :=
  match (parseJson (utf8Decode bytes)).bind JsValue.asRecord with
  | none => emptyState
  | some members =>
      let items := ((listed (getMember members (js "items"))).filterMap
        (queuedTurn sessionId)).take verseQueueMax
      { items
        held := (getMember members (js "held")).asBool = some true && items ≠ []
        heldReason := (getMember members (js "heldReason")).asString
        heldAt := (getMember members (js "heldAt")).asString
        -- the stop that a mark rode on is gone after a restart
        sendNow := none }

/-! One process at a time over the queue directory. -/

structure World where
  cache : JsMap JsString QueueState
  files : JsMap JsString Bytes

def World.start : World := ⟨[], []⟩

def World.stored (world : World) (sessionId : JsString) : QueueState :=
  match world.files.get? sessionId with
  | none => emptyState
  | some bytes => readState sessionId bytes

/-- `load`, which caches what it read. -/
def World.load (world : World) (sessionId : JsString) : QueueState :=
  match world.cache.get? sessionId with
  | some state => state
  | none => world.stored sessionId

def World.keep (world : World) (sessionId : JsString) (state : QueueState) : World :=
  { world with cache := world.cache.set sessionId state }

def QueueState.settled : QueueState :=
  if state.items = [] then emptyState else state

/-- `persist` on a disk that takes every write. -/
def World.persist (world : World) (sessionId : JsString) (state : QueueState) : World where
  cache := world.cache.set sessionId state.settled
  files := if state.items = [] then world.files.delete sessionId
    else world.files.set sessionId state.bytes

def QueueState.find? (queueId : JsString) : Option VerseQueuedTurn :=
  state.items.find? fun item => item.id = queueId

def QueueState.without (item : VerseQueuedTurn) : QueueState :=
  { state with
    items := state.items.erase item
    sendNow := if state.sendNow = some item.id then none else state.sendNow }

end

/-- What the callers ask for. -/
inductive Call where
  | enqueue (text : JsString) (front : Bool) (randomId fallbackId now : JsString)
  | remove (queueId : JsString)
  | take (queueId : Option JsString)
  | restore (item : VerseQueuedTurn)
  | hold (reason now : JsString)
  | release
  | markSendNow (queueId : JsString)
  | takeSendNow
  | drop

inductive Answer where
  | refused (error : VerseQueueError)
  | queued (item : VerseQueuedTurn)
  | removed (done : Bool)
  | taken (item : Option VerseQueuedTurn)
  | marked (done : Bool)
  | sendNow (queueId : Option JsString)
  | done

section

variable (world : World) (sessionId : JsString)

def World.enqueue (text : JsString) (front : Bool) (randomId fallbackId now : JsString) :
    World × Answer :=
  match validateQueuedText text with
  | .error error => (world, .refused error)
  | .ok clean =>
      let state := world.load sessionId
      if verseQueueMax ≤ state.items.length then
        (world.keep sessionId state, .refused ⟨.queueFull,
          js "up to 3 follow-ups can wait at once — send or remove one first"⟩)
      else
        let id := if isQueueId randomId = true ∧ state.find? randomId = none then randomId
          else fallbackId
        let item : VerseQueuedTurn := ⟨id, sessionId, clean, now⟩
        let items := if front then item :: state.items else state.items ++ [item]
        (world.persist sessionId { state with items }, .queued item)

def World.remove (queueId : JsString) : World × Answer :=
  let state := world.load sessionId
  match state.find? queueId with
  | none => (world.keep sessionId state, .removed false)
  | some item => (world.persist sessionId (state.without item), .removed true)

def World.take (queueId : Option JsString) : World × Answer :=
  let state := world.load sessionId
  let chosen := match queueId with
    | none => state.items.head?
    | some queueId => state.find? queueId
  match chosen with
  | none => (world.keep sessionId state, .taken none)
  | some item => (world.persist sessionId (state.without item), .taken (some item))

def World.restore (item : VerseQueuedTurn) : World × Answer :=
  let state := world.load sessionId
  match state.find? item.id with
  | some _ => (world.keep sessionId state, .done)
  | none =>
      (world.persist sessionId { state with items := (item :: state.items).take verseQueueMax },
        .done)

def World.hold (reason now : JsString) : World × Answer :=
  let state := world.load sessionId
  if state.items = [] then (world.keep sessionId state, .done)
  else
    (world.persist sessionId { state with
      held := true
      heldReason := some reason
      heldAt := if state.held then state.heldAt else some now }, .done)

def World.release : World × Answer :=
  let state := world.load sessionId
  if state.held then
    (world.persist sessionId { state with held := false, heldReason := none, heldAt := none },
      .done)
  else (world.keep sessionId state, .done)

def World.markSendNow (queueId : JsString) : World × Answer :=
  let state := world.load sessionId
  match state.find? queueId with
  | none => (world.keep sessionId state, .marked false)
  | some _ => (world.keep sessionId { state with sendNow := some queueId }, .marked true)

def World.takeSendNow : World × Answer :=
  let state := world.load sessionId
  (world.keep sessionId { state with sendNow := none },
    .sendNow (state.sendNow.filter fun queueId => (state.find? queueId).isSome))

def World.drop : World × Answer :=
  ({ cache := world.cache.set sessionId emptyState, files := world.files.delete sessionId }, .done)

def World.call : Call → World × Answer
  | .enqueue text front randomId fallbackId now =>
      world.enqueue sessionId text front randomId fallbackId now
  | .remove queueId => world.remove sessionId queueId
  | .take queueId => world.take sessionId queueId
  | .restore item => world.restore sessionId item
  | .hold reason now => world.hold sessionId reason now
  | .release => world.release sessionId
  | .markSendNow queueId => world.markSendNow sessionId queueId
  | .takeSendNow => world.takeSendNow sessionId
  | .drop => world.drop sessionId

end

inductive Event where
  | call (sessionId : JsString) (call : Call)
  | restart

structure Entry where
  event : Event
  answer : Answer
  before : List VerseQueuedTurn

def World.step (world : World) : Event → World × Entry
  | .restart => (⟨[], world.files⟩, ⟨.restart, .done, []⟩)
  | .call sessionId call =>
      ((world.call sessionId call).1, ⟨.call sessionId call, (world.call sessionId call).2,
        (world.load sessionId).items⟩)

def play (events : List Event) : World × List Entry :=
  events.foldl (fun played event =>
    ((played.1.step event).1, played.2 ++ [(played.1.step event).2])) (.start, [])

/-! What becomes of an item. -/

inductive Happening where
  | accepted (item : VerseQueuedTurn) (front : Bool)
  | removed (queueId : JsString)
  | taken (item : VerseQueuedTurn)
  /-- With the items that it pushed out of a full queue. -/
  | putBack (item : VerseQueuedTurn) (pushedOut : List VerseQueuedTurn)
  | dropped
deriving DecidableEq

def happening (before : List VerseQueuedTurn) : Call → Answer → Option Happening
  | .enqueue _ front .., .queued item => some (.accepted item front)
  | .remove queueId, .removed true => some (.removed queueId)
  | .take _, .taken (some item) => some (.taken item)
  | .restore item, _ =>
      if before.any (fun existing => existing.id = item.id) then none
      else some (.putBack item ((item :: before).drop verseQueueMax))
  | .drop, _ => some .dropped
  | _, _ => none

def Entry.happening (sessionId : JsString) (entry : Entry) : Option Happening :=
  match entry.event with
  | .restart => none
  | .call session call =>
      if session = sessionId then TurnQueue.happening entry.before call entry.answer else none

def history (trace : List Entry) (sessionId : JsString) : List Happening :=
  trace.filterMap (Entry.happening sessionId)

def Happening.waits (item : VerseQueuedTurn) : Happening → Option Bool
  | .accepted queued _ => if queued = item then some true else none
  | .removed queueId => if item.id = queueId then some false else none
  | .taken item' => if item' = item then some false else none
  | .putBack restored pushedOut =>
      if item ∈ pushedOut then some false else if restored = item then some true else none
  | .dropped => some false

def waiting (happened : List Happening) (item : VerseQueuedTurn) : Bool :=
  happened.foldl (fun waits happening => (happening.waits item).getD waits) false

def arrivals (happened : List Happening) : List VerseQueuedTurn :=
  happened.filterMap fun
    | .accepted item false => some item
    | _ => none

def moved (happened : List Happening) (item : VerseQueuedTurn) : Bool :=
  happened.any fun
    | .accepted queued true => queued = item
    | .putBack restored _ => restored = item
    | _ => false

def Entry.restorable (front : List Entry) (entry : Entry) : Bool :=
  match entry.event with
  | .call sessionId (.restore item) => .taken item ∈ history front sessionId
  | _ => true

def restorable (front : List Entry) : List Entry → Bool
  | [] => true
  | entry :: rest => entry.restorable front && restorable (front ++ [entry]) rest

def Event.drawn : Event → List JsString
  | .call _ (.enqueue _ _ randomId fallbackId _) => [randomId, fallbackId]
  | _ => []

def Event.formed : Event → Bool
  | .call _ (.enqueue _ _ _ fallbackId _) => isQueueId fallbackId
  | _ => true

structure Drawn (events : List Event) : Prop where
  once : (events.flatMap Event.drawn).Nodup
  formed : events.all Event.formed = true

/-! A file gives back the queue that was written to it. -/

structure Formed (sessionId : JsString) (item : VerseQueuedTurn) : Prop where
  id : isQueueId item.id = true
  chat : item.sessionId = sessionId
  text : item.text ≠ []

variable {sessionId : JsString}

theorem queuedTurn_json {item : VerseQueuedTurn}
    (formed : Formed sessionId item) : queuedTurn sessionId item.json = some item := by
  show (if isQueueId item.id ∧ item.sessionId = sessionId ∧ item.text ≠ [] then _ else none) = _
  rw [if_pos ⟨formed.id, formed.chat, formed.text⟩]

theorem filterMap_queuedTurn : {items : List VerseQueuedTurn} →
    (∀ item ∈ items, Formed sessionId item) →
    (items.map VerseQueuedTurn.json).filterMap (queuedTurn sessionId) = items
  | [], _ => rfl
  | item :: items, formed => by
      rw [List.map_cons, List.filterMap_cons, queuedTurn_json (formed item List.mem_cons_self),
        filterMap_queuedTurn fun other member => formed other (List.mem_cons_of_mem item member)]

structure Sound (sessionId : JsString) (state : QueueState) : Prop where
  cap : state.items.length ≤ verseQueueMax
  formed : ∀ item ∈ state.items, Formed sessionId item
  idle : state.items = [] → state = emptyState

def QueueState.unmarked (state : QueueState) : QueueState :=
  { state with sendNow := none }

theorem allJson_items : (items : List VerseQueuedTurn) →
    allJson (items.map VerseQueuedTurn.json) = true
  | [] => rfl
  | item :: items => by
      rw [List.map_cons, allJson, allJson_items items, Bool.and_true]
      rfl

theorem asString_textOrNull (text : Option JsString) : (textOrNull text).asString = text := by
  cases text with
  | none => rfl
  | some text => rfl

theorem isJson_textOrNull (text : Option JsString) : (textOrNull text).isJson = true := by
  cases text with
  | none => rfl
  | some text => rfl

theorem isJson_state (state : QueueState) : state.json.isJson = true := by
  show (decide (List.Nodup [js "items", js "held", js "heldReason", js "heldAt"]) &&
    ((JsValue.arr (state.items.map VerseQueuedTurn.json)).isJson && (true &&
      ((textOrNull state.heldReason).isJson && ((textOrNull state.heldAt).isJson && true))))) = true
  have distinct : List.Nodup [js "items", js "held", js "heldReason", js "heldAt"] := by decide
  rw [isJson_textOrNull, isJson_textOrNull, JsValue.isJson, allJson_items, decide_eq_true distinct]
  rfl

theorem readState_bytes {state : QueueState}
    (cap : state.items.length ≤ verseQueueMax)
    (formed : ∀ item ∈ state.items, Formed sessionId item) (some_ : state.items ≠ []) :
    readState sessionId state.bytes = state.unmarked := by
  have text : wellFormed (writeValue state.json ++ [0x0A]) = true :=
    wellFormed_append (printable_writeValue _).formed (by decide)
  have parsed : parseJson (utf8Decode state.bytes) = some state.json := by
    rw [QueueState.bytes, utf8Decode_utf8Encode text]
    exact parseJson_writeValue_append (isJson_state state) (endsNumber_of_ne (by decide) (by decide)
      []) rfl
  have items : ((listed (.arr (state.items.map VerseQueuedTurn.json))).filterMap
      (queuedTurn sessionId)).take verseQueueMax = state.items := by
    rw [listed, filterMap_queuedTurn formed, List.take_of_length_le cap]
  have held : (decide ((JsValue.bool state.held).asBool = some true) &&
      decide (state.items ≠ [])) = state.held := by
    rw [decide_eq_true some_, Bool.and_true]
    cases state.held with
    | false => rfl
    | true => rfl
  unfold readState
  rw [parsed]
  show QueueState.mk (((listed (.arr (state.items.map VerseQueuedTurn.json))).filterMap
    (queuedTurn sessionId)).take verseQueueMax) (decide ((JsValue.bool state.held).asBool =
      some true) && decide (((listed (.arr (state.items.map VerseQueuedTurn.json))).filterMap
    (queuedTurn sessionId)).take verseQueueMax ≠ [])) (textOrNull state.heldReason).asString
    (textOrNull state.heldAt).asString none = _
  rw [asString_textOrNull, asString_textOrNull, items, held]
  rfl

/-! Memory and disk agree. -/

structure Kept (world : World) : Prop where
  stored : ∀ sessionId, Sound sessionId (world.stored sessionId)
  cached : ∀ sessionId state, world.cache.get? sessionId = some state →
    Sound sessionId state ∧ world.stored sessionId = state.unmarked

variable {world : World} {sessionId other : JsString} {state : QueueState}

theorem sound_empty (sessionId : JsString) : Sound sessionId emptyState :=
  ⟨Nat.zero_le _, nofun, fun _ => rfl⟩

theorem readState_unmarked (sessionId : JsString) (bytes : Bytes) :
    (readState sessionId bytes).unmarked = readState sessionId bytes := by
  unfold readState
  split
  · rfl
  · rfl

theorem stored_unmarked (world : World) (sessionId : JsString) :
    (world.stored sessionId).unmarked = world.stored sessionId := by
  unfold World.stored
  split
  · rfl
  · exact readState_unmarked _ _

theorem Kept.load (kept : Kept world) (sessionId : JsString) :
    Sound sessionId (world.load sessionId) ∧
      world.stored sessionId = (world.load sessionId).unmarked := by
  unfold World.load
  split
  case h_1 state held => exact kept.cached sessionId state held
  case h_2 => exact ⟨kept.stored sessionId, (stored_unmarked _ _).symm⟩

theorem load_restart (kept : Kept world) (sessionId : JsString) :
    (world.step .restart).1.load sessionId = (world.load sessionId).unmarked :=
  (kept.load sessionId).2

theorem load_set (files : JsMap JsString Bytes) :
    (World.mk (world.cache.set sessionId state) files).load sessionId = state := by
  unfold World.load
  dsimp only
  rw [JsMap.get?_set, if_pos rfl]

theorem load_set_ne {files : JsMap JsString Bytes} (away : other ≠ sessionId)
    (same : files.get? other = world.files.get? other) :
    (World.mk (world.cache.set sessionId state) files).load other = world.load other := by
  unfold World.load World.stored
  dsimp only
  rw [JsMap.get?_set_ne away _ _, same]

theorem Kept.set (kept : Kept world) {files : JsMap JsString Bytes} (sound : Sound sessionId state)
    (same : ∀ other, other ≠ sessionId → files.get? other = world.files.get? other)
    (written : World.stored ⟨[], files⟩ sessionId = state.unmarked) :
    Kept ⟨world.cache.set sessionId state, files⟩ := by
  have storedElse : ∀ other, other ≠ sessionId →
      World.stored ⟨world.cache.set sessionId state, files⟩ other = world.stored other := by
    intro other away
    unfold World.stored
    dsimp only
    rw [same other away]
  have unmarked : Sound sessionId state.unmarked := by
    refine ⟨sound.cap, sound.formed, fun none => ?_⟩
    rw [sound.idle none]
    rfl
  constructor
  · intro other
    by_cases here : other = sessionId
    · rw [here]
      exact (show World.stored _ sessionId = _ from written) ▸ unmarked
    · rw [storedElse other here]
      exact kept.stored other
  · intro other held found
    by_cases here : other = sessionId
    · subst here
      rw [JsMap.get?_set, if_pos rfl] at found
      obtain rfl := Option.some.inj found
      exact ⟨sound, written⟩
    · rw [JsMap.get?_set_ne here _ _] at found
      rw [storedElse other here]
      exact kept.cached other held found

theorem Kept.keep (kept : Kept world) (sound : Sound sessionId state)
    (same : state.unmarked = (world.load sessionId).unmarked) :
    Kept (world.keep sessionId state) :=
  kept.set sound (fun _ _ => rfl) ((kept.load sessionId).2.trans same.symm)

theorem Kept.persist (kept : Kept world) (cap : state.items.length ≤ verseQueueMax)
    (formed : ∀ item ∈ state.items, Formed sessionId item) :
    Kept (world.persist sessionId state) := by
  unfold World.persist QueueState.settled
  by_cases none : state.items = []
  · rw [if_pos none, if_pos none]
    refine kept.set (sound_empty _) (fun other away => JsMap.get?_delete_ne away _) ?_
    unfold World.stored
    dsimp only
    rw [JsMap.get?_delete_self]
    rfl
  · rw [if_neg none, if_neg none]
    refine kept.set ⟨cap, formed, fun empty => absurd empty none⟩
      (fun other away => JsMap.get?_set_ne away _ _) ?_
    unfold World.stored
    dsimp only
    rw [JsMap.get?_set, if_pos rfl]
    exact readState_bytes cap formed none

theorem load_persist_items :
    ((world.persist sessionId state).load sessionId).items = state.items := by
  unfold World.persist
  rw [load_set, QueueState.settled]
  split
  case isTrue none => exact none.symm
  case isFalse => rfl

theorem load_persist_ne (away : other ≠ sessionId) :
    (world.persist sessionId state).load other = world.load other := by
  unfold World.persist
  refine load_set_ne away ?_
  split
  · exact JsMap.get?_delete_ne away _
  · exact JsMap.get?_set_ne away _ _

/-! What each call does. -/

inductive Effect (sessionId : JsString) (drawn : List JsString) (items : List VerseQueuedTurn) :
    Option Happening → List VerseQueuedTurn → Prop
  | same : Effect sessionId drawn items none items
  | accepted {item : VerseQueuedTurn} {front : Bool} (room : items.length < verseQueueMax)
      (formed : Formed sessionId item) (id : item.id ∈ drawn) :
      Effect sessionId drawn items (some (.accepted item front))
        (if front then item :: items else items ++ [item])
  | removed {item : VerseQueuedTurn} (present : item ∈ items) :
      Effect sessionId drawn items (some (.removed item.id)) (items.erase item)
  | taken {item : VerseQueuedTurn} (present : item ∈ items) :
      Effect sessionId drawn items (some (.taken item)) (items.erase item)
  | putBack {item : VerseQueuedTurn} (away : ∀ existing ∈ items, existing.id ≠ item.id) :
      Effect sessionId drawn items
        (some (.putBack item ((item :: items).drop verseQueueMax)))
        ((item :: items).take verseQueueMax)
  | dropped : Effect sessionId drawn items (some .dropped) []

theorem load_keep (world : World) : (world.keep sessionId state).load sessionId = state :=
  load_set _

theorem load_keep_ne (away : other ≠ sessionId) :
    (world.keep sessionId state).load other = world.load other :=
  load_set_ne away rfl

theorem find?_some {queueId : JsString} {item : VerseQueuedTurn}
    (found : state.find? queueId = some item) : item ∈ state.items ∧ item.id = queueId := by
  have same := List.find?_some (show state.items.find? _ = some item from found)
  exact ⟨List.mem_of_find?_eq_some found, of_decide_eq_true same⟩

theorem find?_none {queueId : JsString} (absent : state.find? queueId = none) :
    ∀ item ∈ state.items, item.id ≠ queueId := by
  intro item member same
  have differs := List.find?_eq_none.mp absent item member
  exact differs (decide_eq_true same)

theorem validateQueuedText_ok {text clean : JsString}
    (valid : validateQueuedText text = .ok clean) : clean = text ∧ text ≠ [] := by
  unfold validateQueuedText at valid
  split at valid
  · cases valid
  · rename_i blank
    split at valid
    · cases valid
    · split at valid
      · cases valid
      · refine ⟨(Except.ok.inj valid).symm, fun empty => blank ?_⟩
        rw [empty]
        rfl

section

variable {text randomId fallbackId now : JsString} {front : Bool}

theorem enqueue_text {item : VerseQueuedTurn}
    (queued : (world.enqueue sessionId text front randomId fallbackId now).2 = .queued item) :
    item.text = text ∧ item.sessionId = sessionId := by
  unfold World.enqueue at queued
  cases valid : validateQueuedText text with
  | error error =>
      rw [valid] at queued
      cases queued
  | ok clean =>
      rw [valid] at queued
      dsimp only at queued
      split at queued
      · cases queued
      · rw [← Answer.queued.inj queued]
        exact ⟨(validateQueuedText_ok valid).1, rfl⟩

/-- What `enqueue` answers and leaves, as far as the items go. -/
theorem enqueue_cases (world : World) (formed : isQueueId fallbackId = true) :
    (∃ error, (world.enqueue sessionId text front randomId fallbackId now).2 = .refused error ∧
      ((world.enqueue sessionId text front randomId fallbackId now).1 = world ∨
        (world.enqueue sessionId text front randomId fallbackId now).1 =
          world.keep sessionId (world.load sessionId))) ∨
    ∃ item, (world.enqueue sessionId text front randomId fallbackId now).2 = .queued item ∧
      (world.enqueue sessionId text front randomId fallbackId now).1 =
        world.persist sessionId { world.load sessionId with
          items := if front then item :: (world.load sessionId).items
            else (world.load sessionId).items ++ [item] } ∧
      (world.load sessionId).items.length < verseQueueMax ∧ Formed sessionId item ∧
      item.id ∈ [randomId, fallbackId] := by
  unfold World.enqueue
  cases valid : validateQueuedText text with
  | error error => exact .inl ⟨error, rfl, .inl rfl⟩
  | ok clean =>
      obtain ⟨rfl, some_⟩ := validateQueuedText_ok valid
      dsimp only
      split
      case isTrue full => exact .inl ⟨_, rfl, .inr rfl⟩
      case isFalse room =>
        refine .inr ⟨_, rfl, rfl, Nat.lt_of_not_le room, ⟨?_, rfl, some_⟩, ?_⟩
        · dsimp only
          split
          case isTrue fresh => exact fresh.1
          case isFalse => exact formed
        · dsimp only
          split
          case isTrue => exact List.mem_cons_self
          case isFalse => exact List.mem_cons_of_mem _ List.mem_cons_self

end

structure Reaches (world next : World) (sessionId : JsString) (items : List VerseQueuedTurn) :
    Prop where
  kept : Kept next
  items : (next.load sessionId).items = items
  others : ∀ other, other ≠ sessionId → next.load other = world.load other

section

variable (kept : Kept world)
include kept

theorem Kept.reaches_self :
    Reaches world world sessionId (world.load sessionId).items :=
  ⟨kept, rfl, fun _ _ => rfl⟩

theorem Kept.reaches_keep (sound : Sound sessionId state)
    (same : state.unmarked = (world.load sessionId).unmarked) :
    Reaches world (world.keep sessionId state) sessionId (world.load sessionId).items where
  kept := kept.keep sound same
  items := by
    rw [load_keep]
    exact (QueueState.mk.inj same).1
  others := fun _ away => load_keep_ne away

theorem Kept.reaches_load :
    Reaches world (world.keep sessionId (world.load sessionId)) sessionId
      (world.load sessionId).items :=
  kept.reaches_keep (kept.load sessionId).1 rfl

theorem Kept.reaches_persist (cap : state.items.length ≤ verseQueueMax)
    (formed : ∀ item ∈ state.items, Formed sessionId item) :
    Reaches world (world.persist sessionId state) sessionId state.items :=
  ⟨kept.persist cap formed, load_persist_items, fun _ away => load_persist_ne away⟩

end

def Accounts (world : World) (sessionId : JsString) (call : Call) : Prop :=
  ∃ items, Reaches world (world.call sessionId call).1 sessionId items ∧
    Effect sessionId (Event.call sessionId call).drawn (world.load sessionId).items
      (happening (world.load sessionId).items call (world.call sessionId call).2) items

section

variable (kept : Kept world)
include kept

theorem Kept.enqueue {text randomId fallbackId now : JsString} {front : Bool}
    (formed : isQueueId fallbackId = true) :
    Accounts world sessionId (.enqueue text front randomId fallbackId now) := by
  unfold Accounts World.call
  dsimp only
  rcases enqueue_cases world formed with
    ⟨error, answer, reached⟩ | ⟨item, answer, reached, room, itemFormed, id⟩
  · refine ⟨(world.load sessionId).items, ?_, ?_⟩
    · rcases reached with reached | reached
      · rw [reached]
        exact kept.reaches_self
      · rw [reached]
        exact kept.reaches_load
    · rw [answer]
      exact .same
  · rw [reached, answer]
    have old := (kept.load sessionId).1.formed
    refine ⟨_, kept.reaches_persist ?_ ?_, .accepted room itemFormed id⟩
    · cases front with
      | true => exact room
      | false => exact (List.length_append ..).trans_le room
    · intro other member
      cases front with
      | true =>
          rcases List.mem_cons.mp member with rfl | member
          · exact itemFormed
          · exact old other member
      | false =>
          rcases List.mem_append.mp member with member | member
          · exact old other member
          · exact List.mem_singleton.mp member ▸ itemFormed

theorem Kept.without (item : VerseQueuedTurn) :
    Reaches world (world.persist sessionId ((world.load sessionId).without item)) sessionId
      ((world.load sessionId).items.erase item) :=
  kept.reaches_persist (List.length_erase_le.trans (kept.load sessionId).1.cap)
    fun other member => (kept.load sessionId).1.formed other (List.mem_of_mem_erase member)

theorem Kept.remove (queueId : JsString) :
    Accounts world sessionId (.remove queueId) := by
  unfold Accounts World.call World.remove
  dsimp only
  cases found : (world.load sessionId).find? queueId with
  | none => exact ⟨_, kept.reaches_load, .same⟩
  | some item =>
      obtain ⟨present, rfl⟩ := find?_some found
      exact ⟨_, kept.without item, .removed present⟩

theorem Kept.take (queueId : Option JsString) :
    Accounts world sessionId (.take queueId) := by
  unfold Accounts World.call World.take
  dsimp only
  cases chosen : (match queueId with
    | none => (world.load sessionId).items.head?
    | some queueId => (world.load sessionId).find? queueId) with
  | none => exact ⟨_, kept.reaches_load, .same⟩
  | some item =>
      have present : item ∈ (world.load sessionId).items := by
        cases queueId with
        | none => exact List.mem_of_head? chosen
        | some queueId => exact (find?_some chosen).1
      exact ⟨_, kept.without item, .taken present⟩

end

variable {item : VerseQueuedTurn}

theorem Kept.restore (kept : Kept world)
    (formed : Formed sessionId item) : Accounts world sessionId (.restore item) := by
  unfold Accounts World.call World.restore happening
  dsimp only
  cases found : (world.load sessionId).find? item.id with
  | some existing =>
      obtain ⟨present, same⟩ := find?_some found
      refine ⟨_, kept.reaches_load, ?_⟩
      rw [if_pos (List.any_eq_true.mpr ⟨existing, present, decide_eq_true same⟩)]
      exact .same
  | none =>
      have away := find?_none found
      refine ⟨_, kept.reaches_persist (List.length_take_le _ _) ?_, ?_⟩
      · intro other member
        rcases List.mem_cons.mp (List.mem_of_mem_take member) with rfl | member
        · exact formed
        · exact (kept.load sessionId).1.formed other member
      · rw [if_neg]
        · exact .putBack away
        · rw [List.any_eq_true]
          rintro ⟨existing, present, same⟩
          exact away existing present (of_decide_eq_true same)

theorem Kept.hold (kept : Kept world) (reason now : JsString) :
    Accounts world sessionId (.hold reason now) := by
  unfold Accounts World.call World.hold
  dsimp only
  split
  case isTrue => exact ⟨_, kept.reaches_load, .same⟩
  case isFalse =>
    have sound := (kept.load sessionId).1
    exact ⟨_, kept.reaches_persist sound.cap sound.formed, .same⟩

theorem Kept.release (kept : Kept world) : Accounts world sessionId .release := by
  unfold Accounts World.call World.release
  dsimp only
  split
  case isTrue =>
    have sound := (kept.load sessionId).1
    exact ⟨_, kept.reaches_persist sound.cap sound.formed, .same⟩
  case isFalse => exact ⟨_, kept.reaches_load, .same⟩

theorem Kept.markSendNow (kept : Kept world) (queueId : JsString) :
    Accounts world sessionId (.markSendNow queueId) := by
  unfold Accounts World.call World.markSendNow
  dsimp only
  have sound := (kept.load sessionId).1
  cases found : (world.load sessionId).find? queueId with
  | none => exact ⟨_, kept.reaches_load, .same⟩
  | some item =>
      refine ⟨_, kept.reaches_keep ⟨sound.cap, sound.formed, fun empty => ?_⟩ rfl, .same⟩
      exact absurd ((find?_some found).1) (empty ▸ List.not_mem_nil)

theorem Kept.takeSendNow (kept : Kept world) : Accounts world sessionId .takeSendNow := by
  unfold Accounts World.call World.takeSendNow
  dsimp only
  have sound := (kept.load sessionId).1
  refine ⟨_, kept.reaches_keep ⟨sound.cap, sound.formed, fun empty => ?_⟩ rfl, .same⟩
  rw [sound.idle empty]
  rfl

theorem Kept.drop (kept : Kept world) : Accounts world sessionId .drop := by
  refine ⟨[], ⟨?_, ?_, ?_⟩, .dropped⟩
  · refine kept.set (sound_empty _) (fun other away => JsMap.get?_delete_ne away _) ?_
    unfold World.stored
    dsimp only
    rw [JsMap.get?_delete_self]
    rfl
  · exact congrArg QueueState.items (load_set _)
  · exact fun other away => load_set_ne away (JsMap.get?_delete_ne away _)

def Call.Formed (sessionId : JsString) : Call → Prop
  | .enqueue _ _ _ fallbackId _ => isQueueId fallbackId = true
  | .restore item => TurnQueue.Formed sessionId item
  | _ => True

theorem Kept.call (kept : Kept world) {call : Call} (formed : call.Formed sessionId) :
    Accounts world sessionId call := by
  cases call with
  | enqueue text front randomId fallbackId now => exact kept.enqueue formed
  | remove queueId => exact kept.remove queueId
  | take queueId => exact kept.take queueId
  | restore item => exact kept.restore formed
  | hold reason now => exact kept.hold reason now
  | release => exact kept.release
  | markSendNow queueId => exact kept.markSendNow queueId
  | takeSendNow => exact kept.takeSendNow
  | drop => exact kept.drop

/-! The queue of one chat against its history. -/

def Accepted (happened : List Happening) (item : VerseQueuedTurn) : Prop :=
  ∃ front, .accepted item front ∈ happened

structure Accounted (happened : List Happening) (items : List VerseQueuedTurn) : Prop where
  nodup : items.Nodup
  queued : ∀ item, item ∈ items ↔ waiting happened item = true
  known : ∀ item ∈ items, Accepted happened item
  taken : ∀ item, .taken item ∈ happened → Accepted happened item
  order : (items.filter fun item => !moved happened item).Sublist (arrivals happened)

variable {happened : List Happening} {items : List VerseQueuedTurn}

theorem accounted_nil : Accounted [] [] :=
  ⟨List.nodup_nil, fun _ => iff_of_false List.not_mem_nil Bool.false_ne_true, nofun, nofun,
    List.Sublist.slnil⟩

theorem Accepted.grow (accepted : Accepted happened item)
    (more : List Happening) : Accepted (happened ++ more) item :=
  accepted.imp fun _ member => List.mem_append_left more member

theorem waiting_snoc (happening : Happening) (item : VerseQueuedTurn) :
    waiting (happened ++ [happening]) item =
      (happening.waits item).getD (waiting happened item) := by
  unfold waiting
  rw [List.foldl_append]
  rfl

theorem order_snoc (accounted : Accounted happened items) (happening : Happening)
    {left : List VerseQueuedTurn} (stayed : left.Sublist items) :
    (left.filter fun item => !moved (happened ++ [happening]) item).Sublist
      (arrivals (happened ++ [happening])) := by
  have fewer : (left.filter fun item => !moved (happened ++ [happening]) item).Sublist
      (left.filter fun item => !moved happened item) := by
    refine List.monotone_filter_right left fun item => ?_
    unfold moved
    rw [List.any_append, Bool.not_or, Bool.and_eq_true]
    exact And.left
  refine (fewer.trans (stayed.filter _)).trans (accounted.order.trans ?_)
  unfold arrivals
  rw [List.filterMap_append]
  exact List.sublist_append_left _ _

theorem filter_front {happening : Happening}
    (front : moved [happening] item = true) (left : List VerseQueuedTurn) :
    ((item :: left).filter fun item => !moved (happened ++ [happening]) item) =
      left.filter fun item => !moved (happened ++ [happening]) item := by
  refine List.filter_cons_of_neg ?_
  unfold moved at front ⊢
  rw [List.any_append, front, Bool.or_true]
  exact Bool.false_ne_true

section

variable (accounted : Accounted happened items)
include accounted

theorem accounted_accepted {front : Bool} (fresh : item ∉ items) :
    Accounted (happened ++ [.accepted item front])
      (if front then item :: items else items ++ [item]) := by
  have new : Accepted (happened ++ [.accepted item front]) item :=
    ⟨front, List.mem_append_right _ List.mem_cons_self⟩
  have member : ∀ other, other ∈ (if front then item :: items else items ++ [item]) ↔
      other = item ∨ other ∈ items := by
    intro other
    cases front with
    | true => exact List.mem_cons
    | false =>
        rw [if_neg Bool.false_ne_true, List.mem_append, List.mem_singleton]
        exact or_comm
  constructor
  · cases front with
    | true => exact List.nodup_cons.mpr ⟨fresh, accounted.nodup⟩
    | false =>
        refine List.nodup_append.mpr ⟨accounted.nodup, List.nodup_singleton item, ?_⟩
        intro other present last single
        rw [List.mem_singleton.mp single]
        exact fun same => fresh (same ▸ present)
  · intro other
    rw [member, waiting_snoc, Happening.waits]
    by_cases same : item = other
    · simp only [same, true_or, if_pos, Option.getD_some]
    · rw [if_neg same, Option.getD_none, ← accounted.queued]
      exact or_iff_right (Ne.symm same)
  · intro other present
    rcases (member other).mp present with rfl | present
    · exact new
    · exact (accounted.known other present).grow _
  · intro other present
    rcases List.mem_append.mp present with present | present
    · exact (accounted.taken other present).grow _
    · cases List.mem_singleton.mp present
  · cases front with
    | true =>
        have front : moved [.accepted item true] item = true :=
          List.any_eq_true.mpr ⟨_, List.mem_cons_self, decide_eq_true rfl⟩
        rw [if_pos rfl, filter_front front]
        exact order_snoc accounted _ (List.Sublist.refl items)
    | false =>
        rw [if_neg Bool.false_ne_true, List.filter_append]
        unfold arrivals
        rw [List.filterMap_append]
        refine List.Sublist.append ?_ List.filter_sublist
        refine List.Sublist.trans (List.monotone_filter_right items fun other => ?_) accounted.order
        unfold moved
        rw [List.any_append, Bool.not_or, Bool.and_eq_true]
        exact And.left

theorem accounted_erase {happening : Happening} (present : item ∈ items)
    (gone : ∀ other ∈ items, happening.waits other = if other = item then some false else none)
    (never : ∀ other ∉ items, (happening.waits other).getD false = false)
    (known : ∀ other, .taken other = happening → other = item) :
    Accounted (happened ++ [happening]) (items.erase item) := by
  constructor
  · exact accounted.nodup.erase item
  · intro other
    rw [accounted.nodup.mem_erase_iff, waiting_snoc]
    by_cases there : other ∈ items
    · rw [gone other there]
      by_cases same : other = item
      · simp only [same, ne_eq, not_true_eq_false, false_and, if_pos, Option.getD_some,
          Bool.false_eq_true]
      · rw [if_neg same, Option.getD_none, ← accounted.queued]
        exact and_iff_right same
    · have idle : waiting happened other = false :=
        Bool.eq_false_iff.mpr fun waits => there ((accounted.queued other).mpr waits)
      rw [idle, never other there]
      exact iff_of_false (fun both => there both.2) Bool.false_ne_true
  · exact fun other left => (accounted.known other (List.mem_of_mem_erase left)).grow _
  · intro other taken
    rcases List.mem_append.mp taken with taken | taken
    · exact (accounted.taken other taken).grow _
    · rw [known other (List.mem_singleton.mp taken)]
      exact (accounted.known item present).grow _
  · exact order_snoc accounted _ List.erase_sublist

theorem accounted_putBack (away : item ∉ items) (known : Accepted happened item) :
    Accounted (happened ++ [.putBack item ((item :: items).drop verseQueueMax)])
      ((item :: items).take verseQueueMax) := by
  have nodup : (item :: items).Nodup := List.nodup_cons.mpr ⟨away, accounted.nodup⟩
  constructor
  · exact nodup.sublist (List.take_sublist _ _)
  · intro other
    rw [waiting_snoc, Happening.waits]
    by_cases out : other ∈ (item :: items).drop verseQueueMax
    · rw [if_pos out, Option.getD_some]
      exact iff_of_false
        (fun kept => List.disjoint_take_drop nodup (Nat.le_refl _) kept out) Bool.false_ne_true
    · have kept : other ∈ (item :: items).take verseQueueMax ↔ other ∈ item :: items := by
        refine ⟨List.mem_of_mem_take, fun member => ?_⟩
        rw [← List.take_append_drop verseQueueMax (item :: items)] at member
        exact (List.mem_append.mp member).resolve_right out
      rw [if_neg out, kept, List.mem_cons]
      by_cases same : item = other
      · simp only [same, true_or, if_pos, Option.getD_some]
      · rw [if_neg same, Option.getD_none, ← accounted.queued]
        exact or_iff_right (Ne.symm same)
  · intro other member
    rcases List.mem_cons.mp (List.mem_of_mem_take member) with rfl | member
    · exact known.grow _
    · exact (accounted.known other member).grow _
  · intro other taken
    rcases List.mem_append.mp taken with taken | taken
    · exact (accounted.taken other taken).grow _
    · cases List.mem_singleton.mp taken
  · have front : moved [.putBack item ((item :: items).drop verseQueueMax)] item = true :=
      List.any_eq_true.mpr ⟨_, List.mem_cons_self, decide_eq_true rfl⟩
    refine ((List.take_sublist _ _).filter _).trans ?_
    rw [filter_front front]
    exact order_snoc accounted _ (List.Sublist.refl items)

theorem accounted_dropped :
    Accounted (happened ++ [.dropped]) [] := by
  refine ⟨List.nodup_nil, fun other => ?_, nofun, fun other taken => ?_, List.nil_sublist _⟩
  · rw [waiting_snoc]
    exact iff_of_false List.not_mem_nil Bool.false_ne_true
  · rcases List.mem_append.mp taken with taken | taken
    · exact (accounted.taken other taken).grow _
    · cases List.mem_singleton.mp taken

end

structure Issued (drawn : List JsString) (sessionId : JsString) (happened : List Happening) :
    Prop where
  drawn : ∀ item, Accepted happened item → item.id ∈ drawn
  formed : ∀ item, Accepted happened item → Formed sessionId item
  once : ∀ item other, Accepted happened item → Accepted happened other →
    item.id = other.id → item = other

theorem Issued.mono {drawn more : List JsString} {next : List Happening}
    (issued : Issued drawn sessionId happened) (within : drawn ⊆ more)
    (same : ∀ item, Accepted next item → Accepted happened item) : Issued more sessionId next :=
  ⟨fun item accepted => within (issued.drawn item (same item accepted)),
    fun item accepted => issued.formed item (same item accepted),
    fun item other left right => issued.once item other (same item left) (same other right)⟩

theorem accepted_snoc {happening : Happening} :
    Accepted (happened ++ [happening]) item ↔
      Accepted happened item ∨ ∃ front, .accepted item front = happening := by
  unfold Accepted
  rw [← exists_or]
  refine exists_congr fun front => ?_
  rw [List.mem_append, List.mem_singleton]

theorem issued_accepted {drawn fresh : List JsString} {front : Bool}
    (issued : Issued drawn sessionId happened) (formed : Formed sessionId item)
    (id : item.id ∈ fresh) (apart : drawn.Disjoint fresh) :
    Issued (drawn ++ fresh) sessionId (happened ++ [.accepted item front]) := by
  have cases_ : ∀ other, Accepted (happened ++ [.accepted item front]) other →
      Accepted happened other ∨ other = item := by
    intro other accepted
    rcases accepted_snoc.mp accepted with earlier | ⟨_, same⟩
    · exact .inl earlier
    · exact .inr (Happening.accepted.inj same).1
  have differs : ∀ other, Accepted happened other → other.id ≠ item.id :=
    fun other accepted same => apart (issued.drawn other accepted) (same ▸ id)
  constructor
  · intro other accepted
    rcases cases_ other accepted with earlier | rfl
    · exact List.mem_append_left _ (issued.drawn other earlier)
    · exact List.mem_append_right _ id
  · intro other accepted
    rcases cases_ other accepted with earlier | rfl
    · exact issued.formed other earlier
    · exact formed
  · intro left right acceptedLeft acceptedRight same
    rcases cases_ left acceptedLeft with earlierLeft | rfl
    · rcases cases_ right acceptedRight with earlierRight | rfl
      · exact issued.once left right earlierLeft earlierRight same
      · exact absurd same (differs left earlierLeft)
    · rcases cases_ right acceptedRight with earlierRight | rfl
      · exact absurd same.symm (differs right earlierRight)
      · rfl

theorem getD_gone (gone : Prop) [Decidable gone] :
    (if gone then some false else none).getD false = false := by
  split
  · rfl
  · rfl

theorem effect_accounted {drawn fresh : List JsString} {what : Option Happening}
    {left : List VerseQueuedTurn} (accounted : Accounted happened items)
    (issued : Issued drawn sessionId happened) (apart : drawn.Disjoint fresh)
    (restorable : ∀ item out, what = some (.putBack item out) → .taken item ∈ happened)
    (effect : Effect sessionId fresh items what left) :
    Accounted (happened ++ what.toList) left ∧
      Issued (drawn ++ fresh) sessionId (happened ++ what.toList) := by
  have within : drawn ⊆ drawn ++ fresh := List.subset_append_left drawn fresh
  cases effect with
  | same =>
      rw [Option.toList_none, List.append_nil]
      exact ⟨accounted, issued.mono within fun _ => id⟩
  | @accepted item front room formed id =>
      have absent : item ∉ items := fun present =>
        apart (issued.drawn item (accounted.known item present)) id
      exact ⟨accounted_accepted accounted absent, issued_accepted issued formed id apart⟩
  | @removed item present =>
      refine ⟨accounted_erase accounted present ?_ ?_ nofun, issued.mono within ?_⟩
      · intro other there
        have same : other.id = item.id ↔ other = item :=
          ⟨issued.once other item (accounted.known other there) (accounted.known item present),
            congrArg VerseQueuedTurn.id⟩
        simp only [Happening.waits, same]
      · exact fun other _ => getD_gone (other.id = item.id)
      · exact fun other accepted => (accepted_snoc.mp accepted).resolve_right nofun
  | @taken item present =>
      refine ⟨accounted_erase accounted present ?_ ?_ ?_, issued.mono within ?_⟩
      · intro other _
        simp only [Happening.waits, eq_comm]
      · exact fun other _ => getD_gone (item = other)
      · exact fun other same => Happening.taken.inj same
      · exact fun other accepted => (accepted_snoc.mp accepted).resolve_right nofun
  | @putBack item away =>
      have known := accounted.taken item (restorable item _ rfl)
      refine ⟨accounted_putBack accounted (fun present => away item present rfl) known,
        issued.mono within ?_⟩
      exact fun other accepted => (accepted_snoc.mp accepted).resolve_right nofun
  | dropped =>
      refine ⟨accounted_dropped accounted, issued.mono within ?_⟩
      exact fun other accepted => (accepted_snoc.mp accepted).resolve_right nofun

/-! Runs. -/

theorem play_snoc (events : List Event) (event : Event) :
    play (events ++ [event]) = (((play events).1.step event).1,
      (play events).2 ++ [((play events).1.step event).2]) := by
  unfold play
  rw [List.foldl_append]
  rfl

theorem history_snoc (trace : List Entry) (entry : Entry) (sessionId : JsString) :
    history (trace ++ [entry]) sessionId =
      history trace sessionId ++ (entry.happening sessionId).toList := by
  unfold history
  rw [List.filterMap_append, List.filterMap_cons, List.filterMap_nil]
  cases entry.happening sessionId with
  | none => rfl
  | some what => rfl

theorem restorable_snoc {entry : Entry} : {front trace : List Entry} →
    restorable front (trace ++ [entry]) = true →
      restorable front trace = true ∧ entry.restorable (front ++ trace) = true
  | front, [], holds => by
      rw [List.append_nil]
      exact ⟨rfl, (Bool.and_eq_true_iff.mp holds).1⟩
  | front, first :: trace, holds => by
      obtain ⟨here, rest⟩ := Bool.and_eq_true_iff.mp holds
      obtain ⟨before, last⟩ := restorable_snoc rest
      refine ⟨Bool.and_eq_true_iff.mpr ⟨here, before⟩, ?_⟩
      rwa [List.append_assoc] at last

theorem Drawn.snoc {events : List Event} {event : Event} (drawn : Drawn (events ++ [event])) :
    Drawn events ∧ (events.flatMap Event.drawn).Disjoint event.drawn ∧ event.formed = true := by
  obtain ⟨once, formed⟩ := drawn
  rw [List.flatMap_append, List.flatMap_singleton] at once
  rw [List.all_append, Bool.and_eq_true, List.all_cons, List.all_nil, Bool.and_true] at formed
  exact ⟨⟨once.of_append_left, formed.1⟩, List.disjoint_of_nodup_append once, formed.2⟩

/-- What holds after every run. -/
structure Settled (events : List Event) : Prop where
  kept : Kept (play events).1
  accounted : ∀ sessionId, Accounted (history (play events).2 sessionId)
    ((play events).1.load sessionId).items
  issued : ∀ sessionId, Issued (events.flatMap Event.drawn) sessionId
    (history (play events).2 sessionId)

theorem settled_nil : Settled [] := by
  refine ⟨⟨sound_empty, nofun⟩, fun _ => accounted_nil, fun _ => ⟨?_, ?_, ?_⟩⟩
  · rintro item ⟨front, member⟩
    cases member
  · rintro item ⟨front, member⟩
    cases member
  · rintro item other ⟨front, member⟩
    cases member

theorem settled_restart {events : List Event} (settled : Settled events) :
    Settled (events ++ [.restart]) := by
  have same : ∀ sessionId, history (play (events ++ [.restart])).2 sessionId =
      history (play events).2 sessionId := by
    intro sessionId
    rw [play_snoc, history_snoc]
    exact List.append_nil _
  have drawn : (events ++ [Event.restart]).flatMap Event.drawn = events.flatMap Event.drawn := by
    rw [List.flatMap_append]
    exact List.append_nil _
  constructor
  · rw [play_snoc]
    exact ⟨settled.kept.stored, nofun⟩
  · intro sessionId
    rw [same, play_snoc, load_restart settled.kept]
    exact settled.accounted sessionId
  · intro sessionId
    rw [same, drawn]
    exact settled.issued sessionId

theorem happening_putBack {before : List VerseQueuedTurn} {call : Call} {answer : Answer}
    {out : List VerseQueuedTurn}
    (same : happening before call answer = some (.putBack item out)) : call = .restore item := by
  unfold happening at same
  split at same
  case h_4 restored =>
    split at same
    · cases same
    · rw [(Happening.putBack.inj (Option.some.inj same)).1]
  all_goals cases same

theorem settled_call {events : List Event} {session : JsString} {call : Call}
    (settled : Settled events) (drawn : Drawn (events ++ [.call session call]))
    (restored : ((play events).1.step (.call session call)).2.restorable (play events).2 = true) :
    Settled (events ++ [.call session call]) := by
  obtain ⟨_, apart, formed⟩ := drawn.snoc
  have accounted := settled.accounted session
  have issued := settled.issued session
  have taken : ∀ item, call = .restore item →
      .taken item ∈ history (play events).2 session := by
    rintro item rfl
    exact of_decide_eq_true restored
  have promised : call.Formed session := by
    cases call with
    | enqueue text front randomId fallbackId now => exact formed
    | restore item => exact issued.formed item (accounted.taken item (taken item rfl))
    | _ => trivial
  obtain ⟨items, reached, effect⟩ := settled.kept.call promised
  have next := effect_accounted accounted issued apart
    (fun item out same => taken item (happening_putBack same)) effect
  have happened : ∀ sessionId, history (play (events ++ [.call session call])).2 sessionId =
      history (play events).2 sessionId ++ (if session = sessionId then
        happening ((play events).1.load session).items call ((play events).1.call session call).2
        else none).toList := by
    intro sessionId
    rw [play_snoc, history_snoc]
    rfl
  have ids : (events ++ [Event.call session call]).flatMap Event.drawn =
      events.flatMap Event.drawn ++ (Event.call session call).drawn := by
    rw [List.flatMap_append, List.flatMap_singleton]
  constructor
  · rw [play_snoc]
    exact reached.kept
  · intro sessionId
    rw [happened]
    by_cases here : session = sessionId
    · obtain rfl := here
      rw [if_pos rfl, play_snoc]
      exact reached.items ▸ next.1
    · rw [if_neg here, play_snoc, Option.toList_none, List.append_nil]
      exact reached.others sessionId (Ne.symm here) ▸ settled.accounted sessionId
  · intro sessionId
    rw [happened, ids]
    by_cases here : session = sessionId
    · obtain rfl := here
      rw [if_pos rfl]
      exact next.2
    · rw [if_neg here, Option.toList_none, List.append_nil]
      exact (settled.issued sessionId).mono (List.subset_append_left _ _) fun _ => id

theorem settled (events : List Event) (drawn : Drawn events)
    (restored : restorable [] (play events).2 = true) : Settled events := by
  induction events using List.reverseRecOn with
  | nil => exact settled_nil
  | append_singleton events event ih =>
      rw [play_snoc] at restored
      obtain ⟨before, last⟩ := restorable_snoc restored
      have earlier := ih drawn.snoc.1 before
      cases event with
      | restart => exact settled_restart earlier
      | call session call => exact settled_call earlier drawn last

/-- Accepted texts wait once each, in order, under the cap, across restarts. -/
theorem queue_keeps (events : List Event) (drawn : Drawn events)
    (restored : restorable [] (play events).2 = true) (sessionId : JsString) :
    (∀ item, ((play events).1.load sessionId).items.count item =
      if waiting (history (play events).2 sessionId) item then 1 else 0) ∧
    ((play events).1.load sessionId).items.length ≤ verseQueueMax ∧
    (((play events).1.load sessionId).items.filter fun item =>
      !moved (history (play events).2 sessionId) item).Sublist
        (arrivals (history (play events).2 sessionId)) ∧
    (((play events).1.step .restart).1.load sessionId).items =
      ((play events).1.load sessionId).items ∧
    (((play events).1.step .restart).1.load sessionId).held =
      ((play events).1.load sessionId).held ∧
    (∀ text front randomId fallbackId now item,
      ((play events).1.call sessionId (.enqueue text front randomId fallbackId now)).2 =
        .queued item → item.text = text ∧ item.sessionId = sessionId) ∧
    ∀ queueId, ((play events).1.call sessionId .takeSendNow).2 = .sendNow (some queueId) →
      ∃ item ∈ ((play events).1.load sessionId).items, item.id = queueId := by
  obtain ⟨kept, accounted, _⟩ := settled events drawn restored
  have here := accounted sessionId
  have reload := load_restart kept sessionId
  refine ⟨fun item => ?_, (kept.load sessionId).1.cap, here.order,
    (congrArg QueueState.items reload).trans rfl, (congrArg QueueState.held reload).trans rfl,
    ?_, ?_⟩
  · by_cases present : item ∈ ((play events).1.load sessionId).items
    · rw [List.count_eq_one_of_mem here.nodup present, if_pos ((here.queued item).mp present)]
    · rw [List.count_eq_zero_of_not_mem present,
        if_neg fun waits => present ((here.queued item).mpr waits)]
  · intro text front randomId fallbackId now item answer
    exact enqueue_text answer
  · intro queueId answer
    obtain ⟨marked, found⟩ := Option.filter_eq_some_iff.mp (Answer.sendNow.inj answer)
    obtain ⟨item, found⟩ := Option.isSome_iff_exists.mp found
    exact ⟨item, find?_some found⟩

/-- The user types while an item is out of the full queue, and then it comes back. -/
def racedRestore : List Event :=
  [.call (js "s") (.enqueue (js "a") false (js "00000000000a") (js "f0000000000a") (js "1")),
    .call (js "s") (.enqueue (js "b") false (js "00000000000b") (js "f0000000000b") (js "2")),
    .call (js "s") (.enqueue (js "c") false (js "00000000000c") (js "f0000000000c") (js "3")),
    .call (js "s") (.take none),
    .call (js "s") (.enqueue (js "d") false (js "00000000000d") (js "f0000000000d") (js "4")),
    .call (js "s") (.restore ⟨js "00000000000a", js "s", js "a", js "1"⟩)]

theorem racedRestore_drawn : Drawn racedRestore :=
  ⟨by decide, by decide⟩

theorem queue_keeps_racedRestore :
    (∀ item, ((play racedRestore).1.load (js "s")).items.count item =
      if waiting (history (play racedRestore).2 (js "s")) item then 1 else 0) ∧
    ((play racedRestore).1.load (js "s")).items.length ≤ verseQueueMax ∧
    (((play racedRestore).1.load (js "s")).items.filter fun item =>
      !moved (history (play racedRestore).2 (js "s")) item).Sublist
        (arrivals (history (play racedRestore).2 (js "s"))) ∧
    (((play racedRestore).1.step .restart).1.load (js "s")).items =
      ((play racedRestore).1.load (js "s")).items ∧
    ∀ item, ((play racedRestore).1.call (js "s") (.enqueue (js "e") false (js "00000000000e")
      (js "f0000000000e") (js "5"))).2 = .queued item → item.text = js "e" := by
  obtain ⟨once, cap, order, restarts, -, texts, -⟩ :=
    queue_keeps racedRestore racedRestore_drawn (by decide) (js "s")
  exact ⟨once, cap, order, restarts, fun item answer => (texts _ _ _ _ _ item answer).1⟩

/-- An accepted text that nobody removed, took or dropped is pushed out. -/
theorem racedRestore_displaces : Drawn racedRestore ∧
    restorable [] (play racedRestore).2 = true ∧ ∃ item : VerseQueuedTurn,
    .accepted item false ∈ history (play racedRestore).2 (js "s") ∧
    .removed item.id ∉ history (play racedRestore).2 (js "s") ∧
    .taken item ∉ history (play racedRestore).2 (js "s") ∧
    .dropped ∉ history (play racedRestore).2 (js "s") ∧
    item ∉ ((play racedRestore).1.load (js "s")).items := by
  refine ⟨racedRestore_drawn, by decide, ⟨js "00000000000d", js "s", js "d", js "4"⟩, ?_⟩
  decide

end AshlrHub.TurnQueue
