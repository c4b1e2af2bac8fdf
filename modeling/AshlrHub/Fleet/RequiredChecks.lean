import AshlrHub.Authority.Clamp
import AshlrHub.Lib.Sorting

namespace AshlrHub.MergeGates

open Js Authority

/-! Gate G7: the checks that GitHub reports on the head of a pull request. -/

inductive GateVerdict where
  | pass
  | refuse
  | ownerLane
  | wait
deriving DecidableEq

structure GateEvaluation (Inputs : Type) where
  verdict : GateVerdict
  code : JsString
  reason : JsString
  inputs : Inputs
  nextEligibleAt : Option JsString
deriving DecidableEq

def maxReasonChars : ℕ := 400

def clampReason (scrubSecrets : JsString → JsString) (reason : JsString) : JsString :=
  let scrubbed := trim (collapseSpace false (scrubSecrets reason))
  if scrubbed.length ≤ maxReasonChars then scrubbed
  else scrubbed.take (maxReasonChars - 1) ++ js "…"

def evaluation {Inputs : Type} (scrubSecrets : JsString → JsString) (verdict : GateVerdict)
    (code reason : JsString) (inputs : Inputs) : GateEvaluation Inputs :=
  ⟨verdict, code, clampReason scrubSecrets reason, inputs, none⟩

inductive RepoEnforcement where
  | server
  | localOnly
deriving DecidableEq

/-- The id of a GitHub App: the readers of GitHub's answers make it of a whole number. -/
structure AppId where
  text : JsString
  named : text ≠ []
  unbroken : (0 : CodeUnit) ∉ text
deriving DecidableEq

/-- `appId ?? fallback` -/
def appText (fallback : JsString) : Option AppId → JsString
  | none => fallback
  | some appId => appId.text

structure RequiredCheck where
  context : JsString
  /-- The App that the check must come from; any source where it is `none`. -/
  appId : Option AppId

structure CheckRunObservation where
  id : ℤ
  name : JsString
  appId : Option AppId
  status : JsString
  conclusion : Option JsString
deriving DecidableEq

structure StatusObservation where
  context : JsString
  state : JsString

structure G7ChecksInput where
  enforcement : RepoEnforcement
  /-- What the server requires; `none` where it could not be read. -/
  required : Option (List RequiredCheck)
  runs : Option (List CheckRunObservation)
  statuses : Option (List StatusObservation)
  pendingSinceMs : ℤ
  nowMs : ℤ
  /-- The App of the fleet's own `ashlr/verify` run. -/
  fleetAppId : Option AppId
  rulesetsUnavailable : Bool

inductive CheckState where
  | green
  | red
  | pending
deriving DecidableEq

def CheckState.text : CheckState → JsString
  | .green => js "green"
  | .red => js "red"
  | .pending => js "pending"

def okConclusions : List JsString := [js "success", js "neutral", js "skipped"]

def redConclusions : List JsString :=
  [js "failure", js "timed_out", js "action_required", js "startup_failure"]

def runState (run : CheckRunObservation) : CheckState :=
  if run.status ≠ js "completed" then .pending
  else match run.conclusion with
    | none => .pending
    | some conclusion =>
        if conclusion ∈ okConclusions then .green
        else if conclusion ∈ redConclusions then .red
        -- cancelled or stale: superseded, and proof of nothing
        else .pending

def statusState (status : StatusObservation) : CheckState :=
  if status.state = js "success" then .green
  else if status.state = js "failure" ∨ status.state = js "error" then .red
  else .pending

def runKey (run : CheckRunObservation) : JsString :=
  run.name ++ 0 :: appText [] run.appId

def noteRun (latest : JsMap JsString CheckRunObservation) (run : CheckRunObservation) :
    JsMap JsString CheckRunObservation :=
  match latest.get? (runKey run) with
  | none => latest.set (runKey run) run
  | some prior => if prior.id < run.id then latest.set (runKey run) run else latest

def latestRuns (runs : List CheckRunObservation) : List CheckRunObservation :=
  (runs.foldl noteRun []).map Prod.snd

structure NamedState where
  name : JsString
  state : CheckState

def RequiredCheck.accepts (check : RequiredCheck) (run : CheckRunObservation) : Bool :=
  run.name = check.context && (check.appId.isNone || run.appId = check.appId)

def observedStates (latest : List CheckRunObservation) (statuses : List StatusObservation)
    (check : RequiredCheck) : List CheckState :=
  (latest.filter check.accepts).map runState ++
    (if check.appId.isNone then statuses.filter fun status => status.context = check.context
      else []).map statusState

def joinedState (observed : List CheckState) : CheckState :=
  if observed = [] then .pending
  else if .red ∈ observed then .red
  else if ∀ state ∈ observed, state = .green then .green
  else .pending

def ashlrVerifyCheckName : JsString := js "ashlr/verify"

/-- The facts that a verdict rests on: those of them that it names. -/
structure G7Inputs where
  enforcement : Option RepoEnforcement
  required : Option (List JsString)
  states : Option (List JsString)
  rulesets : Option JsString
deriving DecidableEq

inductive ChecksState where
  | green
  | red
  | pending
  | none
deriving DecidableEq

structure ChecksEvaluation extends GateEvaluation G7Inputs where
  state : ChecksState
deriving DecidableEq

def sortedTexts (texts : List JsString) : List JsString :=
  texts.insertionSort (· ≤ ·)

def stateTexts (states : List NamedState) : List JsString :=
  sortedTexts (states.map fun named => named.name ++ js ":" ++ named.state.text)

def firstNames (states : List NamedState) : JsString :=
  (js ", ").intercalate ((states.map NamedState.name).take 5)

def checksMaxPendingMs : ℤ := 24 * 60 * 60 * 1000

section

variable (scrubSecrets : JsString → JsString)

def concludeChecks (input : G7ChecksInput) (required : List JsString)
    (states : List NamedState) : ChecksEvaluation :=
  let inputs := G7Inputs.mk (some input.enforcement) (some required) (some (stateTexts states)) none
  let red := states.filter fun named => named.state = .red
  let pending := states.filter fun named => named.state = .pending
  if red ≠ [] then
    ⟨evaluation scrubSecrets .refuse (js "required-check-failed")
      (js "check(s) failed on the PR head: " ++ firstNames red) inputs, .red⟩
  else if pending ≠ [] then
    if checksMaxPendingMs < input.nowMs - input.pendingSinceMs then
      ⟨evaluation scrubSecrets .refuse (js "checks-timeout")
        (js "check(s) still pending after 24 h: " ++ firstNames pending) inputs, .red⟩
    else
      ⟨evaluation scrubSecrets .wait (js "checks-pending")
        (js "waiting on " ++ firstNames pending) inputs, .pending⟩
  else
    ⟨evaluation scrubSecrets .pass (js "checks-green")
      (match input.enforcement with
        | .server => js "every required check is green on the head SHA"
        | .localOnly => js "every check is green on the head SHA, including the App's " ++
            js "host-verified " ++ ashlrVerifyCheckName) inputs, .green⟩

def serverStates (required : List RequiredCheck) (latest : List CheckRunObservation)
    (statuses : List StatusObservation) : List NamedState :=
  required.map fun check => ⟨check.context, joinedState (observedStates latest statuses check)⟩

def evaluateServerChecks (input : G7ChecksInput) (required : List RequiredCheck)
    (latest : List CheckRunObservation) (statuses : List StatusObservation) : ChecksEvaluation :=
  if required = [] ∧ input.rulesetsUnavailable then
    ⟨evaluation scrubSecrets .ownerLane (js "server-enforcement-unavailable")
      (js "the grant says server enforcement, but GitHub rulesets are unavailable on this " ++
        js "plan for this private repo, so nothing server-side can prove this PR green; it " ++
        js "goes to the owner lane — re-approve the grant to switch the repo to local " ++
        js "enforcement (the App's host-verified " ++ ashlrVerifyCheckName ++ js ")")
      ⟨some .server, some [], none, some (js "unavailable")⟩, .none⟩
  else if required = [] then
    ⟨evaluation scrubSecrets .ownerLane (js "no-required-checks")
      (js "the default branch has no required checks, so GitHub cannot prove this PR green; " ++
        js "it goes to the owner lane") ⟨some .server, some [], none, none⟩, .none⟩
  else
    concludeChecks scrubSecrets input
      (sortedTexts (required.map fun check =>
        check.context ++ js "@" ++ appText (js "*") check.appId))
      (serverStates required latest statuses)

def observedNames (latest : List CheckRunObservation) (statuses : List StatusObservation) :
    List NamedState :=
  latest.map (fun run => ⟨run.name, runState run⟩) ++
    statuses.map fun status => ⟨status.context, statusState status⟩

def isFleetVerify (fleetAppId : AppId) (run : CheckRunObservation) : Bool :=
  run.name = ashlrVerifyCheckName && run.appId = some fleetAppId

def localStates (fleetAppId : AppId) (latest : List CheckRunObservation)
    (statuses : List StatusObservation) : List NamedState :=
  observedNames latest statuses ++
    -- posted but not listed yet
    if latest.any (isFleetVerify fleetAppId) then []
    else [⟨ashlrVerifyCheckName, .pending⟩]

def evaluateLocalChecks (input : G7ChecksInput) (latest : List CheckRunObservation)
    (statuses : List StatusObservation) : ChecksEvaluation :=
  match input.fleetAppId with
  | none =>
      if observedNames latest statuses = [] then
        ⟨evaluation scrubSecrets .ownerLane (js "no-checks")
          (js "this local-enforcement repo reported no CI on the PR head; with nothing to " ++
            js "prove it green it goes to the owner lane")
          ⟨some .localOnly, some [], none, none⟩, .none⟩
      else
        ⟨evaluation scrubSecrets .ownerLane (js "no-verify-check")
          (js "this local-enforcement repo has no host-verified " ++ ashlrVerifyCheckName ++
            js " check from the ashlr-fleet App on the PR head (other green checks, e.g. a " ++
            js "deploy preview, prove no tests ran); it goes to the owner lane")
          ⟨some .localOnly, some [ashlrVerifyCheckName ++ js "@fleet-app"],
            some (stateTexts (observedNames latest statuses)), none⟩, .none⟩
  | some fleetAppId =>
      concludeChecks scrubSecrets input [ashlrVerifyCheckName ++ js "@" ++ fleetAppId.text]
        (localStates fleetAppId latest statuses)

def evaluateG7Checks (input : G7ChecksInput) : ChecksEvaluation :=
  match input.required, input.runs, input.statuses with
  | some required, some runs, some statuses =>
      match input.enforcement with
      | .server => evaluateServerChecks scrubSecrets input required (latestRuns runs) statuses
      | .localOnly => evaluateLocalChecks scrubSecrets input (latestRuns runs) statuses
  | _, _, _ =>
      ⟨evaluation scrubSecrets .wait (js "checks-unreadable")
        (js "required checks could not be read from GitHub") ⟨none, none, none, none⟩, .pending⟩

end

/-! The latest run of a name and an App. -/

def SameCheck (first second : CheckRunObservation) : Prop :=
  first.name = second.name ∧ first.appId = second.appId

/-- The run that stands for its name and App: the first of those with the highest id. -/
def Latest (runs : List CheckRunObservation) (run : CheckRunObservation) : Prop :=
  ∃ index, runs[index]? = some run ∧
    ∀ (other : ℕ) (rival : CheckRunObservation), runs[other]? = some rival →
      SameCheck rival run → rival.id ≤ run.id ∧ (rival.id = run.id → index ≤ other)

theorem appText_unbroken (appId : Option AppId) : (0 : CodeUnit) ∉ appText [] appId := by
  cases appId with
  | none => exact List.not_mem_nil
  | some appId => exact appId.unbroken

theorem appText_inj {first second : Option AppId} (same : appText [] first = appText [] second) :
    first = second := by
  cases first with
  | none =>
      cases second with
      | none => rfl
      | some second => exact absurd same.symm second.named
  | some first =>
      cases second with
      | none => exact absurd same first.named
      | some second =>
          cases first
          cases second
          simp only [appText] at same
          subst same
          rfl

theorem append_separator_inj {first second back other : JsString} {mark : CodeUnit}
    (backClear : mark ∉ back) (otherClear : mark ∉ other)
    (same : first ++ mark :: back = second ++ mark :: other) : first = second ∧ back = other := by
  rcases List.append_eq_append_iff.mp same with ⟨middle, whole, rest⟩ | ⟨middle, whole, rest⟩
  · cases middle with
    | nil =>
        rw [List.append_nil] at whole
        exact ⟨whole.symm, (List.cons.inj rest).2⟩
    | cons unit units =>
        refine absurd ?_ backClear
        rw [(List.cons.inj rest).2]
        exact List.mem_append_right _ List.mem_cons_self
  · cases middle with
    | nil =>
        rw [List.append_nil] at whole
        exact ⟨whole, (List.cons.inj rest).2.symm⟩
    | cons unit units =>
        refine absurd ?_ otherClear
        rw [(List.cons.inj rest).2]
        exact List.mem_append_right _ List.mem_cons_self

theorem runKey_eq_iff {first second : CheckRunObservation} :
    runKey first = runKey second ↔ SameCheck first second := by
  constructor
  · intro same
    obtain ⟨names, apps⟩ := append_separator_inj (appText_unbroken _) (appText_unbroken _) same
    exact ⟨names, appText_inj apps⟩
  · rintro ⟨names, apps⟩
    unfold runKey
    rw [names, apps]

variable {runs : List CheckRunObservation} {run : CheckRunObservation}

theorem Latest.mem (latest : Latest runs run) : run ∈ runs := by
  obtain ⟨index, at_, _⟩ := latest
  exact List.mem_of_getElem? at_

variable {other : CheckRunObservation}

theorem Latest.le (latest : Latest runs run) (member : other ∈ runs) (same : SameCheck other run) :
    other.id ≤ run.id := by
  obtain ⟨index, _, highest⟩ := latest
  obtain ⟨place, found⟩ := List.mem_iff_getElem?.mp member
  exact (highest place other found same).1

theorem Latest.unique {first second : CheckRunObservation} (isFirst : Latest runs first)
    (isSecond : Latest runs second) (same : SameCheck first second) : first = second := by
  obtain ⟨index, found, highest⟩ := isFirst
  obtain ⟨place, met, above⟩ := isSecond
  have back : SameCheck second first := ⟨same.1.symm, same.2.symm⟩
  obtain ⟨le, early⟩ := highest place second met back
  obtain ⟨ge, late⟩ := above index first found same
  have ids : second.id = first.id := le_antisymm le ge
  have places : index = place := le_antisymm (early ids) (late ids.symm)
  rw [places, met] at found
  exact (Option.some.inj found).symm

theorem Latest.snoc (latest : Latest runs run) (below : SameCheck other run → other.id ≤ run.id) :
    Latest (runs ++ [other]) run := by
  obtain ⟨index, found, highest⟩ := latest
  have inside : index < runs.length := (List.getElem?_eq_some_iff.mp found).1
  refine ⟨index, by rw [List.getElem?_append_left inside, found], fun place rival at_ same => ?_⟩
  rcases lt_or_ge place runs.length with early | late
  · rw [List.getElem?_append_left early] at at_
    exact highest place rival at_ same
  · rw [List.getElem?_append_right late, List.getElem?_singleton] at at_
    split at at_
    · obtain rfl := Option.some.inj at_
      exact ⟨below same, fun _ => by omega⟩
    · exact absurd at_ (by simp)

theorem latest_last (above : ∀ other ∈ runs, SameCheck other run → other.id < run.id) :
    Latest (runs ++ [run]) run := by
  refine ⟨runs.length, by simp, fun place rival at_ same => ?_⟩
  rcases lt_or_ge place runs.length with early | late
  · rw [List.getElem?_append_left early] at at_
    have less := above rival (List.mem_of_getElem? at_) same
    exact ⟨le_of_lt less, fun ids => absurd ids (by omega)⟩
  · rw [List.getElem?_append_right late, List.getElem?_singleton] at at_
    split at at_
    · obtain rfl := Option.some.inj at_
      exact ⟨le_refl _, fun _ => late⟩
    · exact absurd at_ (by simp)

structure Holds (map : JsMap JsString CheckRunObservation) (runs : List CheckRunObservation) :
    Prop where
  once : map.keys.Nodup
  latest : ∀ key run, map.get? key = some run → runKey run = key ∧ Latest runs run
  held : ∀ run ∈ runs, ∃ kept, map.get? (runKey run) = some kept

variable {map : JsMap JsString CheckRunObservation}

theorem Holds.below (holds : Holds map runs) {kept : CheckRunObservation}
    (found : map.get? (runKey run) = some kept) (member : other ∈ runs)
    (same : SameCheck other run) : other.id ≤ kept.id := by
  obtain ⟨key, latest⟩ := holds.latest _ _ found
  have alike := runKey_eq_iff.mp key
  exact latest.le member ⟨same.1.trans alike.1.symm, same.2.trans alike.2.symm⟩

theorem Holds.put (holds : Holds map runs)
    (above : ∀ other ∈ runs, SameCheck other run → other.id < run.id) :
    Holds (map.set (runKey run) run) (runs ++ [run]) where
  once := JsMap.nodup_keys_set _ _ holds.once
  latest key other found := by
    rw [JsMap.get?_set] at found
    split at found
    case isTrue here =>
      obtain rfl := Option.some.inj found
      exact ⟨here.symm, latest_last above⟩
    case isFalse away =>
      obtain ⟨keyed, latest⟩ := holds.latest key other found
      refine ⟨keyed, latest.snoc fun same => absurd ?_ away⟩
      rw [← keyed, runKey_eq_iff.mpr same]
  held other member := by
    rw [JsMap.get?_set]
    split
    · exact ⟨run, rfl⟩
    case isFalse away =>
      rcases List.mem_append.mp member with before | last
      · exact holds.held other before
      · exact absurd (congrArg runKey (List.mem_singleton.mp last)) away

theorem Holds.note (holds : Holds map runs) (run : CheckRunObservation) :
    Holds (noteRun map run) (runs ++ [run]) := by
  unfold noteRun
  cases found : map.get? (runKey run) with
  | none =>
      refine holds.put fun other member same => ?_
      obtain ⟨kept, held⟩ := holds.held other member
      rw [runKey_eq_iff.mpr same, found] at held
      exact absurd held (by simp)
  | some prior =>
      dsimp only
      split
      case isTrue newer =>
        refine holds.put fun other member same => ?_
        exact lt_of_le_of_lt (holds.below found member same) newer
      case isFalse older =>
        refine ⟨holds.once, fun key other held => ?_, fun other member => ?_⟩
        · obtain ⟨keyed, latest⟩ := holds.latest key other held
          refine ⟨keyed, latest.snoc fun same => ?_⟩
          rw [← keyed, ← runKey_eq_iff.mpr same, found] at held
          obtain rfl := Option.some.inj held
          omega
        · rcases List.mem_append.mp member with before | last
          · exact holds.held other before
          · obtain rfl := List.mem_singleton.mp last
            exact ⟨prior, found⟩

theorem holds_latest (runs : List CheckRunObservation) : Holds (runs.foldl noteRun []) runs := by
  induction runs using List.reverseRecOn with
  | nil => exact ⟨List.nodup_nil, nofun, nofun⟩
  | append_singleton runs run hypothesis =>
      rw [List.foldl_append]
      exact hypothesis.note run

theorem mem_latestRuns :
    run ∈ latestRuns runs ↔ Latest runs run := by
  have holds := holds_latest runs
  unfold latestRuns
  constructor
  · intro member
    obtain ⟨⟨key, kept⟩, listed, rfl⟩ := List.mem_map.mp member
    exact (holds.latest key _ (JsMap.get?_of_mem holds.once listed)).2
  · intro latest
    obtain ⟨kept, found⟩ := holds.held run latest.mem
    obtain ⟨keyed, isKept⟩ := holds.latest _ _ found
    obtain rfl := isKept.unique latest (runKey_eq_iff.mp keyed)
    exact List.mem_map.mpr ⟨_, JsMap.mem_of_get? found, rfl⟩

theorem nodup_latestRuns (runs : List CheckRunObservation) : (latestRuns runs).Nodup := by
  have holds := holds_latest runs
  have keyed : (latestRuns runs).map runKey = (runs.foldl noteRun []).keys := by
    unfold latestRuns JsMap.keys
    rw [List.map_map]
    refine List.map_congr_left fun entry member => ?_
    exact (holds.latest _ _ (JsMap.get?_of_mem holds.once member)).1
  refine List.Nodup.of_map runKey ?_
  rw [keyed]
  exact holds.once

theorem latest_iff_highest (distinct : (runs.map CheckRunObservation.id).Nodup) :
    Latest runs run ↔ run ∈ runs ∧ ∀ other ∈ runs, SameCheck other run → other.id ≤ run.id := by
  constructor
  · exact fun latest => ⟨latest.mem, fun _ member same => latest.le member same⟩
  · rintro ⟨member, highest⟩
    obtain ⟨index, found⟩ := List.mem_iff_getElem?.mp member
    refine ⟨index, found, fun place rival met same => ⟨?_, fun ids => ?_⟩⟩
    · exact highest rival (List.mem_of_getElem? met) same
    · have inside : index < runs.length := (List.getElem?_eq_some_iff.mp found).1
      refine le_of_eq ((List.getElem?_inj (by rwa [List.length_map]) distinct).mp ?_)
      rw [List.getElem?_map, List.getElem?_map, found, met]
      exact congrArg some ids.symm

theorem latestRuns_perm {others : List CheckRunObservation} (perm : runs.Perm others)
    (distinct : (runs.map CheckRunObservation.id).Nodup) :
    (latestRuns runs).Perm (latestRuns others) := by
  refine (List.perm_ext_iff_of_nodup (nodup_latestRuns _) (nodup_latestRuns _)).mpr fun run => ?_
  rw [mem_latestRuns, mem_latestRuns, latest_iff_highest distinct,
    latest_iff_highest ((perm.map _).nodup_iff.mp distinct), perm.mem_iff]
  refine and_congr_right fun _ => forall_congr' fun other => ?_
  rw [perm.mem_iff]

/-! What a passing gate rests on. -/

inductive Counts (runs : List CheckRunObservation) (statuses : List StatusObservation)
    (check : RequiredCheck) : CheckState → Prop where
  | run {run : CheckRunObservation} (latest : Latest runs run) (named : run.name = check.context)
      (source : check.appId = none ∨ run.appId = check.appId) :
      Counts runs statuses check (runState run)
  | status {status : StatusObservation} (anySource : check.appId = none)
      (member : status ∈ statuses) (named : status.context = check.context) :
      Counts runs statuses check (statusState status)

structure ServerGreen (required : List RequiredCheck) (runs : List CheckRunObservation)
    (statuses : List StatusObservation) : Prop where
  something : required ≠ []
  observed : ∀ check ∈ required, ∃ state, Counts runs statuses check state
  green : ∀ check ∈ required, ∀ state, Counts runs statuses check state → state = .green

structure LocalGreen (fleetAppId : Option AppId) (runs : List CheckRunObservation)
    (statuses : List StatusObservation) : Prop where
  runsGreen : ∀ run, Latest runs run → runState run = .green
  statusesGreen : ∀ status ∈ statuses, statusState status = .green
  verified : ∃ appId run, fleetAppId = some appId ∧ Latest runs run ∧
    run.name = ashlrVerifyCheckName ∧ run.appId = some appId

/-- Everything could be read, and it proves the head green. -/
def ProvenGreen (input : G7ChecksInput) : Prop :=
  ∃ required runs statuses, input.required = some required ∧ input.runs = some runs ∧
    input.statuses = some statuses ∧
    (input.enforcement = .server → ServerGreen required runs statuses) ∧
    (input.enforcement = .localOnly → LocalGreen input.fleetAppId runs statuses)

theorem accepts_iff {check : RequiredCheck} :
    check.accepts run = true ↔
      run.name = check.context ∧ (check.appId = none ∨ run.appId = check.appId) := by
  unfold RequiredCheck.accepts
  rw [Bool.and_eq_true, decide_eq_true_eq, Bool.or_eq_true, Option.isNone_iff_eq_none,
    decide_eq_true_eq]

variable {statuses : List StatusObservation}

theorem mem_observedStates {check : RequiredCheck} {state : CheckState} :
    state ∈ observedStates (latestRuns runs) statuses check ↔ Counts runs statuses check state := by
  unfold observedStates
  rw [List.mem_append, List.mem_map, List.mem_map]
  constructor
  · rintro (⟨run, member, rfl⟩ | ⟨status, member, rfl⟩)
    · obtain ⟨latest, accepted⟩ := List.mem_filter.mp member
      obtain ⟨named, source⟩ := accepts_iff.mp accepted
      exact .run (mem_latestRuns.mp latest) named source
    · split at member
      case isTrue anySource =>
        obtain ⟨listed, named⟩ := List.mem_filter.mp member
        exact .status (Option.isNone_iff_eq_none.mp anySource) listed (of_decide_eq_true named)
      case isFalse => exact absurd member List.not_mem_nil
  · intro counts
    cases counts with
    | run latest named source =>
        refine .inl ⟨_, List.mem_filter.mpr ⟨mem_latestRuns.mpr latest, ?_⟩, rfl⟩
        exact accepts_iff.mpr ⟨named, source⟩
    | status anySource member named =>
        refine .inr ⟨_, ?_, rfl⟩
        rw [if_pos (Option.isNone_iff_eq_none.mpr anySource)]
        exact List.mem_filter.mpr ⟨member, decide_eq_true named⟩

theorem joinedState_eq_green {observed : List CheckState} :
    joinedState observed = .green ↔ observed ≠ [] ∧ ∀ state ∈ observed, state = .green := by
  unfold joinedState
  by_cases empty : observed = []
  · rw [if_pos empty]
    exact ⟨fun wrong => (nomatch wrong), fun both => absurd empty both.1⟩
  rw [if_neg empty]
  by_cases red : .red ∈ observed
  · rw [if_pos red]
    exact ⟨fun wrong => (nomatch wrong), fun both => (nomatch both.2 _ red)⟩
  rw [if_neg red]
  split
  case isTrue all => exact ⟨fun _ => ⟨empty, all⟩, fun _ => rfl⟩
  case isFalse notAll => exact ⟨fun wrong => (nomatch wrong), fun both => absurd both.2 notAll⟩

section

variable {scrubSecrets : JsString → JsString}

variable {input : G7ChecksInput}

theorem concludeChecks_pass {required : List JsString} {states : List NamedState} :
    (concludeChecks scrubSecrets input required states).verdict = .pass ↔
      ∀ named ∈ states, named.state = .green := by
  have clear : ∀ {state : CheckState}, states.filter (fun named => named.state = state) = [] ↔
      ∀ named ∈ states, named.state ≠ state := by
    intro state
    rw [List.filter_eq_nil_iff]
    exact forall₂_congr fun _ _ => by rw [decide_eq_true_eq]
  unfold concludeChecks
  dsimp only
  split
  case isTrue red =>
    refine ⟨fun wrong => (nomatch wrong), fun green => absurd ?_ red⟩
    exact clear.mpr fun named member => by rw [green named member]; decide
  case isFalse noRed =>
    split
    case isTrue pending =>
      have notGreen : ¬∀ named ∈ states, named.state = .green := by
        refine fun green => pending ?_
        exact clear.mpr fun named member => by rw [green named member]; decide
      split
      · exact ⟨fun wrong => (nomatch wrong), fun green => absurd green notGreen⟩
      · exact ⟨fun wrong => (nomatch wrong), fun green => absurd green notGreen⟩
    case isFalse noPending =>
      refine ⟨fun _ named member => ?_, fun _ => rfl⟩
      have notRed := clear.mp (not_not.mp noRed) named member
      have notPending := clear.mp (not_not.mp noPending) named member
      cases state : named.state with
      | green => rfl
      | red => exact absurd state notRed
      | pending => exact absurd state notPending

variable {required : List RequiredCheck}

theorem evaluateServerChecks_pass :
    (evaluateServerChecks scrubSecrets input required (latestRuns runs) statuses).verdict = .pass ↔
      ServerGreen required runs statuses := by
  unfold evaluateServerChecks
  split
  case isTrue none =>
    exact ⟨fun wrong => (nomatch wrong), fun green => absurd none.1 green.something⟩
  case isFalse =>
    split
    case isTrue none =>
      exact ⟨fun wrong => (nomatch wrong), fun green => absurd none green.something⟩
    case isFalse something =>
      rw [concludeChecks_pass]
      unfold serverStates
      rw [List.forall_mem_map]
      simp only [joinedState_eq_green]
      constructor
      · refine fun all => ⟨something, fun check member => ?_, fun check member state counts => ?_⟩
        · obtain ⟨state, seen⟩ := List.exists_mem_of_ne_nil _ (all check member).1
          exact ⟨state, mem_observedStates.mp seen⟩
        · exact (all check member).2 state (mem_observedStates.mpr counts)
      · refine fun green check member => ⟨?_, fun state seen => ?_⟩
        · obtain ⟨state, counts⟩ := green.observed check member
          exact List.ne_nil_of_mem (mem_observedStates.mpr counts)
        · exact green.green check member state (mem_observedStates.mp seen)

theorem isFleetVerify_iff {appId : AppId} :
    isFleetVerify appId run = true ↔ run.name = ashlrVerifyCheckName ∧ run.appId = some appId := by
  unfold isFleetVerify
  rw [Bool.and_eq_true, decide_eq_true_eq, decide_eq_true_eq]

theorem localStates_green {appId : AppId} :
    (∀ named ∈ localStates appId (latestRuns runs) statuses, named.state = .green) ↔
      LocalGreen (some appId) runs statuses := by
  unfold localStates observedNames
  simp only [List.forall_mem_append, List.forall_mem_map, mem_latestRuns]
  constructor
  · rintro ⟨⟨runsGreen, statusesGreen⟩, posted⟩
    refine ⟨runsGreen, statusesGreen, ?_⟩
    split at posted
    case isTrue listed =>
      obtain ⟨run, member, isVerify⟩ := List.any_eq_true.mp listed
      obtain ⟨named, app⟩ := isFleetVerify_iff.mp isVerify
      exact ⟨appId, run, rfl, mem_latestRuns.mp member, named, app⟩
    case isFalse => exact nomatch posted _ List.mem_cons_self
  · rintro ⟨runsGreen, statusesGreen, ⟨other, run, same, latest, named, app⟩⟩
    obtain rfl := Option.some.inj same
    refine ⟨⟨runsGreen, statusesGreen⟩, ?_⟩
    rw [if_pos (List.any_eq_true.mpr
      ⟨run, mem_latestRuns.mpr latest, isFleetVerify_iff.mpr ⟨named, app⟩⟩)]
    exact List.forall_mem_nil _

theorem evaluateLocalChecks_pass :
    (evaluateLocalChecks scrubSecrets input (latestRuns runs) statuses).verdict = .pass ↔
      LocalGreen input.fleetAppId runs statuses := by
  unfold evaluateLocalChecks
  cases fleet : input.fleetAppId with
  | none =>
      have notGreen : ¬LocalGreen none runs statuses := by
        rintro ⟨_, _, ⟨_, _, named, _⟩⟩
        exact nomatch named
      dsimp only
      split
      · exact ⟨fun wrong => (nomatch wrong), fun green => absurd green notGreen⟩
      · exact ⟨fun wrong => (nomatch wrong), fun green => absurd green notGreen⟩
  | some appId => exact concludeChecks_pass.trans localStates_green

theorem evaluateG7Checks_pass :
    (evaluateG7Checks scrubSecrets input).verdict = .pass ↔ ProvenGreen input := by
  unfold evaluateG7Checks
  constructor
  · intro passed
    split at passed
    case h_1 required runs statuses required_ runs_ statuses_ =>
      refine ⟨required, runs, statuses, required_, runs_, statuses_, ?_, ?_⟩
      · intro server
        rw [server] at passed
        exact evaluateServerChecks_pass.mp passed
      · intro localOnly
        rw [localOnly] at passed
        exact evaluateLocalChecks_pass.mp passed
    case h_2 => exact nomatch passed
  · rintro ⟨required, runs, statuses, required_, runs_, statuses_, server, localOnly⟩
    rw [required_, runs_, statuses_]
    cases enforcement : input.enforcement with
    | server => exact evaluateServerChecks_pass.mpr (server enforcement)
    | localOnly => exact evaluateLocalChecks_pass.mpr (localOnly enforcement)

end

/-! Whatever order the lists come in. -/

structure Shuffled (first second : G7ChecksInput) : Prop where
  enforcement : first.enforcement = second.enforcement
  required : Option.Rel List.Perm first.required second.required
  runs : Option.Rel List.Perm first.runs second.runs
  statuses : Option.Rel List.Perm first.statuses second.statuses
  pendingSinceMs : first.pendingSinceMs = second.pendingSinceMs
  nowMs : first.nowMs = second.nowMs
  fleetAppId : first.fleetAppId = second.fleetAppId
  rulesetsUnavailable : first.rulesetsUnavailable = second.rulesetsUnavailable

def DistinctIds (input : G7ChecksInput) : Prop :=
  ∀ runs, input.runs = some runs → (runs.map CheckRunObservation.id).Nodup

structure SameFindings (first second : ChecksEvaluation) : Prop where
  verdict : first.verdict = second.verdict
  code : first.code = second.code
  inputs : first.inputs = second.inputs
  nextEligibleAt : first.nextEligibleAt = second.nextEligibleAt
  state : first.state = second.state
  reason : first.state = .green ∨ first.state = .none → first.reason = second.reason

theorem SameFindings.refl (found : ChecksEvaluation) : SameFindings found found :=
  ⟨rfl, rfl, rfl, rfl, rfl, fun _ => rfl⟩

theorem sortedTexts_perm {texts others : List JsString} (perm : texts.Perm others) :
    sortedTexts texts = sortedTexts others :=
  Lib.insertionSort_eq_of_perm (fun _ _ _ _ le ge => List.le_antisymm le ge) perm

theorem joinedState_congr {observed others : List CheckState}
    (same : ∀ state, state ∈ observed ↔ state ∈ others) :
    joinedState observed = joinedState others := by
  have empty : observed = [] ↔ others = [] := by
    rw [List.eq_nil_iff_forall_not_mem, List.eq_nil_iff_forall_not_mem]
    exact forall_congr' fun state => not_congr (same state)
  unfold joinedState
  simp only [empty, same]

section

variable {scrubSecrets : JsString → JsString}

variable {first second : G7ChecksInput}

theorem concludeChecks_same {required : List JsString} {states others : List NamedState}
    (enforcement : first.enforcement = second.enforcement)
    (since : first.pendingSinceMs = second.pendingSinceMs) (now : first.nowMs = second.nowMs)
    (perm : states.Perm others) :
    SameFindings (concludeChecks scrubSecrets first required states)
      (concludeChecks scrubSecrets second required others) := by
  have texts : stateTexts states = stateTexts others := sortedTexts_perm (perm.map _)
  have empty : ∀ state : CheckState, states.filter (fun named => named.state = state) = [] ↔
      others.filter (fun named => named.state = state) = [] := by
    intro state
    have filtered := perm.filter fun named => decide (named.state = state)
    exact ⟨fun none => (none ▸ filtered).symm.eq_nil, fun none => (none ▸ filtered).eq_nil⟩
  unfold concludeChecks
  dsimp only
  rw [enforcement, since, now, texts]
  by_cases red : states.filter (fun named => named.state = .red) = []
  · rw [if_neg (not_not.mpr red), if_neg (not_not.mpr ((empty _).mp red))]
    by_cases pending : states.filter (fun named => named.state = .pending) = []
    · rw [if_neg (not_not.mpr pending), if_neg (not_not.mpr ((empty _).mp pending))]
      exact .refl _
    · rw [if_pos pending, if_pos (mt (empty _).mpr pending)]
      split
      · exact ⟨rfl, rfl, rfl, rfl, rfl, fun either => either.elim nofun nofun⟩
      · exact ⟨rfl, rfl, rfl, rfl, rfl, fun either => either.elim nofun nofun⟩
  · rw [if_pos red, if_pos (mt (empty _).mpr red)]
    exact ⟨rfl, rfl, rfl, rfl, rfl, fun either => either.elim nofun nofun⟩

variable {rivals : List CheckRunObservation} {reports : List StatusObservation}

theorem serverStates_perm {others : List RequiredCheck} (perm : required.Perm others)
    (runsPerm : runs.Perm rivals) (statusesPerm : statuses.Perm reports)
    (distinct : (runs.map CheckRunObservation.id).Nodup) :
    (serverStates required (latestRuns runs) statuses).Perm
      (serverStates others (latestRuns rivals) reports) := by
  have same : ∀ check : RequiredCheck, joinedState (observedStates (latestRuns runs) statuses check)
    = joinedState (observedStates (latestRuns rivals) reports check) := by
    intro check
    refine joinedState_congr fun state => List.Perm.mem_iff ?_
    refine (((latestRuns_perm runsPerm distinct).filter _).map _).append (List.Perm.map _ ?_)
    split
    · exact statusesPerm.filter _
    · exact .refl _
  unfold serverStates
  rw [List.map_congr_left fun check _ => congrArg (NamedState.mk check.context) (same check)]
  exact perm.map _

section

variable (shuffled : Shuffled first second)
include shuffled

theorem evaluateServerChecks_same {others : List RequiredCheck}
    (perm : required.Perm others) (runsPerm : runs.Perm rivals)
    (statusesPerm : statuses.Perm reports) (distinct : (runs.map CheckRunObservation.id).Nodup) :
    SameFindings (evaluateServerChecks scrubSecrets first required (latestRuns runs) statuses)
      (evaluateServerChecks scrubSecrets second others (latestRuns rivals) reports) := by
  have empty : required = [] ↔ others = [] :=
    ⟨fun none => (none ▸ perm).symm.eq_nil, fun none => (none ▸ perm).eq_nil⟩
  unfold evaluateServerChecks
  simp only [shuffled.rulesetsUnavailable, empty, sortedTexts_perm (perm.map _)]
  split
  · exact .refl _
  · split
    · exact .refl _
    · exact concludeChecks_same shuffled.enforcement shuffled.pendingSinceMs shuffled.nowMs
        (serverStates_perm perm runsPerm statusesPerm distinct)

theorem evaluateLocalChecks_same (runsPerm : runs.Perm rivals)
    (statusesPerm : statuses.Perm reports) (distinct : (runs.map CheckRunObservation.id).Nodup) :
    SameFindings (evaluateLocalChecks scrubSecrets first (latestRuns runs) statuses)
      (evaluateLocalChecks scrubSecrets second (latestRuns rivals) reports) := by
  have latest := latestRuns_perm runsPerm distinct
  have names : (observedNames (latestRuns runs) statuses).Perm
      (observedNames (latestRuns rivals) reports) := (latest.map _).append (statusesPerm.map _)
  have empty : observedNames (latestRuns runs) statuses = [] ↔
      observedNames (latestRuns rivals) reports = [] :=
    ⟨fun none => (none ▸ names).symm.eq_nil, fun none => (none ▸ names).eq_nil⟩
  unfold evaluateLocalChecks
  rw [shuffled.fleetAppId]
  cases second.fleetAppId with
  | none =>
      dsimp only
      have texts : stateTexts (observedNames (latestRuns runs) statuses) =
          stateTexts (observedNames (latestRuns rivals) reports) := sortedTexts_perm (names.map _)
      simp only [empty, texts]
      exact .refl _
  | some appId =>
      refine concludeChecks_same shuffled.enforcement shuffled.pendingSinceMs shuffled.nowMs ?_
      unfold localStates
      have any : (latestRuns runs).any (isFleetVerify appId) =
          (latestRuns rivals).any (isFleetVerify appId) := by
        rw [Bool.eq_iff_iff, List.any_eq_true, List.any_eq_true]
        exact exists_congr fun run => and_congr_left' latest.mem_iff
      rw [any]
      exact names.append_right _

theorem evaluateG7Checks_same (distinct : DistinctIds first) :
    SameFindings (evaluateG7Checks scrubSecrets first) (evaluateG7Checks scrubSecrets second) := by
  have required := shuffled.required
  have runs := shuffled.runs
  have statuses := shuffled.statuses
  unfold evaluateG7Checks
  rw [shuffled.enforcement]
  cases required_ : first.required with
  | none =>
      rw [required_] at required
      generalize second.required = others at required ⊢
      cases required
      exact .refl _
  | some checks =>
      rw [required_] at required
      generalize second.required = others at required ⊢
      cases required with
      | some requiredPerm =>
          cases runs_ : first.runs with
          | none =>
              rw [runs_] at runs
              generalize second.runs = rivals at runs ⊢
              cases runs
              exact .refl _
          | some observed =>
              rw [runs_] at runs
              generalize second.runs = rivals at runs ⊢
              cases runs with
              | some runsPerm =>
                  cases statuses_ : first.statuses with
                  | none =>
                      rw [statuses_] at statuses
                      generalize second.statuses = reports at statuses ⊢
                      cases statuses
                      exact .refl _
                  | some listed =>
                      rw [statuses_] at statuses
                      generalize second.statuses = reports at statuses ⊢
                      cases statuses with
                      | some statusesPerm =>
                          cases second.enforcement with
                          | server =>
                              exact evaluateServerChecks_same shuffled requiredPerm runsPerm
                                statusesPerm (distinct _ runs_)
                          | localOnly =>
                              exact evaluateLocalChecks_same shuffled runsPerm statusesPerm
                                (distinct _ runs_)

end

end

/-! A run more that is not green. -/

def Considered (input : G7ChecksInput) (run : CheckRunObservation) : Prop :=
  input.enforcement = .server →
    ∀ required, input.required = some required → ∃ check ∈ required, check.accepts run = true

theorem latest_inserted {front back : List CheckRunObservation}
    (highest : ∀ other ∈ front ++ back, SameCheck other run → other.id < run.id) :
    Latest (front ++ run :: back) run := by
  refine ⟨front.length, by simp, fun place rival met same => ?_⟩
  have member := List.mem_of_getElem? met
  rw [List.mem_append, List.mem_cons] at member
  by_cases self : rival = run
  · rw [self] at met ⊢
    refine ⟨le_refl _, fun _ => ?_⟩
    by_contra early
    rw [List.getElem?_append_left (by omega)] at met
    have less := highest run (List.mem_append_left _ (List.mem_of_getElem? met)) ⟨rfl, rfl⟩
    omega
  · have inside : rival ∈ front ++ back := by
      rw [List.mem_append]
      exact member.imp_right fun either => either.resolve_left self
    have less := highest rival inside same
    exact ⟨le_of_lt less, fun ids => absurd ids (by omega)⟩

theorem not_provenGreen_of_latest (held : input.runs = some runs) (latest : Latest runs run)
    (considered : Considered input run) (notGreen : runState run ≠ .green) :
    ¬ProvenGreen input := by
  rintro ⟨required, listed, statuses, required_, listed_, _, server, localOnly⟩
  rw [held] at listed_
  obtain rfl := Option.some.inj listed_
  cases enforcement : input.enforcement with
  | server =>
      obtain ⟨check, member, accepted⟩ := considered enforcement required required_
      obtain ⟨named, source⟩ := accepts_iff.mp accepted
      exact notGreen ((server enforcement).green check member _ (.run latest named source))
  | localOnly => exact notGreen ((localOnly enforcement).runsGreen run latest)

/-- The reason of a refusal lists the checks in the order that they come in. -/
theorem reason_follows_order : ∃ first second : G7ChecksInput, Shuffled first second ∧
    DistinctIds first ∧ evaluateG7Checks id first ≠ evaluateG7Checks id second := by
  let failed (id : ℤ) (name : JsString) : CheckRunObservation :=
    ⟨id, name, none, js "completed", some (js "failure")⟩
  let runs := [failed 1 (js "build"), failed 2 (js "test")]
  let reading (required : List RequiredCheck) : G7ChecksInput :=
    ⟨.server, some required, some runs, some [], 0, 0, none, false⟩
  refine ⟨reading [⟨js "build", none⟩, ⟨js "test", none⟩],
    reading [⟨js "test", none⟩, ⟨js "build", none⟩], ⟨rfl, .some (.swap _ _ _),
      .some (.refl _), .some (.refl _), rfl, rfl, rfl, rfl⟩, ?_, ?_⟩
  · intro held same
    obtain rfl := Option.some.inj same
    decide
  · decide +kernel

/-- What the gate passes, that no order of the lists changes what it finds, and that it never
passes a head with one more run, the latest of its check, that is not green. -/
theorem requiredChecks_gate (scrubSecrets : JsString → JsString) :
    (∀ input, (evaluateG7Checks scrubSecrets input).verdict = .pass ↔ ProvenGreen input) ∧
    (∀ first second, Shuffled first second → DistinctIds first →
      SameFindings (evaluateG7Checks scrubSecrets first) (evaluateG7Checks scrubSecrets second)) ∧
    ∀ (input : G7ChecksInput) (front back : List CheckRunObservation)
      (run : CheckRunObservation), input.runs = some (front ++ back) → Considered input run →
      (∀ other ∈ front ++ back, SameCheck other run → other.id < run.id) →
      runState run ≠ .green →
      (evaluateG7Checks scrubSecrets
        { input with runs := some (front ++ run :: back) }).verdict ≠ .pass := by
  refine ⟨fun _ => evaluateG7Checks_pass, fun _ _ => evaluateG7Checks_same, ?_⟩
  intro input front back run _ considered highest notGreen passed
  have latest := latest_inserted highest
  have unproven : ¬ProvenGreen { input with runs := some (front ++ run :: back) } :=
    not_provenGreen_of_latest rfl latest considered notGreen
  exact unproven (evaluateG7Checks_pass.mp passed)

theorem requiredChecks_gate_build :
    (evaluateG7Checks id ⟨.server, some [⟨js "build", none⟩],
      some ([⟨1, js "build", none, js "completed", some (js "success")⟩] ++
        ⟨2, js "build", none, js "completed", some (js "failure")⟩ :: []),
      some [], 0, 0, none, false⟩).verdict ≠ .pass := by
  refine (requiredChecks_gate id).2.2
    ⟨.server, some [⟨js "build", none⟩],
      some ([⟨1, js "build", none, js "completed", some (js "success")⟩] ++ []), some [], 0, 0,
      none, false⟩ [⟨1, js "build", none, js "completed", some (js "success")⟩] []
    ⟨2, js "build", none, js "completed", some (js "failure")⟩ rfl ?_ ?_ (by decide)
  · intro _ required held
    obtain rfl := Option.some.inj held
    exact ⟨_, List.mem_cons_self, by decide⟩
  · intro other member _
    obtain rfl := List.mem_singleton.mp member
    decide

end AshlrHub.MergeGates
