import AshlrHub.Fleet.RequiredChecks
import AshlrHub.Fleet.ReviewerIndependence

namespace AshlrHub.MergeGates

open Js Authority

/-! Gate G6: what the recorded verdicts of a proposal's judges come to. -/

/-- A row of the decisions ledger. -/
structure DecisionEntry where
  action : JsString
  ts : JsString
  engine : Option JsString
  model : Option JsString
  verdict : Option JsString
  detail : Option JsString
  judgeAttestation : Option JsString
  judgeAttestationIntent : Option JsString
  judgeAttestationIssuedAt : Option JsString
deriving DecidableEq

/-- `latest.engine ?? latest.model ?? ''` -/
def DecisionEntry.judgeEngine (decision : DecisionEntry) : JsString :=
  (decision.engine.or decision.model).getD []

def DecisionEntry.judgeFamily (decision : DecisionEntry) : ReviewModelFamily :=
  reviewModelFamily (some decision.judgeEngine)

structure JudgeInputs where
  judge : JsString
  judgeFamily : ReviewModelFamily
  verdict : Option JsString
  at' : JsString

structure G6Inputs where
  producerFamily : ReviewModelFamily
  -- `rule: 'two-judge'` with `minFamilies: 2`
  twoJudge : Bool
  judged : Option JudgeInputs
  judges : List JsString
  families : List ReviewModelFamily
  attestations : List JsString

structure G6Evaluation extends GateEvaluation G6Inputs where
  judgeId : Option JsString
  /-- The pass may call a judge. -/
  needsJudge : Bool
  judgeIds : Option (List JsString)
  judgedFamilies : Option (List ReviewModelFamily)

structure G6Input where
  proposalId : JsString
  producerModel : Option JsString
  diff : JsString
  /-- The decisions for this proposal; `none` where the ledger is degraded. -/
  decisions : Option (List DecisionEntry)
  nowMs : ℤ
  /-- Under the elite stage, how its list of models is narrowed. -/
  eliteDirect : Option (Option (List JsString))

structure AttestationParams where
  proposalId : JsString
  judgeEngine : JsString
  diffHash : JsString
  issuedAt : JsString

/-- `Date.parse`, the provenance key's signature, the secret scrubber and the elite stage. -/
structure JudgeHost where
  scrubSecrets : JsString → JsString
  parseDate : JsString → Option ℤ
  signJudgeAttestation : AttestationParams → Except JsString JsString
  evaluateEliteDirect : G6Input → Option G6Evaluation

def verifyJudgeAttestation (host : JudgeHost) (attestation : Option JsString)
    (params : AttestationParams) : Option JsString :=
  let attestation := attestation.getD []
  if attestation = [] then some (js "missing judge attestation")
  else if params.proposalId = [] then some (js "missing proposalId")
  else if params.judgeEngine = [] then some (js "missing judgeEngine")
  else if params.diffHash = [] then some (js "missing diffHash")
  else if host.parseDate params.issuedAt = none then
    some (js "invalid judge attestation issuedAt")
  else match host.signJudgeAttestation params with
    | .error message => some (js "judge attestation verify error: " ++ message)
    | .ok expected =>
        if expected = attestation then none
        else some (js "judge attestation HMAC mismatch — forged or stale attestation")

def judgeVerdictMaxAgeMs : ℤ := 24 * 60 * 60 * 1000

structure JudgeShip where
  judgeId : JsString
  family : ReviewModelFamily
  issuedAt : JsString
  eligibilityReason : JsString
  inputs : G6Inputs
  attestation : JsString

inductive JudgeVerdictAssessment where
  | ship (ship : JudgeShip)
  | other (evaluation : G6Evaluation)

def g6 (evaluation : GateEvaluation G6Inputs) (judgeId : Option JsString) (needsJudge : Bool) :
    G6Evaluation :=
  ⟨evaluation, judgeId, needsJudge, none, none⟩

def DecisionEntry.failed (decision : DecisionEntry) : Bool :=
  decision.detail = some (js "judge-network-failure") ||
    decision.detail = some (js "judge-parse-failure")

def judgeInputs (base : G6Inputs) (latest : DecisionEntry) : G6Inputs :=
  { base with
    judged := some ⟨latest.judgeEngine, latest.judgeFamily, latest.verdict, latest.ts⟩ }

def shipOf (input : G6Input) (base : G6Inputs) (latest : DecisionEntry) (issuedAt : JsString) :
    JudgeShip :=
  ⟨latest.judgeEngine, latest.judgeFamily, issuedAt,
    (evaluateJudgeEligibility input.producerModel latest.judgeEngine).reason,
    judgeInputs base latest, Sha256.digest (utf8Encode (latest.judgeAttestation.getD []))⟩

variable (host : JudgeHost) (input : G6Input) (base : G6Inputs)

def assessJudgeVerdict (latest : DecisionEntry) : JudgeVerdictAssessment :=
  let other (verdict : GateVerdict) (code reason : JsString) (needsJudge : Bool) :=
    JudgeVerdictAssessment.other (g6 (evaluation host.scrubSecrets verdict code reason
      (judgeInputs base latest)) none needsJudge)
  let eligibility := evaluateJudgeEligibility input.producerModel latest.judgeEngine
  if latest.verdict ≠ some (js "ship") then
    if latest.failed then
      other .wait (js "judge-failed") (js "the last judge call failed (" ++
        latest.detail.getD [] ++ js "); it will be retried") true
    else if eligibility.eligible = false then
      other .wait (js "judge-ineligible")
        (eligibility.reason ++ js "; an eligible judge must review it") true
    else
      other .refuse (js "judge-rejected") (js "judge " ++ latest.judgeEngine ++
        js " returned \"" ++ latest.verdict.getD (js "unknown") ++
        js "\" — a newer non-ship verdict overrides any older ship") false
  else if eligibility.eligible = false then
    other .wait (js "judge-ineligible") eligibility.reason true
  else if latest.detail ≠ some (js "would-merge") ∨
      latest.judgeAttestationIntent ≠ some (js "would-merge") then
    other .refuse (js "judge-no-merge-intent")
      (js "judge " ++ latest.judgeEngine ++ js " shipped without merge intent") false
  else match latest.judgeAttestationIssuedAt, host.parseDate latest.ts with
    | some issuedAt, some issuedMs =>
        if issuedAt ≠ latest.ts ∨ input.nowMs + 60000 < issuedMs then
          other .wait (js "judge-attestation-invalid")
            (js "the ship verdict carries no well-formed attestation time; re-judging") true
        else if judgeVerdictMaxAgeMs < input.nowMs - issuedMs then
          other .wait (js "judge-stale") (js "the ship verdict is older than 24 h; re-judging") true
        else match verifyJudgeAttestation host latest.judgeAttestation ⟨input.proposalId,
            latest.judgeEngine, Sha256.digest (utf8Encode input.diff), issuedAt⟩ with
          | some reason =>
              other .wait (js "judge-attestation-invalid")
                (js "the ship verdict's HMAC attestation does not verify for this exact diff (" ++
                  reason ++ js "); re-judging") true
          | none => .ship (shipOf input base latest issuedAt)
    | _, _ =>
        other .wait (js "judge-attestation-invalid")
          (js "the ship verdict carries no well-formed attestation time; re-judging") true

structure Dated where
  decision : DecisionEntry
  index : ℕ
  ms : Option ℤ

/-- Newest first; a time that does not parse comes last, and of equals the later row first. -/
def Dated.newer (a b : Dated) : Bool :=
  match a.ms, b.ms with
  | some x, some y => if x ≠ y then y < x else b.index ≤ a.index
  | some _, none => true
  | none, some _ => false
  | none, none => b.index ≤ a.index

def judgedDecisions (decisions : List DecisionEntry) : List DecisionEntry :=
  (((decisions.filter fun decision => decision.action = js "judged").mapIdx
    fun index decision => Dated.mk decision index (host.parseDate decision.ts)).insertionSort
      fun a b => a.newer b).map Dated.decision

def noteFamily (newest : JsMap ReviewModelFamily DecisionEntry) (decision : DecisionEntry) :
    JsMap ReviewModelFamily DecisionEntry :=
  if newest.has decision.judgeFamily then newest
  else newest.set decision.judgeFamily decision

def newestByFamily (judged : List DecisionEntry) : JsMap ReviewModelFamily DecisionEntry :=
  judged.foldl noteFamily []

def G6Evaluation.withJudges (evaluation : G6Evaluation) (judgeIds : List JsString)
    (judgedFamilies : List ReviewModelFamily) : G6Evaluation :=
  { evaluation with judgeIds := some judgeIds, judgedFamilies := some judgedFamilies }

def collectShips : List DecisionEntry → Except G6Evaluation (List JudgeShip)
  | [] => .ok []
  | decision :: rest =>
      match assessJudgeVerdict host input base decision with
      | .ship ship => (collectShips rest).map (ship :: ·)
      | .other evaluation =>
          if evaluation.verdict = .refuse then .error evaluation else collectShips rest

def evaluateTwoJudgeG6 (judged : List DecisionEntry) : G6Evaluation :=
  let rule := { base with twoJudge := true }
  let decide (verdict : GateVerdict) (code reason : JsString) (ships : List JudgeShip) :=
    evaluation host.scrubSecrets verdict code reason
      { rule with
        judges := ships.map JudgeShip.judgeId, families := ships.map JudgeShip.family,
        attestations := ships.map JudgeShip.attestation }
  match judged with
  | [] =>
      (g6 (decide .wait (js "awaiting-judge") (js ("no judge has reviewed this proposal yet; " ++
        "Devin work needs judges from two different families")) []) none true).withJudges [] []
  | newest :: _ =>
      match collectShips host input rule ((newestByFamily judged).map Prod.snd) with
      | .error refused => refused.withJudges [] []
      | .ok ships =>
          match ships.insertionSort fun a b => b.issuedAt ≤ a.issuedAt with
          | first :: second :: _ =>
              (g6 (decide .pass (js "two-judge-ship") (js "two independent judges shipped it: " ++
                first.family.text ++ js " judge " ++ first.judgeId ++ js " (attested " ++
                first.issuedAt ++ js ") and " ++ second.family.text ++ js " judge " ++
                second.judgeId ++ js " (attested " ++ second.issuedAt ++ js ")") [first, second])
                (some first.judgeId) false).withJudges [first.judgeId, second.judgeId]
                [first.family, second.family]
          | [only] =>
              (g6 (decide .wait (js "second-judge-needed") (only.family.text ++ js " judge " ++
                only.judgeId ++ js (" shipped it; Devin work also needs a judge from a " ++
                "different family (never Devin, never local)")) [only])
                none true).withJudges [only.judgeId] [only.family]
          | [] =>
              match assessJudgeVerdict host input rule newest with
              | .other evaluation => evaluation.withJudges [] []
              | .ship _ =>
                  (g6 (decide .wait (js "awaiting-judge")
                    (js "no judge has reviewed this proposal yet") [])
                    none true).withJudges [] []

def evaluateG6 : G6Evaluation :=
  let producerFamily := producerModelFamily input.producerModel
  let base : G6Inputs := ⟨producerFamily, false, none, [], [], []⟩
  match host.evaluateEliteDirect input with
  | some elite => elite
  | none =>
      match input.decisions with
      | none => g6 (evaluation host.scrubSecrets .wait (js "decisions-degraded")
          (js "the decisions ledger is degraded; no judge verdict can be trusted") base)
          none false
      | some decisions =>
          let judged := judgedDecisions host decisions
          if requiresTwoJudges producerFamily then evaluateTwoJudgeG6 host input base judged
          else match judged with
            | [] => g6 (evaluation host.scrubSecrets .wait (js "awaiting-judge")
                (js "no judge has reviewed this proposal yet") base) none true
            | latest :: _ =>
                match assessJudgeVerdict host input base latest with
                | .other evaluation => evaluation
                | .ship ship => g6 (evaluation host.scrubSecrets .pass (js "judge-ship")
                    (js "independent " ++ ship.family.text ++ js " judge " ++ ship.judgeId ++
                      js " shipped it (attested " ++ ship.issuedAt ++ js "); " ++
                      ship.eligibilityReason)
                    { ship.inputs with attestations := [ship.attestation] })
                    (some ship.judgeId) false

/-! A verdict that counts is an eligible judge's, of a call that did not fail. -/

def DecisionEntry.counts (decision : DecisionEntry) : Bool :=
  (evaluateJudgeEligibility input.producerModel decision.judgeEngine).eligible &&
    (decision.verdict = some (js "ship") || !decision.failed)

def DecisionEntry.ships (decision : DecisionEntry) : Bool :=
  match assessJudgeVerdict host input base decision with
  | .ship _ => true
  | .other _ => false

def DecisionEntry.rejects (decision : DecisionEntry) : Bool :=
  match assessJudgeVerdict host input base decision with
  | .ship _ => false
  | .other evaluation => evaluation.verdict = .refuse

theorem assessJudgeVerdict_cases (decision : DecisionEntry) :
    (assessJudgeVerdict host input base decision =
        .ship (shipOf input base decision decision.ts) ∧ decision.counts input = true) ∨
      ∃ evaluation, assessJudgeVerdict host input base decision = .other evaluation ∧
        (evaluation.verdict = .wait ∨
          evaluation.verdict = .refuse ∧ decision.counts input = true) := by
  unfold assessJudgeVerdict DecisionEntry.counts
  dsimp only
  split_ifs with notShip failed ineligible refused unwilling
  · exact Or.inr ⟨_, rfl, Or.inl rfl⟩
  · exact Or.inr ⟨_, rfl, Or.inl rfl⟩
  · refine Or.inr ⟨_, rfl, Or.inr ⟨rfl, ?_⟩⟩
    simp [failed, ineligible]
  · exact Or.inr ⟨_, rfl, Or.inl rfl⟩
  · refine Or.inr ⟨_, rfl, Or.inr ⟨rfl, ?_⟩⟩
    simp [not_not.mp notShip, refused]
  · split
    · split_ifs with malformed stale
      · exact Or.inr ⟨_, rfl, Or.inl rfl⟩
      · exact Or.inr ⟨_, rfl, Or.inl rfl⟩
      · split
        · exact Or.inr ⟨_, rfl, Or.inl rfl⟩
        · rw [not_not.mp (not_or.mp malformed).1]
          refine Or.inl ⟨rfl, ?_⟩
          simp [not_not.mp notShip, refused]
    · exact Or.inr ⟨_, rfl, Or.inl rfl⟩

variable {host input base}

variable {judged : List DecisionEntry} {decision : DecisionEntry}

theorem ships_counts (ships : decision.ships host input base = true) :
    decision.counts input = true := by
  unfold DecisionEntry.ships at ships
  obtain ⟨_, counts⟩ | ⟨evaluation, assessed, _⟩ :=
    assessJudgeVerdict_cases host input base decision
  · exact counts
  · rw [assessed] at ships
    cases ships

theorem rejects_counts
    (rejects : decision.rejects host input base = true) : decision.counts input = true := by
  unfold DecisionEntry.rejects at rejects
  obtain ⟨_, counts⟩ | ⟨evaluation, assessed, waits | ⟨_, counts⟩⟩ :=
    assessJudgeVerdict_cases host input base decision
  · exact counts
  · rw [assessed] at rejects
    simp [waits] at rejects
  · exact counts

variable (host input base)

section

variable (judged : List DecisionEntry)

theorem newestByFamily_spec :
    (newestByFamily judged).keys.Nodup ∧ ∀ family, (newestByFamily judged).get? family =
      judged.find? fun decision => decision.judgeFamily = family := by
  suffices steps : ∀ newest : JsMap ReviewModelFamily DecisionEntry, newest.keys.Nodup →
      (judged.foldl noteFamily newest).keys.Nodup ∧
        ∀ family, (judged.foldl noteFamily newest).get? family = (newest.get? family).or
          (judged.find? fun decision => decision.judgeFamily = family) by
    obtain ⟨once, found⟩ := steps [] List.nodup_nil
    exact ⟨once, fun family => by rw [newestByFamily, found, JsMap.get?_nil, Option.none_or]⟩
  induction judged with
  | nil => exact fun newest once => ⟨once, fun family => by simp⟩
  | cons decision rest ih =>
      intro newest once
      rw [List.foldl_cons]
      cases known : newest.get? decision.judgeFamily with
      | some earlier =>
          have kept : noteFamily newest decision = newest := by
            simp [noteFamily, JsMap.has, known]
          rw [kept]
          refine ⟨(ih newest once).1, fun family => ?_⟩
          rw [(ih newest once).2 family, List.find?_cons]
          by_cases same : decision.judgeFamily = family
          · rw [← same, known, Option.some_or, Option.some_or]
          · simp [same]
      | none =>
          have noted : noteFamily newest decision =
              newest.set decision.judgeFamily decision := by
            simp [noteFamily, JsMap.has, known]
          have still := JsMap.nodup_keys_set decision.judgeFamily decision once
          rw [noted]
          refine ⟨(ih _ still).1, fun family => ?_⟩
          rw [(ih _ still).2 family, JsMap.get?_set, List.find?_cons]
          by_cases same : decision.judgeFamily = family
          · subst same
            simp [known]
          · simp [same, Ne.symm same]

theorem collectShips_spec : (decisions : List DecisionEntry) →
    match collectShips host input base decisions with
    | .error refused => refused.verdict = .refuse ∧
        ∃ decision ∈ decisions, decision.rejects host input base = true
    | .ok ships => (∀ decision ∈ decisions, decision.rejects host input base = false) ∧
        ships = (decisions.filter (DecisionEntry.ships host input base)).map fun decision =>
          shipOf input base decision decision.ts
  | [] => by simp [collectShips]
  | decision :: rest => by
      have later := collectShips_spec rest
      unfold collectShips
      obtain ⟨assessed, _⟩ | ⟨evaluation, assessed, verdict⟩ :=
        assessJudgeVerdict_cases host input base decision
      · have ships : decision.ships host input base = true := by
          simp [DecisionEntry.ships, assessed]
        have holds : decision.rejects host input base = false := by
          simp [DecisionEntry.rejects, assessed]
        rw [assessed]
        cases collected : collectShips host input base rest with
        | error refused =>
            rw [collected] at later
            obtain ⟨refuses, other, inside, rejects⟩ := later
            exact ⟨refuses, other, List.mem_cons_of_mem _ inside, rejects⟩
        | ok found =>
            rw [collected] at later
            refine ⟨List.forall_mem_cons.mpr ⟨holds, later.1⟩, ?_⟩
            rw [later.2, List.filter_cons_of_pos ships, List.map_cons]
      · have idle : decision.ships host input base = false := by
          simp [DecisionEntry.ships, assessed]
        rw [assessed]
        dsimp only
        split_ifs with refuses
        · exact ⟨refuses, decision, List.mem_cons_self, by
            simp [DecisionEntry.rejects, assessed, refuses]⟩
        · have holds : decision.rejects host input base = false := by
            simp [DecisionEntry.rejects, assessed, refuses]
          cases collected : collectShips host input base rest with
          | error refused =>
              rw [collected] at later
              obtain ⟨refused, other, inside, rejects⟩ := later
              exact ⟨refused, other, List.mem_cons_of_mem _ inside, rejects⟩
          | ok found =>
              rw [collected] at later
              refine ⟨List.forall_mem_cons.mpr ⟨holds, later.1⟩, ?_⟩
              rw [later.2, List.filter_cons_of_neg (by simp [idle])]

/-! The newest verdict of a family, and its newest that counts. -/

def newestOf (family : ReviewModelFamily) : Option DecisionEntry :=
  judged.find? fun decision => decision.judgeFamily = family

def newestCounted (family : ReviewModelFamily) : Option DecisionEntry :=
  judged.find? fun decision => decision.judgeFamily = family && decision.counts input

def TwoShip (pick : ReviewModelFamily → Option DecisionEntry) : Prop :=
  ∃ family other, family ≠ other ∧
    (∃ decision, pick family = some decision ∧ decision.ships host input base = true) ∧
    ∃ decision, pick other = some decision ∧ decision.ships host input base = true

def SomeRejects (pick : ReviewModelFamily → Option DecisionEntry) : Prop :=
  ∃ family decision, pick family = some decision ∧ decision.rejects host input base = true

def latestShips : List DecisionEntry :=
  (((newestByFamily judged).map Prod.snd).filter
    (DecisionEntry.ships host input base)).insertionSort fun a b => b.ts ≤ a.ts

end

theorem newestCounted_eq {family : ReviewModelFamily}
    (newest : newestOf judged family = some decision)
    (counts : decision.counts input = true) :
    newestCounted input judged family = some decision := by
  obtain ⟨same, before, after, split, others⟩ := List.find?_eq_some_iff_append.mp newest
  refine List.find?_eq_some_iff_append.mpr ⟨?_, before, after, split, fun other inside => ?_⟩
  · rw [same, counts, Bool.and_self]
  · have apart := others other inside
    rw [Bool.not_eq_true'] at apart ⊢
    rw [apart, Bool.false_and]

variable {host input base} in

theorem TwoShip.counted
    (ships : TwoShip host input base (newestOf judged)) :
    TwoShip host input base (newestCounted input judged) := by
  obtain ⟨family, other, apart, ⟨first, newest, firstShips⟩, second, newer, secondShips⟩ := ships
  exact ⟨family, other, apart,
    ⟨first, newestCounted_eq input newest (ships_counts firstShips), firstShips⟩,
    second, newestCounted_eq input newer (ships_counts secondShips), secondShips⟩

variable {host input base} in

theorem SomeRejects.counted
    (rejects : SomeRejects host input base (newestOf judged)) :
    SomeRejects host input base (newestCounted input judged) := by
  obtain ⟨family, decision, newest, refused⟩ := rejects
  exact ⟨family, decision, newestCounted_eq input newest (rejects_counts refused), refused⟩

theorem mem_newestByFamily :
    decision ∈ (newestByFamily judged).map Prod.snd ↔
      newestOf judged decision.judgeFamily = some decision := by
  obtain ⟨once, found⟩ := newestByFamily_spec judged
  rw [newestOf, ← found, List.mem_map]
  constructor
  · rintro ⟨⟨family, newest⟩, inside, rfl⟩
    have picked := JsMap.get?_of_mem once inside
    have same := List.find?_some ((found family).symm.trans picked)
    rw [decide_eq_true_eq] at same
    rw [same, picked]
  · exact fun picked => ⟨_, JsMap.mem_of_get? picked, rfl⟩

theorem newestOf_family {family : ReviewModelFamily}
    (newest : newestOf judged family = some decision) :
    decision.judgeFamily = family := by
  have same := List.find?_some newest
  exact of_decide_eq_true same

theorem newestByFamily_families (judged : List DecisionEntry) :
    (((newestByFamily judged).map Prod.snd).map DecisionEntry.judgeFamily).Nodup := by
  obtain ⟨once, found⟩ := newestByFamily_spec judged
  rw [List.map_map]
  refine (congrArg List.Nodup (List.map_congr_left fun entry inside => ?_)).mp once
  have picked := JsMap.get?_of_mem once inside
  exact (newestOf_family ((found entry.1).symm.trans picked)).symm

theorem two_le_length {α β : Type} (key : α → β) {items : List α} (once : (items.map key).Nodup) :
    2 ≤ items.length ↔ ∃ a ∈ items, ∃ b ∈ items, key a ≠ key b := by
  cases items with
  | nil => simp
  | cons a rest =>
      cases rest with
      | nil => simp
      | cons b rest =>
          have apart : key a ≠ key b := by
            simp only [List.map_cons, List.nodup_cons, List.mem_cons, not_or] at once
            exact once.1.1
          exact ⟨fun _ => ⟨a, by simp, b, by simp, apart⟩, fun _ => by simp⟩

theorem someRejects_newest :
    SomeRejects host input base (newestOf judged) ↔
      ∃ decision ∈ (newestByFamily judged).map Prod.snd,
        decision.rejects host input base = true := by
  constructor
  · rintro ⟨family, decision, newest, rejects⟩
    refine ⟨decision, mem_newestByFamily.mpr ?_, rejects⟩
    rw [newestOf_family newest, newest]
  · rintro ⟨decision, inside, rejects⟩
    exact ⟨_, decision, mem_newestByFamily.mp inside, rejects⟩

theorem twoShip_newest :
    TwoShip host input base (newestOf judged) ↔
      2 ≤ (latestShips host input base judged).length := by
  have once : ((((newestByFamily judged).map Prod.snd).filter
      (DecisionEntry.ships host input base)).map DecisionEntry.judgeFamily).Nodup :=
    (List.filter_sublist.map DecisionEntry.judgeFamily).nodup (newestByFamily_families judged)
  rw [latestShips, List.length_insertionSort, two_le_length DecisionEntry.judgeFamily once]
  constructor
  · rintro ⟨family, other, apart, ⟨first, newest, firstShips⟩, second, newer, secondShips⟩
    obtain rfl := newestOf_family newest
    obtain rfl := newestOf_family newer
    exact ⟨first, List.mem_filter.mpr ⟨mem_newestByFamily.mpr newest, firstShips⟩,
      second, List.mem_filter.mpr ⟨mem_newestByFamily.mpr newer, secondShips⟩, apart⟩
  · rintro ⟨first, inFirst, second, inSecond, apart⟩
    obtain ⟨newest, firstShips⟩ := List.mem_filter.mp inFirst
    obtain ⟨newer, secondShips⟩ := List.mem_filter.mp inSecond
    exact ⟨_, _, apart, ⟨first, mem_newestByFamily.mp newest, firstShips⟩,
      second, mem_newestByFamily.mp newer, secondShips⟩

def ruleInputs : G6Inputs :=
  ⟨producerModelFamily input.producerModel, true, none, [], [], []⟩

def soloInputs : G6Inputs :=
  ⟨producerModelFamily input.producerModel, false, none, [], [], []⟩

theorem evaluateTwoJudgeG6_spec (judged : List DecisionEntry) :
    (SomeRejects host input (ruleInputs input) (newestOf judged) →
      (evaluateTwoJudgeG6 host input (soloInputs input) judged).verdict = .refuse) ∧
    (¬ SomeRejects host input (ruleInputs input) (newestOf judged) →
      (evaluateTwoJudgeG6 host input (soloInputs input) judged).verdict ≠ .refuse ∧
      match latestShips host input (ruleInputs input) judged with
      | first :: second :: _ =>
          (evaluateTwoJudgeG6 host input (soloInputs input) judged).verdict = .pass ∧
          (evaluateTwoJudgeG6 host input (soloInputs input) judged).judgeIds =
            some [first.judgeEngine, second.judgeEngine]
      | _ => (evaluateTwoJudgeG6 host input (soloInputs input) judged).verdict ≠ .pass) := by
  cases judged with
  | nil =>
      refine ⟨?_, fun _ => ⟨?_, ?_⟩⟩
      · rintro ⟨family, decision, newest, _⟩
        cases newest
      · exact fun refuses => by cases refuses
      · exact fun passes => by cases passes
  | cons newest rest =>
      have collected := collectShips_spec host input (ruleInputs input)
        ((newestByFamily (newest :: rest)).map Prod.snd)
      have sorted := List.map_insertionSort (fun a b : DecisionEntry => b.ts ≤ a.ts)
        (fun a b : JudgeShip => b.issuedAt ≤ a.issuedAt)
        (fun decision => shipOf input (ruleInputs input) decision decision.ts)
        (((newestByFamily (newest :: rest)).map Prod.snd).filter
          (DecisionEntry.ships host input (ruleInputs input))) fun _ _ _ _ => Iff.rfl
      rw [someRejects_newest]
      unfold evaluateTwoJudgeG6
      have rule : { soloInputs input with twoJudge := true } = ruleInputs input := rfl
      simp only [rule]
      cases found : collectShips host input (ruleInputs input)
          ((newestByFamily (newest :: rest)).map Prod.snd) with
      | error refused =>
          rw [found] at collected
          exact ⟨fun _ => collected.1, fun none => absurd collected.2 none⟩
      | ok ships =>
          rw [found] at collected
          obtain ⟨holds, rfl⟩ := collected
          refine ⟨?_, fun _ => ?_⟩
          · rintro ⟨decision, inside, rejects⟩
            rw [holds decision inside] at rejects
            cases rejects
          · dsimp only
            rw [← sorted]
            unfold latestShips
            cases ((((newestByFamily (newest :: rest)).map Prod.snd).filter
                (DecisionEntry.ships host input (ruleInputs input))).insertionSort
                  fun a b => b.ts ≤ a.ts) with
            | nil =>
                have first : newest ∈ (newestByFamily (newest :: rest)).map Prod.snd := by
                  refine mem_newestByFamily.mpr ?_
                  simp [newestOf]
                have kept := holds newest first
                unfold DecisionEntry.rejects at kept
                obtain ⟨assessed, _⟩ | ⟨evaluation, assessed, waits | ⟨refuses, _⟩⟩ :=
                  assessJudgeVerdict_cases host input (ruleInputs input) newest
                · rw [List.map_nil, assessed]
                  exact ⟨nofun, nofun⟩
                · rw [List.map_nil, assessed]
                  simp [G6Evaluation.withJudges, waits]
                · rw [assessed] at kept
                  simp [refuses] at kept
            | cons first others =>
                cases others with
                | nil => exact ⟨nofun, nofun⟩
                | cons second others => exact ⟨nofun, rfl, rfl⟩

def JudgeGateLaw (decisions : List DecisionEntry) : Prop :=
  let judged := judgedDecisions host decisions
  let result := evaluateG6 host input
  if requiresTwoJudges (producerModelFamily input.producerModel) = true then
    (result.verdict = .pass ↔
      TwoShip host input (ruleInputs input) (newestCounted input judged) ∧
        ¬ SomeRejects host input (ruleInputs input) (newestCounted input judged)) ∧
    (result.verdict = .pass → ∃ judgeIds, result.judgeIds = some judgeIds ∧
      (evaluateTwoJudgeRule input.producerModel judgeIds).satisfied = true) ∧
    (SomeRejects host input (ruleInputs input) (newestCounted input judged) →
      result.verdict = .refuse)
  else
    result.verdict = .pass ↔
      ∃ newest, judged.head? = some newest ∧ newest.ships host input (soloInputs input) = true

/-- No newer failed or ineligible verdict of a family stands before one that decides. -/
structure NothingHidden (judged : List DecisionEntry) : Prop where
  rejection : SomeRejects host input (ruleInputs input) (newestCounted input judged) →
    SomeRejects host input (ruleInputs input) (newestOf judged)
  ships : ¬ SomeRejects host input (ruleInputs input) (newestCounted input judged) →
    TwoShip host input (ruleInputs input) (newestCounted input judged) →
      TwoShip host input (ruleInputs input) (newestOf judged)
  families : TwoShip host input (ruleInputs input) (newestOf judged) →
    ¬ SomeRejects host input (ruleInputs input) (newestOf judged) →
      ∀ decision ∈ (latestShips host input (ruleInputs input) judged).take 2,
        decision.judgeFamily ≠ .localModel

theorem evaluateG6_judges {decisions : List DecisionEntry}
    (plain : host.evaluateEliteDirect input = none) (given : input.decisions = some decisions)
    (devin : requiresTwoJudges (producerModelFamily input.producerModel) = true) :
    evaluateG6 host input =
      evaluateTwoJudgeG6 host input (soloInputs input) (judgedDecisions host decisions) := by
  simp only [evaluateG6, plain, given, if_pos devin, soloInputs]

theorem mem_latestShips
    (inside : decision ∈ latestShips host input base judged) :
    (evaluateJudgeEligibility input.producerModel decision.judgeEngine).eligible = true := by
  have ships := (List.mem_filter.mp ((List.mem_insertionSort _).mp inside)).2
  exact (Bool.and_eq_true_iff.mp (ships_counts ships)).1

theorem latestShips_apart {judged others : List DecisionEntry} {first second : DecisionEntry}
    (latest : latestShips host input base judged = first :: second :: others) :
    first.judgeFamily ≠ second.judgeFamily := by
  have once : ((latestShips host input base judged).map DecisionEntry.judgeFamily).Nodup :=
    ((List.perm_insertionSort _ _).map _).nodup_iff.mpr
      ((List.filter_sublist.map DecisionEntry.judgeFamily).nodup (newestByFamily_families judged))
  rw [latest] at once
  simp only [List.map_cons, List.nodup_cons, List.mem_cons, not_or] at once
  exact once.1.1

variable {host input} in

theorem judgeGate_iff {decisions : List DecisionEntry}
    (plain : host.evaluateEliteDirect input = none) (given : input.decisions = some decisions) :
    JudgeGateLaw host input decisions ↔
      (requiresTwoJudges (producerModelFamily input.producerModel) = true →
        NothingHidden host input (judgedDecisions host decisions)) := by
  unfold JudgeGateLaw
  by_cases devin : requiresTwoJudges (producerModelFamily input.producerModel) = true
  · simp only [devin, forall_const, evaluateG6_judges host input plain given devin]
    obtain ⟨refused, open'⟩ :=
      evaluateTwoJudgeG6_spec host input (judgedDecisions host decisions)
    set judged := judgedDecisions host decisions
    set result := evaluateTwoJudgeG6 host input (soloInputs input) judged
    by_cases rejects : SomeRejects host input (ruleInputs input) (newestOf judged)
    · have refuses := refused rejects
      have counted := rejects.counted
      refine ⟨fun _ => ⟨fun _ => rejects, fun none => absurd counted none,
        fun _ none => absurd rejects none⟩, fun _ => ⟨⟨fun passes => ?_, fun holds => ?_⟩,
          fun passes => ?_, fun _ => refuses⟩⟩
      · rw [refuses] at passes
        cases passes
      · exact absurd counted holds.2
      · rw [refuses] at passes
        cases passes
    · obtain ⟨kept, latest⟩ := open' rejects
      have passes_iff : result.verdict = .pass ↔
          TwoShip host input (ruleInputs input) (newestOf judged) := by
        rw [twoShip_newest]
        split at latest
        case h_1 first second others shape =>
          simp [shape, latest.1]
        case h_2 few =>
          refine ⟨fun passes => absurd passes latest, fun two => ?_⟩
          obtain ⟨first, tail, shape⟩ := List.exists_cons_of_length_pos
            (Nat.lt_of_lt_of_le Nat.zero_lt_two two)
          rw [shape, List.length_cons, Nat.succ_le_succ_iff] at two
          obtain ⟨second, others, more⟩ := List.exists_cons_of_length_pos two
          exact absurd (shape.trans (congrArg _ more)) (few first second others)
      have rule_iff : TwoShip host input (ruleInputs input) (newestOf judged) →
          ((∃ judgeIds, result.judgeIds = some judgeIds ∧
              (evaluateTwoJudgeRule input.producerModel judgeIds).satisfied = true) ↔
            ∀ decision ∈ (latestShips host input (ruleInputs input) judged).take 2,
              decision.judgeFamily ≠ .localModel) := by
        intro two
        split at latest
        case h_1 first second others shape =>
          have pair := evaluateTwoJudgeRule_pair (of_decide_eq_true devin)
            (mem_latestShips host input (ruleInputs input) (shape ▸ List.mem_cons_self))
            (mem_latestShips host input (ruleInputs input)
              (shape ▸ List.mem_cons_of_mem _ List.mem_cons_self))
            (latestShips_apart host input (ruleInputs input) shape)
          simp only [latest.2, Option.some_inj, exists_eq_left', pair, shape, List.take_succ_cons,
            List.take_zero, List.forall_mem_cons, List.not_mem_nil, false_implies, implies_true,
            and_true]
          rfl
        case h_2 few =>
          exact absurd (passes_iff.mpr two) latest
      constructor
      · rintro ⟨passes, rule, refuses⟩
        refine ⟨fun counted => absurd (refuses counted) kept, fun none two => ?_, fun two _ => ?_⟩
        · exact passes_iff.mp (passes.mpr ⟨two, none⟩)
        · exact (rule_iff two).mp (rule (passes_iff.mpr two))
      · intro hidden
        have none : ¬ SomeRejects host input (ruleInputs input) (newestCounted input judged) :=
          fun counted => rejects (hidden.rejection counted)
        refine ⟨⟨fun passes => ⟨(passes_iff.mp passes).counted, none⟩, fun holds => ?_⟩,
          fun passes => ?_, fun counted => absurd counted none⟩
        · exact passes_iff.mpr (hidden.ships none holds.1)
        · have two := passes_iff.mp passes
          exact (rule_iff two).mpr (hidden.families two rejects)
  · simp only [devin, false_implies, iff_true, Bool.false_eq_true]
    simp only [evaluateG6, plain, given, if_neg devin]
    cases judgedDecisions host decisions with
    | nil => exact ⟨nofun, nofun⟩
    | cons latest rest =>
        simp only [List.head?_cons, Option.some_inj, exists_eq_left', DecisionEntry.ships]
        obtain ⟨assessed, _⟩ | ⟨evaluation, assessed, waits | ⟨refuses, _⟩⟩ :=
          assessJudgeVerdict_cases host input (soloInputs input) latest
        · simp only [soloInputs] at assessed ⊢
          rw [assessed]
          exact ⟨fun _ => rfl, fun _ => rfl⟩
        · simp only [soloInputs] at assessed ⊢
          simp [assessed, waits]
        · simp only [soloInputs] at assessed ⊢
          simp [assessed, refuses]

def hour (hours : JsString) : JsString :=
  js "2026-10-01T" ++ hours ++ js ":00:00.000Z"

def judgedAt (hours engine : JsString) : DecisionEntry :=
  ⟨js "judged", hour hours, some engine, none, none, none, none, none, none⟩

def shippedAt (hours engine : JsString) : DecisionEntry :=
  { judgedAt hours engine with
    verdict := some (js "ship"), detail := some (js "would-merge")
    judgeAttestation := some (Sha256.digest (utf8Encode engine))
    judgeAttestationIntent := some (js "would-merge")
    judgeAttestationIssuedAt := some (hour hours) }

def refusal : DecisionEntry :=
  { judgedAt (js "08") (js "grok-cli:grok-4.7") with verdict := some (js "noship") }

/-- Grok rejects, then its next call fails, and two other families ship. -/
def outvoted : List DecisionEntry :=
  [refusal, { judgedAt (js "09") (js "grok-cli:grok-4.7") with
      detail := some (js "judge-network-failure") },
    shippedAt (js "10") (js "claude-opus-4-8"), shippedAt (js "11") (js "codex:gpt-5.5")]

def outvotedHost : JudgeHost where
  scrubSecrets := id
  parseDate text := List.lookup text [(hour (js "08"), 1790841600000),
    (hour (js "09"), 1790845200000), (hour (js "10"), 1790848800000),
    (hour (js "11"), 1790852400000)]
  signJudgeAttestation params := .ok (Sha256.digest (utf8Encode params.judgeEngine))
  evaluateEliteDirect _ := none

def outvotedInput : G6Input :=
  ⟨js "p-1", some (js "devin:fast"), js "diff", some outvoted, 1790856000000, none⟩

/-- Only the rejection. -/
def refusedInput : G6Input := { outvotedInput with decisions := some [refusal] }

theorem judgeGate_iff_refused : JudgeGateLaw outvotedHost refusedInput [refusal] := by
  have rejects : refusal.rejects outvotedHost refusedInput (ruleInputs refusedInput) = true ∧
      newestCounted refusedInput (judgedDecisions outvotedHost [refusal]) .xai = some refusal ∧
      newestOf (judgedDecisions outvotedHost [refusal]) .xai = some refusal := by
    decide +kernel
  have counted : SomeRejects outvotedHost refusedInput (ruleInputs refusedInput)
      (newestCounted refusedInput (judgedDecisions outvotedHost [refusal])) :=
    ⟨.xai, refusal, rejects.2.1, rejects.1⟩
  have newest : SomeRejects outvotedHost refusedInput (ruleInputs refusedInput)
      (newestOf (judgedDecisions outvotedHost [refusal])) :=
    ⟨.xai, refusal, rejects.2.2, rejects.1⟩
  exact (judgeGate_iff rfl rfl).mpr fun _ =>
    ⟨fun _ => newest, fun none => absurd counted none, fun _ none => absurd newest none⟩

theorem rejection_outvoted :
    (evaluateG6 outvotedHost outvotedInput).verdict = .pass ∧
      ¬ JudgeGateLaw outvotedHost outvotedInput outvoted := by
  have computed : (evaluateG6 outvotedHost outvotedInput).verdict = .pass ∧
      newestCounted outvotedInput (judgedDecisions outvotedHost outvoted) .xai = some refusal ∧
      refusal.rejects outvotedHost outvotedInput (ruleInputs outvotedInput) = true ∧
      requiresTwoJudges (producerModelFamily outvotedInput.producerModel) = true := by
    decide +kernel
  obtain ⟨passes, newest, rejects, twoJudges⟩ := computed
  refine ⟨passes, fun law => ?_⟩
  unfold JudgeGateLaw at law
  rw [if_pos twoJudges] at law
  exact (law.1.mp passes).2 ⟨.xai, refusal, newest, rejects⟩

end AshlrHub.MergeGates
