import AshlrHub.Vision.MissionRun
import AshlrHub.Universe.CanonicalTies
import AshlrHub.Vision.MissionDigest

namespace AshlrHub.Vision

open Js Lib

/-! The projection of a validated graph is the closure of its dependencies. -/

variable {unicode : Normalization} {hash : Bytes → JsString} {graph : EcosystemMissionGraphV1}
  {observations others : List MissionNodeObservation}

def observationOf (observations : List MissionNodeObservation) (key : JsString) :
    Option MissionNodeObservation :=
  observations.find? fun observation => observation.nodeKey = key

def answerOf (graph : EcosystemMissionGraphV1) (projections : Projections) :
    MissionGraphProjection :=
  let nodes := graph.nodes.filterMap fun node => projections.get? node.key
  let counts := fun status => (nodes.filter fun node => node.status = status).length
  { graphDigest := graph.graphDigest
    status := missionStatus counts nodes.length
    counts
    nodes }

variable {nodes : List EcosystemMissionGraphNodeV1}

theorem nodesByKey_eq (sound : Sound nodes) :
    nodesByKey nodes = pendingAfter nodes [] := by
  have entries : nodesByKey nodes = nodes.map fun node => (node.key, node) := by
    apply JsMap.ofEntries_eq
    rw [List.map_map]
    exact sound.once
  rw [entries, pendingAfter]
  simp

theorem project_eq_ok (valid : validateEcosystemMissionGraph unicode hash graph = [])
    (accepted : Accepted graph.nodes observations) :
    ∃ order, Ranked (dependenciesOf graph.nodes) [] order ∧
      (∀ key, key ∈ order ↔ key ∈ graph.nodes.map (·.key)) ∧
      projectRounds (observationOf observations) graph.nodes.length (nodesByKey graph.nodes) [] =
        some (projectionsAlong graph.nodes (observationOf observations) order) ∧
      projectEcosystemMissionGraph unicode hash graph observations =
        .ok (answerOf graph (projectionsAlong graph.nodes (observationOf observations) order)) := by
  have sound := validated_sound valid
  have seen : (takeObservations graph.nodes observations).2.get? = observationOf observations := by
    funext key
    exact observed_get? accepted
  obtain ⟨order, ranked, all, result⟩ :=
    @projectRounds_ranked graph.nodes (observationOf observations) sound graph.nodes.length []
      (by rw [pendingAfter, List.length_map]; exact List.length_filter_le _ _) trivial
      (fun _ member => by cases member)
  rw [← nodesByKey_eq sound] at result
  refine ⟨order, ranked, all, result, ?_⟩
  unfold projectEcosystemMissionGraph
  dsimp only
  rw [valid, accepted_iff.mpr accepted, if_neg (by simp), seen]
  have start : JsMap.fillAlong (projectKey graph.nodes (observationOf observations)) []
      ([] : Projections) = [] := rfl
  rw [start] at result
  rw [result]
  rfl

theorem Accepted.perm (accepted : Accepted nodes observations) (perm : observations.Perm others) :
    Accepted nodes others where
  known observation member := accepted.known observation (perm.mem_iff.mpr member)
  once := (perm.map _).nodup_iff.mp accepted.once

theorem observationOf_perm (accepted : Accepted nodes observations)
    (perm : observations.Perm others) :
    observationOf others = observationOf observations := by
  funext key
  ext observation
  rw [observationOf, observationOf, find?_eq_some_of_key (accepted.perm perm).once,
    find?_eq_some_of_key accepted.once, perm.mem_iff]

structure FollowsClosure (nodes : List EcosystemMissionGraphNodeV1)
    (observations : List MissionNodeObservation) (projected : List MissionNodeProjection)
    (node : MissionNodeProjection) : Prop where
  complete : node.status = .complete ↔ ∀ key,
    Relation.ReflTransGen (DependsOn nodes) node.key key → Fulfilled nodes observations key
  blocked : node.status = .blocked ↔ ∃ other ∈ projected,
    Relation.TransGen (DependsOn nodes) node.key other.key ∧ other.status ≠ .complete

theorem answerOf_follows {order : List JsString} (sound : Sound graph.nodes)
    (accepted : Accepted graph.nodes observations)
    (ranked : Ranked (dependenciesOf graph.nodes) [] order)
    (all : ∀ key, key ∈ order ↔ key ∈ graph.nodes.map (·.key)) :
    (answerOf graph (projectionsAlong graph.nodes (observationOf observations) order)).nodes.map
        (·.key) = graph.nodes.map (·.key) ∧
      ∀ node ∈ (answerOf graph
        (projectionsAlong graph.nodes (observationOf observations) order)).nodes,
        FollowsClosure graph.nodes observations (answerOf graph
          (projectionsAlong graph.nodes (observationOf observations) order)).nodes node := by
  have projected : (answerOf graph
      (projectionsAlong graph.nodes (observationOf observations) order)).nodes =
        graph.nodes.map (projectNode (observationOf observations)
          (projectionsAlong graph.nodes (observationOf observations) order)) := by
    rw [answerOf, ← List.filterMap_eq_map]
    apply List.filterMap_congr
    intro node member
    exact projectionsAlong_node sound ranked all member
  have complete : ∀ node ∈ graph.nodes,
      ((projectNode (observationOf observations)
        (projectionsAlong graph.nodes (observationOf observations) order) node).status =
          .complete ↔ ∀ key, Relation.ReflTransGen (DependsOn graph.nodes) node.key key →
            Fulfilled graph.nodes observations key) := by
    intro node member
    have whole := complete_iff sound accepted ranked all (fun _ => rfl)
      ((all node.key).mpr (List.mem_map_of_mem member))
    rw [← whole, statusIn, projectionsAlong_node sound ranked all member]
    exact Option.some_inj.symm
  rw [projected]
  refine ⟨by rw [List.map_map]; rfl, fun shown listed => ?_⟩
  obtain ⟨node, member, rfl⟩ := List.mem_map.mp listed
  refine ⟨complete node member, ?_⟩
  rw [blocked_iff]
  constructor
  · rintro ⟨dependency, depends, open_⟩
    obtain ⟨other, present, rfl⟩ := List.mem_map.mp (sound.resolved node member dependency depends)
    rw [statusIn, projectionsAlong_node sound ranked all present] at open_
    refine ⟨_, List.mem_map_of_mem present, ?_, fun same => open_ (congrArg some same)⟩
    exact .single ((dependsOn_iff sound.once).mpr ⟨node, member, rfl, depends⟩)
  · rintro ⟨shown, present, path, open_⟩
    obtain ⟨other, there, rfl⟩ := List.mem_map.mp present
    obtain ⟨next, first, rest⟩ := Relation.TransGen.head'_iff.mp path
    have depends : next ∈ dependenciesOf graph.nodes node.key :=
      (mem_dependenciesOf sound).mpr first
    rw [dependenciesOf_eq sound member] at depends
    refine ⟨next, depends, fun done => open_ ((complete other there).mpr fun key further => ?_)⟩
    obtain ⟨between, inside, rfl⟩ := List.mem_map.mp (sound.resolved node member next depends)
    exact (complete_iff sound accepted ranked all (fun _ => rfl)
      ((all _).mpr (List.mem_map_of_mem inside))).mp done key (rest.trans further)

/-- What `cycleMembers` keeps is what reaches a cycle, and the projection of a validated graph
always comes to its end, follows the closure of the dependencies and no order of observations. -/
theorem missionProjection_closure :
    (∀ nodes : List EcosystemMissionGraphNodeV1,
      (cycleMembers nodes = [] ↔ ∀ key, ¬ Relation.TransGen (DependsOn nodes) key key) ∧
      ∀ key, key ∈ cycleMembers nodes ↔ ReachesCycle (DependsOn nodes) key) ∧
    (validateEcosystemMissionGraph unicode hash graph = [] →
      (takeObservations graph.nodes observations).1 = [] →
      ∃ projection, projectEcosystemMissionGraph unicode hash graph observations = .ok projection ∧
        projection.nodes.map (·.key) = graph.nodes.map (·.key) ∧
        (∀ node ∈ projection.nodes, FollowsClosure graph.nodes observations projection.nodes node) ∧
        ∀ others, observations.Perm others →
          projectEcosystemMissionGraph unicode hash graph others = .ok projection) := by
  refine ⟨fun nodes => ⟨cycleMembers_eq_nil, fun _ => mem_cycleMembers⟩, fun valid accepted => ?_⟩
  have taken := accepted_iff.mp accepted
  obtain ⟨order, ranked, all, rounds, answer⟩ := project_eq_ok valid taken
  obtain ⟨keys, follows⟩ := answerOf_follows (validated_sound valid) taken ranked all
  refine ⟨_, answer, keys, follows, fun others perm => ?_⟩
  obtain ⟨_, _, _, again, other⟩ := project_eq_ok valid (taken.perm perm)
  rw [observationOf_perm taken perm, rounds, Option.some_inj] at again
  rw [other, observationOf_perm taken perm, ← again]

/-! A work node and the gate behind it. -/

def plainTexts : Normalization where
  nfc text := text
  idempotent _ := rfl
  ascii _ _ := rfl

def buildNode : EcosystemMissionGraphNodeV1 where
  kind := .work
  key := js "build"
  title := js "Build"
  objective := js "Build the hub"
  deliverable := js "A build"
  riskClass := .low
  repo := some (js "/srv/hub")
  dependsOn := []
  acceptance := [js "Builds"]
  outcomeContract := none

def reviewNode : EcosystemMissionGraphNodeV1 where
  kind := .humanGate
  key := js "review"
  title := js "Review"
  objective := js "Review the build"
  deliverable := js "A verdict"
  riskClass := .low
  repo := none
  dependsOn := [js "build"]
  acceptance := [js "Approved"]
  outcomeContract := none

def reviewedBase : EcosystemMissionGraphV1 where
  graphDigest := []
  missionKey := js "ship"
  title := js "Ship"
  objective := js "Ship the hub"
  createdAt := js "2024-01-01T00:00:00.000Z"
  nodes := [buildNode, reviewNode]

def withDigest (unicode : Normalization) (hash : Bytes → JsString)
    (graph : EcosystemMissionGraphV1) : EcosystemMissionGraphV1 :=
  { graph with graphDigest := (ecosystemMissionGraphDigest unicode hash graph).getD [] }

theorem validate_withDigest (bounded : unboundedNodes graph.nodes.length = false)
    (mission : missionIssues unicode graph.missionKey graph.title graph.objective
      graph.createdAt = [])
    (clean : graphIssues unicode graph = []) :
    validateEcosystemMissionGraph unicode hash (withDigest unicode hash graph) = [] := by
  rw [validate_eq_nil]
  refine ⟨bounded, mission, clean, ?_⟩
  cases digest : ecosystemMissionGraphDigest unicode hash graph with
  | none =>
      have written : (canonicalJson unicode (graphDigestPayload graph)).isSome := by
        simp only [graphIssues, List.append_eq_nil_iff] at clean
        have sized := clean.2
        unfold sizeIssues at sized
        cases text : canonicalJson unicode (graphDigestPayload graph) with
        | none =>
            rw [text] at sized
            cases sized
        | some _ => rfl
      rw [ecosystemMissionGraphDigest, Option.map_eq_none_iff] at digest
      rw [digest] at written
      cases written
  | some text =>
      rw [withDigest, digest]
      exact digest

theorem missionProjection_closure_reviewed :
    (∀ key, ¬ Relation.TransGen (DependsOn reviewedBase.nodes) key key) ∧ ∃ projection,
    projectEcosystemMissionGraph plainTexts Sha256.digest
      (withDigest plainTexts Sha256.digest reviewedBase)
      [⟨js "build", some .realized, none⟩] = .ok projection ∧
    projection.nodes.map (·.key) = [js "build", js "review"] ∧
    ∀ node ∈ projection.nodes, FollowsClosure reviewedBase.nodes
      [⟨js "build", some .realized, none⟩] projection.nodes node := by
  have sound : missionIssues plainTexts reviewedBase.missionKey reviewedBase.title
        reviewedBase.objective reviewedBase.createdAt = [] ∧
      graphIssues plainTexts reviewedBase = [] ∧
      (takeObservations (withDigest plainTexts Sha256.digest reviewedBase).nodes
        [⟨js "build", some .realized, none⟩]).1 = [] := by
    decide +kernel
  obtain ⟨cycles, closed⟩ := @missionProjection_closure plainTexts Sha256.digest
    (withDigest plainTexts Sha256.digest reviewedBase) [⟨js "build", some .realized, none⟩]
  obtain ⟨projection, answer, keys, follows, -⟩ :=
    closed (validate_withDigest rfl sound.1 sound.2.1) sound.2.2
  exact ⟨(cycles reviewedBase.nodes).1.mp (by decide +kernel), projection, answer, keys, follows⟩

/-! Compiler, digest and validator of mission graphs together. -/

variable {unicode : Normalization} {hash : Bytes → JsString} {input other : MissionGraphInput}
  {enrolledRepos others : List JsString} {first second : EcosystemMissionGraphV1}

def digestBytes (unicode : Normalization) (graph : EcosystemMissionGraphV1) : Option Bytes :=
  (canonicalJson unicode (graphDigestPayload graph)).map utf8Encode

theorem alike_of_digest {considered : Set Bytes} (injective : Set.InjOn hash considered)
    (inside : ∀ bytes, digestBytes unicode first = some bytes → bytes ∈ considered)
    (otherInside : ∀ bytes, digestBytes unicode second = some bytes → bytes ∈ considered)
    {digest : JsString} (own : ecosystemMissionGraphDigest unicode hash first = some digest)
    (same : ecosystemMissionGraphDigest unicode hash second = some digest) :
    Alike unicode (graphDigestPayload first) (graphDigestPayload second) := by
  obtain ⟨text, written, rfl⟩ := Option.map_eq_some_iff.mp own
  obtain ⟨otherText, otherWritten, digests⟩ := Option.map_eq_some_iff.mp same
  have bytes := injective
    (otherInside _ (by rw [digestBytes, otherWritten]; rfl))
    (inside _ (by rw [digestBytes, written]; rfl)) digests
  obtain ⟨canonical, made, rfl⟩ := Option.map_eq_some_iff.mp written
  obtain ⟨otherCanonical, otherMade, rfl⟩ := Option.map_eq_some_iff.mp otherWritten
  have texts : writeValue otherCanonical = writeValue canonical := by
    have read := congrArg utf8Decode bytes
    rwa [utf8Decode_writeValue, utf8Decode_writeValue] at read
  have equal := writeValue_inj (isJson_canonicalize _ otherMade) (isJson_canonicalize _ made) texts
  exact ⟨canonical, made, equal ▸ otherMade⟩

theorem mission_ascii {missionKey title objective createdAt : JsString}
    (clean : missionIssues unicode missionKey title objective createdAt = []) :
    IsAscii missionKey ∧ IsAscii createdAt := by
  simp only [missionIssues, List.append_eq_nil_iff] at clean
  obtain ⟨⟨⟨key, _⟩, _⟩, time⟩ := clean
  constructor
  · apply isAscii_of_validKey
    by_contra invalid
    rw [if_neg invalid] at key
    cases key
  · apply isAscii_of_validTimestamp
    by_contra invalid
    rw [if_neg invalid] at time
    cases time

theorem graphsAlike_of_digest {considered : Set Bytes} (injective : Set.InjOn hash considered)
    (inside : ∀ bytes, digestBytes unicode first = some bytes → bytes ∈ considered)
    (otherInside : ∀ bytes, digestBytes unicode second = some bytes → bytes ∈ considered)
    (valid : validateEcosystemMissionGraph unicode hash first = [])
    (otherValid : validateEcosystemMissionGraph unicode hash second = [])
    (same : first.graphDigest = second.graphDigest) : GraphsAlike unicode first second := by
  obtain ⟨_, mission, _, digest⟩ := validate_eq_nil.mp valid
  obtain ⟨_, otherMission, _, otherDigest⟩ := validate_eq_nil.mp otherValid
  obtain ⟨key, time⟩ := mission_ascii mission
  obtain ⟨otherKey, otherTime⟩ := mission_ascii otherMission
  exact graphsAlike (validated_sound valid) (validated_sound otherValid) key otherKey time otherTime
    (alike_of_digest injective inside otherInside digest (same ▸ otherDigest))

/-- What the compiler accepts validates, in whatever order it is put; and a digest stands for
one mission, up to order and normal form. -/
theorem missionGraph_identity {considered : Set Bytes} (injective : Set.InjOn hash considered) :
    (∀ input enrolledRepos graph,
      compileEcosystemMissionGraph unicode hash input enrolledRepos = .ok graph →
      validateEcosystemMissionGraph unicode hash graph = [] ∧
      ∀ other others, MissionGraphInput.SameUpToOrder input other → enrolledRepos.Perm others →
        compileEcosystemMissionGraph unicode hash other others = .ok graph) ∧
    ∀ first second, validateEcosystemMissionGraph unicode hash first = [] →
      validateEcosystemMissionGraph unicode hash second = [] →
      (∀ bytes, digestBytes unicode first = some bytes → bytes ∈ considered) →
      (∀ bytes, digestBytes unicode second = some bytes → bytes ∈ considered) →
      first.graphDigest = second.graphDigest → GraphsAlike unicode first second := by
  refine ⟨fun input enrolledRepos graph compiled => ⟨validate_of_compile compiled,
    fun other others same perm => compile_of_same same perm compiled⟩, ?_⟩
  intro first second valid otherValid inside otherInside same
  exact graphsAlike_of_digest injective inside otherInside valid otherValid same

/-! Two spellings of one title. -/

theorem composeAcute_head {text : JsString}
    (starts : (Artifacts.composeAcute text).head? = some 0x301) :
    text.head? = some 0x301 := by
  unfold Artifacts.composeAcute at starts
  split at starts
  · cases starts
  · exact starts
  · cases starts

theorem composeAcute_cons {unit : CodeUnit} {rest : JsString}
    (apart : ∀ tail, unit = 0x65 → rest = 0x301 :: tail → False) :
    Artifacts.composeAcute (unit :: rest) = unit :: Artifacts.composeAcute rest := by
  rw [Artifacts.composeAcute]
  exact apart

theorem composeAcute_idempotent (text : JsString) :
    Artifacts.composeAcute (Artifacts.composeAcute text) = Artifacts.composeAcute text := by
  induction text using Artifacts.composeAcute.induct with
  | case1 rest ih =>
      rw [Artifacts.composeAcute, composeAcute_cons (fun _ impossible => by cases impossible), ih]
  | case2 unit rest apart ih =>
      rw [composeAcute_cons apart, composeAcute_cons, ih]
      intro tail letter starts
      cases rest with
      | nil => cases starts
      | cons next rest =>
          have head := @composeAcute_head (next :: rest) (by rw [starts]; rfl)
          rw [List.head?_cons, Option.some_inj] at head
          exact apart rest letter (by rw [head])
  | case3 => rfl

theorem composeAcute_ascii (text : JsString) (ascii : IsAscii text) :
    Artifacts.composeAcute text = text := by
  induction text using Artifacts.composeAcute.induct with
  | case1 rest ih => exact absurd (ascii 0x301 (by simp)) (by decide)
  | case2 unit rest apart ih =>
      rw [composeAcute_cons apart, ih fun other member => ascii other
        (List.mem_cons_of_mem _ member)]
  | case3 => rfl

def acuteTexts : Normalization where
  nfc := Artifacts.composeAcute
  idempotent := composeAcute_idempotent
  ascii := composeAcute_ascii

def titledBase (title : JsString) : EcosystemMissionGraphV1 :=
  { reviewedBase with title }

def titled (title : JsString) : EcosystemMissionGraphV1 :=
  withDigest acuteTexts Sha256.digest (titledBase title)

def soundTitle (title : JsString) : Prop :=
  missionIssues acuteTexts reviewedBase.missionKey title reviewedBase.objective
      reviewedBase.createdAt = [] ∧
    graphIssues acuteTexts (titledBase title) = []
deriving Decidable

theorem titled_alike :
    canonicalJson acuteTexts (graphDigestPayload (titledBase [0xE9])) =
        canonicalJson acuteTexts (graphDigestPayload (titledBase [0x65, 0x301])) ∧
      soundTitle [0xE9] ∧ soundTitle [0x65, 0x301] := by
  decide +kernel

theorem titled_digest : (titled [0xE9]).graphDigest = (titled [0x65, 0x301]).graphDigest := by
  unfold titled withDigest ecosystemMissionGraphDigest
  dsimp only
  rw [titled_alike.1]

theorem titled_valid {title : JsString} (sound : soundTitle title) :
    validateEcosystemMissionGraph acuteTexts Sha256.digest (titled title) = [] :=
  validate_withDigest rfl sound.1 sound.2

theorem titled_sameDigest :
    validateEcosystemMissionGraph acuteTexts Sha256.digest (titled [0xE9]) = [] ∧
    validateEcosystemMissionGraph acuteTexts Sha256.digest (titled [0x65, 0x301]) = [] ∧
    (titled [0xE9]).graphDigest = (titled [0x65, 0x301]).graphDigest ∧
    (titled [0xE9]).title ≠ (titled [0x65, 0x301]).title :=
  ⟨titled_valid titled_alike.2.1, titled_valid titled_alike.2.2, titled_digest,
    (by decide : ([0xE9] : JsString) ≠ [0x65, 0x301])⟩

def asked (node : EcosystemMissionGraphNodeV1) : MissionGraphNodeInput :=
  { node with targetRepo := node.repo, dependsOn := some node.dependsOn, outcomeContract := none }

def shipInput (nodes : List EcosystemMissionGraphNodeV1) : MissionGraphInput :=
  { reviewedBase with nodes := nodes.map asked }

theorem asked_same (node : EcosystemMissionGraphNodeV1) : (asked node).SameUpToOrder (asked node) :=
  ⟨rfl, rfl, rfl, rfl, rfl, rfl, rfl, .some (.refl _), .refl _, .none⟩

theorem shipInput_swap (one two : EcosystemMissionGraphNodeV1) :
    (shipInput [one, two]).SameUpToOrder (shipInput [two, one]) :=
  ⟨rfl, rfl, rfl, rfl, _, .swap _ _ _, .cons (asked_same two) (.cons (asked_same one) .nil)⟩

theorem missionGraph_identity_titled :
    (∃ graph, compileEcosystemMissionGraph acuteTexts Sha256.digest
        (shipInput [reviewNode, buildNode]) [js "/srv/hub"] = .ok graph ∧
      validateEcosystemMissionGraph acuteTexts Sha256.digest graph = [] ∧
      compileEcosystemMissionGraph acuteTexts Sha256.digest
        (shipInput [buildNode, reviewNode]) [js "/srv/hub"] = .ok graph) ∧
    GraphsAlike acuteTexts (titled [0xE9]) (titled [0x65, 0x301]) := by
  have bytes : digestBytes acuteTexts (titled [0xE9]) =
      digestBytes acuteTexts (titled [0x65, 0x301]) := by
    unfold digestBytes
    exact congrArg (Option.map utf8Encode) titled_alike.1
  have injective : Set.InjOn Sha256.digest
      {input | digestBytes acuteTexts (titled [0xE9]) = some input} :=
    fun _ inside _ also _ => Option.some_inj.mp (Eq.trans (Eq.symm inside) also)
  obtain ⟨compiler, digests⟩ := @missionGraph_identity acuteTexts Sha256.digest _ injective
  constructor
  · cases compiled : compileEcosystemMissionGraph acuteTexts Sha256.digest
        (shipInput [reviewNode, buildNode]) [js "/srv/hub"] with
    | error issues =>
        have accepted : (compileEcosystemMissionGraph acuteTexts Sha256.digest
          (shipInput [reviewNode, buildNode]) [js "/srv/hub"]).isOk = true := by decide +kernel
        rw [compiled] at accepted
        cases accepted
    | ok graph =>
        obtain ⟨valid, ordered⟩ := compiler _ _ graph compiled
        exact ⟨graph, rfl, valid, ordered _ _ (shipInput_swap _ _) (.refl _)⟩
  · exact digests (titled [0xE9]) (titled [0x65, 0x301]) (titled_valid titled_alike.2.1)
      (titled_valid titled_alike.2.2) (fun _ told => told) (fun _ told => bytes.trans told)
      titled_digest

end AshlrHub.Vision
