import AshlrHub.Js.MapMerge
import AshlrHub.Universe.CampaignStore

namespace AshlrHub.Universe

open Js Artifacts Authority Lib

/-! Portfolios: enrolled campaigns and their ordering, and the plan of their deliveries. -/

structure UniversePortfolioTask where
  campaignId : JsString
  dependsOn : List JsString
deriving DecidableEq

structure UniversePortfolioDefinition where
  id : JsString
  tasks : List UniversePortfolioTask
  maxParallel : ℕ
  maxDurationMs : ℕ
deriving DecidableEq

/-- A delivery row; `allowInitialRepair` is there with `true` or not at all. -/
structure UniverseCampaignDelivery where
  campaignId : JsString
  branch : JsString
  baseCommit : JsString
  allowInitialRepair : Bool
deriving DecidableEq

structure UniverseCampaignDeliveryPlan where
  deliveries : List UniverseCampaignDelivery
deriving DecidableEq

def UniversePortfolioTask.json (task : UniversePortfolioTask) : JsValue :=
  .obj [(js "campaignId", .str task.campaignId), (js "dependsOn", texts task.dependsOn)]

def UniversePortfolioDefinition.json (definition : UniversePortfolioDefinition) : JsValue :=
  .obj [(js "schemaVersion", count 1), (js "id", .str definition.id),
    (js "tasks", .arr (definition.tasks.map (·.json))),
    (js "maxParallel", count definition.maxParallel),
    (js "maxDurationMs", count definition.maxDurationMs)]

def UniverseCampaignDelivery.json (row : UniverseCampaignDelivery) : JsValue :=
  .obj ([(js "campaignId", .str row.campaignId), (js "branch", .str row.branch),
    (js "baseCommit", .str row.baseCommit)] ++
      if row.allowInitialRepair then [(js "allowInitialRepair", .bool true)] else [])

def UniverseCampaignDeliveryPlan.json (plan : UniverseCampaignDeliveryPlan) : JsValue :=
  .obj [(js "schemaVersion", count 1), (js "deliveries", .arr (plan.deliveries.map (·.json)))]

/-! Checks. -/

def maxTasks : ℕ := 64

inductive PortfolioError where
  | unbounded
  | tasks
  | dependencies
  | unenrolled
  | cycle
  | deliveryPlan
deriving DecidableEq

def PortfolioError.message : PortfolioError → JsString
  | .unbounded =>
      js "Invalid Universe portfolio: bounded identity, explicit tasks, concurrency and duration required"
  | .tasks =>
      js "Invalid Universe portfolio: unique campaign tasks and bounded dependencies required"
  | .dependencies => js "Invalid Universe portfolio: unique non-self dependencies required"
  | .unenrolled => js "Invalid Universe portfolio: dependency must name an enrolled campaign"
  | .cycle => js "Invalid Universe portfolio: dependency cycle"
  | .deliveryPlan => js "Invalid campaign delivery plan"

def dependantsOf (tasks : List UniversePortfolioTask) (campaignId : JsString) : List JsString :=
  (tasks.filter fun task => task.dependsOn.contains campaignId).map (·.campaignId)

def orderFrom (tasks : List UniversePortfolioTask) :
    ℕ → JsMap JsString ℤ → List JsString → Except PortfolioError (List JsString)
  | 0, _, ordered => .ok ordered
  | left + 1, remaining, ordered =>
      match tasks.find? fun task => remaining.get? task.campaignId = some 0 with
      | none => .error .cycle
      | some task =>
          orderFrom tasks left
            ((dependantsOf tasks task.campaignId).foldl
              (fun remaining dependant =>
                remaining.set dependant ((remaining.get? dependant).getD 0 - 1))
              (remaining.delete task.campaignId))
            (ordered ++ [task.campaignId])

/-- Kahn's ordering; every choice prefers the earliest declared task. -/
def topologicalOrder (tasks : List UniversePortfolioTask) :
    Except PortfolioError (List JsString) :=
  orderFrom tasks tasks.length
    (JsMap.ofEntries (tasks.map fun task => (task.campaignId, (task.dependsOn.length : ℤ)))) []

def enrolTask (known : List JsString) (task : UniversePortfolioTask) :
    Except PortfolioError (List JsString) :=
  if !idPattern task.campaignId || known.contains task.campaignId ||
      maxTasks ≤ task.dependsOn.length then .error .tasks
  else if !(task.dependsOn.all fun dependency =>
      idPattern dependency && dependency ≠ task.campaignId) || !decide task.dependsOn.Nodup then
    .error .dependencies
  else .ok (known ++ [task.campaignId])

def validateUniversePortfolioDefinition (definition : UniversePortfolioDefinition) :
    Except PortfolioError UniversePortfolioDefinition := do
  if !idPattern definition.id || definition.tasks.length < 1 ||
      maxTasks < definition.tasks.length || definition.maxParallel < 1 ||
      8 < definition.maxParallel || definition.maxDurationMs < 1 ||
      86400000 < definition.maxDurationMs then
    throw .unbounded
  let known ← definition.tasks.foldlM enrolTask []
  if definition.tasks.any fun task => task.dependsOn.any fun dependency =>
      !known.contains dependency then
    throw .unenrolled
  let _ ← topologicalOrder definition.tasks
  pure definition

/-- `text.includes(part)` -/
def includes (part text : JsString) : Bool :=
  text.tails.any part.isPrefixOf

def validUniverseDeliveryBranch (branch : JsString) : Bool :=
  branch.length ≤ 192 && (js "codex/").isPrefixOf branch &&
    !(branch.any fun unit =>
      unit.toNat ≤ 32 || unit.toNat = 127 || (js "~^:?*[\\").contains unit) &&
    !includes (js "..") branch && !includes (js "@\x7b") branch && !(js ".").isSuffixOf branch &&
    (branch.splitOn 0x2F).all fun part =>
      part ≠ [] && !(js ".").isPrefixOf part && !(js ".lock").isSuffixOf part

def planRow (ids seen : List JsString) (row : UniverseCampaignDelivery) :
    Except PortfolioError (List JsString) :=
  if !ids.contains row.campaignId || seen.contains row.campaignId ||
      !validUniverseDeliveryBranch row.branch ||
      !(isHexOfLength 40 row.baseCommit || isHexOfLength 64 row.baseCommit) then
    .error .deliveryPlan
  else .ok (seen ++ [row.campaignId])

def validateUniverseCampaignDeliveryPlan (plan : UniverseCampaignDeliveryPlan)
    (ids : List JsString) : Except PortfolioError UniverseCampaignDeliveryPlan := do
  if plan.deliveries.length < 1 || 32 < plan.deliveries.length then throw .deliveryPlan
  let _ ← plan.deliveries.foldlM (planRow ids) []
  pure plan

/-! What a validated definition has. -/

theorem enrolTask_eq_ok {known next : List JsString} {task : UniversePortfolioTask}
    (enrolled : enrolTask known task = .ok next) :
    task.campaignId ∉ known ∧ next = known ++ [task.campaignId] := by
  unfold enrolTask at enrolled
  split_ifs at enrolled with refused
  cases enrolled
  simp only [Bool.or_eq_true, List.contains_eq_mem, decide_eq_true_eq, not_or] at refused
  exact ⟨refused.1.2, rfl⟩

theorem foldlM_enrolTask : {tasks : List UniversePortfolioTask} → {known all : List JsString} →
    known.Nodup → tasks.foldlM enrolTask known = .ok all →
    all.Nodup ∧ all = known ++ tasks.map (·.campaignId)
  | [], known, all, once, folded => by
      cases folded
      exact ⟨once, (List.append_nil _).symm⟩
  | task :: tasks, known, all, once, folded => by
      rw [List.foldlM_cons] at folded
      obtain ⟨next, enrolled, rest⟩ := bind_eq_ok.mp folded
      obtain ⟨new, rfl⟩ := enrolTask_eq_ok enrolled
      have more : (known ++ [task.campaignId]).Nodup := by
        rw [List.nodup_append]
        refine ⟨once, List.nodup_singleton _, ?_⟩
        rintro old member other here rfl
        rw [List.mem_singleton.mp here] at member
        exact new member
      obtain ⟨apart, spelled⟩ := foldlM_enrolTask more rest
      exact ⟨apart, by rw [spelled, List.append_assoc]; rfl⟩

structure Portfolio.Sound (definition : UniversePortfolioDefinition) : Prop where
  once : (definition.tasks.map (·.campaignId)).Nodup
  enrolled : ∀ task ∈ definition.tasks, ∀ dependency ∈ task.dependsOn,
    dependency ∈ definition.tasks.map (·.campaignId)
  parallel : definition.maxParallel ≤ 8
  bounded : definition.tasks.length ≤ maxTasks

theorem validateUniversePortfolioDefinition_sound {definition checked : UniversePortfolioDefinition}
    (valid : validateUniversePortfolioDefinition definition = .ok checked) :
    checked = definition ∧ Portfolio.Sound definition := by
  unfold validateUniversePortfolioDefinition at valid
  obtain ⟨bounds, checkedTasks⟩ := refuse_eq_ok.mp valid
  obtain ⟨known, folded, checkedKnown⟩ := bind_eq_ok.mp checkedTasks
  obtain ⟨closed, orderable⟩ := refuse_eq_ok.mp checkedKnown
  obtain ⟨_, _, answered⟩ := bind_eq_ok.mp orderable
  obtain ⟨once, spelled⟩ := foldlM_enrolTask List.nodup_nil folded
  rw [List.nil_append] at spelled
  subst spelled
  simp only [Bool.or_eq_true, decide_eq_true_eq, not_or, not_lt] at bounds
  refine ⟨(pure_eq_ok.mp answered).symm, once, ?_, bounds.1.1.2, bounds.1.1.1.1.2⟩
  intro task member dependency inside
  by_contra absent
  apply closed
  rw [List.any_eq_true]
  refine ⟨task, member, ?_⟩
  rw [List.any_eq_true]
  exact ⟨dependency, inside, by simpa using absent⟩

open Campaign

/-! The plan of a portfolio: what each campaign is in itself, what its dependencies make of it,
and the graph of the causes. -/

structure UniverseCampaignSummary where
  definition : UniverseCampaignDefinition
  definitionDigest : JsString
  manifestDigest : JsString
  comparatorDigest : JsString
  state : CampaignState
  /-- `sourceState === 'healthy'` -/
  healthy : Bool
  reasons : List JsString

inductive PortfolioNodeState where
  | ready
  | waiting
  | completed
  | blocked
  | busy
  | unavailable
deriving DecidableEq

structure NodeStatus where
  state : PortfolioNodeState
  reason : Option JsString

structure UniversePortfolioPlanNode where
  campaignId : JsString
  dependsOn : List JsString
  universeId : Option JsString
  campaign : Option UniverseCampaignSummary
  definitionDigest : Option JsString
  manifestDigest : Option JsString
  comparatorDigest : Option JsString
  status : NodeStatus

structure UniversePortfolioGraphNode where
  campaignId : JsString
  state : PortfolioNodeState
  dependsOn : List JsString
  unmetDependencyIds : List JsString
  blockingRootIds : List JsString
  waitingRootIds : List JsString
  structuralDescendantIds : List JsString
  affectedDescendantIds : List JsString
  layer : ℕ

structure UniversePortfolioGraph where
  dependencyReadyCampaignIds : List JsString
  invocationCandidateIds : List JsString
  layers : List (List JsString)
  nodeCount : ℕ
  edgeCount : ℕ
  stateCount : PortfolioNodeState → ℕ
  nodes : List UniversePortfolioGraphNode

structure UniversePortfolioPlan where
  definition : UniversePortfolioDefinition
  definitionDigest : JsString
  sampledAt : JsString
  healthy : Bool
  reasons : List JsString
  nodes : List UniversePortfolioPlanNode
  topologicalOrder : List JsString
  graph : UniversePortfolioGraph

inductive PlanError where
  | definition (error : PortfolioError)
  | sampleTime
deriving DecidableEq

def PlanError.message : PlanError → JsString
  | .definition error => error.message
  | .sampleTime => js "Invalid Universe portfolio sample time"

/-! The campaigns on their own. -/

def campaignStateText : CampaignState → JsString
  | .ready => js "ready"
  | .running => js "running"
  | .pauseRequested => js "pause-requested"
  | .stopRequested => js "stop-requested"
  | .settled state => state.text

def healthyIdentity (keysInOrder : JsString → JsString → Bool) (campaign : UniverseCampaignSummary)
    (campaignId : JsString) : Bool :=
  validateUniverseCampaignDefinition campaign.definition && campaign.healthy &&
    campaign.reasons.isEmpty && campaign.definition.id = campaignId &&
    campaign.definitionDigest = digestOf keysInOrder campaign.definition.json &&
    sha256HexPattern campaign.manifestDigest && sha256HexPattern campaign.comparatorDigest

def observedStatus (state : CampaignState) : NodeStatus :=
  match state with
  | .settled .completed =>
      ⟨.completed, some (js "Campaign completed; ordering satisfied, not an accepted-work claim")⟩
  | .running => ⟨.busy, some (js "Campaign already has an execution owner")⟩
  | .settled .failed => ⟨.blocked, some (js "Campaign is " ++ campaignStateText state)⟩
  | .settled .stopped => ⟨.blocked, some (js "Campaign is " ++ campaignStateText state)⟩
  | .pauseRequested => ⟨.blocked, some (js "Campaign is " ++ campaignStateText state)⟩
  | .stopRequested => ⟨.blocked, some (js "Campaign is " ++ campaignStateText state)⟩
  | _ => ⟨.ready, none⟩

abbrev CampaignSummaries := JsMap JsString (Option UniverseCampaignSummary)

def observeNode (keysInOrder : JsString → JsString → Bool) (campaigns : CampaignSummaries)
    (task : UniversePortfolioTask) : UniversePortfolioPlanNode :=
  let campaign := (campaigns.get? task.campaignId).join
  match campaign.filter fun campaign => healthyIdentity keysInOrder campaign task.campaignId with
  | none =>
      { campaignId := task.campaignId
        dependsOn := task.dependsOn
        universeId := none
        campaign
        definitionDigest := none
        manifestDigest := none
        comparatorDigest := none
        status := ⟨.unavailable, some (js "Campaign evidence is missing or degraded")⟩ }
  | some healthy =>
      { campaignId := task.campaignId
        dependsOn := task.dependsOn
        universeId := some healthy.definition.universeId
        campaign
        definitionDigest := some healthy.definitionDigest
        manifestDigest := some healthy.manifestDigest
        comparatorDigest := some healthy.comparatorDigest
        status := observedStatus healthy.state }

section

variable (nodes : List UniversePortfolioPlanNode)

def universeGroups : JsMap JsString (List JsString) :=
  nodes.foldl (fun groups node =>
    match node.universeId with
    | none => groups
    | some universeId =>
        groups.set universeId ((groups.get? universeId).getD [] ++ [node.campaignId])) []

def sharingCampaigns : List JsString :=
  ((universeGroups nodes).filter fun group => 1 < group.2.length).flatMap (·.2)

def separateUniverses : List UniversePortfolioPlanNode :=
  nodes.map fun node =>
    if (sharingCampaigns nodes).contains node.campaignId then
      { node with
        status := ⟨.blocked, some (js "Portfolio campaigns must use distinct Universes")⟩ }
    else node

def degradations : List JsString :=
  (nodes.filter fun node => node.universeId.isNone).map (fun node => node.campaignId ++
    js ": campaign evidence is missing, degraded, or has inconsistent identity") ++
  (sharingCampaigns nodes).map fun id =>
    id ++ js ": another enrolled campaign uses the same Universe"

def intrinsicNodes (keysInOrder : JsString → JsString → Bool)
    (definition : UniversePortfolioDefinition) (campaigns : CampaignSummaries) :
    List UniversePortfolioPlanNode :=
  separateUniverses (definition.tasks.map (observeNode keysInOrder campaigns))

abbrev Statuses := JsMap JsString NodeStatus

def statusesOf : Statuses :=
  JsMap.ofEntries (nodes.map fun node => (node.campaignId, node.status))

end

def stateIn (statuses : Statuses) (id : JsString) : PortfolioNodeState :=
  ((statuses.get? id).map (·.state)).getD .unavailable

/-! What the dependencies make of a campaign. -/

section

variable (tasks : List UniversePortfolioTask)

def dependenciesOf (id : JsString) : List JsString :=
  ((tasks.find? fun task => task.campaignId = id).map (·.dependsOn)).getD []

def propagate (statuses : Statuses) (id : JsString) : NodeStatus :=
  let status := (statuses.get? id).getD ⟨.unavailable, none⟩
  if status.state ≠ .ready then status
  else
    let states := (dependenciesOf tasks id).map (stateIn statuses)
    if states.any fun state => state = .blocked || state = .unavailable then
      ⟨.blocked, some (js "A campaign dependency is blocked or unavailable")⟩
    else if states.any fun state => state ≠ .completed then
      ⟨.waiting, some (js "Waiting for campaign dependencies to complete")⟩
    else status

/-! The graph. -/

structure Causes where
  unmet : List JsString
  blockingRoots : List JsString
  waitingRoots : List JsString
  /-- A ready campaign is no cause of its own, but one that its dependants wait for. -/
  waitingPropagationRoots : List JsString

/-- `ordered`: each id once, in the order of the topology. -/
def inTopology (order ids : List JsString) : List JsString :=
  ids.eraseDups.insertionSort fun first second => order.idxOf first ≤ order.idxOf second

def causesOf (intrinsic statuses : Statuses)
    (order : List JsString) (known : JsMap JsString Causes) (id : JsString) : Causes :=
  let state := stateIn statuses id
  let dependencies := dependenciesOf tasks id
  let unmet := if state = .completed then []
    else dependencies.filter fun dependency => stateIn statuses dependency ≠ .completed
  let rootsBy (pick : Causes → List JsString) := inTopology order (dependencies.flatMap fun
    dependency => ((known.get? dependency).map pick).getD [])
  let blocking := rootsBy (·.blockingRoots)
  let waiting := rootsBy (·.waitingPropagationRoots)
  if state = .completed then ⟨unmet, [], [], []⟩
  else if stateIn intrinsic id = .blocked ∨ stateIn intrinsic id = .unavailable then
    ⟨unmet, [id], [], []⟩
  else if stateIn intrinsic id = .busy then ⟨unmet, [], [id], [id]⟩
  else if state = .blocked ∨ state = .unavailable then ⟨unmet, blocking, waiting, waiting⟩
  else if state = .waiting then ⟨unmet, [], waiting, waiting⟩
  else ⟨unmet, [], [], [id]⟩

def layerOf (layers : JsMap JsString ℕ) (id : JsString) : ℕ :=
  (dependenciesOf tasks id).foldl
    (fun maximum dependency => max maximum ((layers.get? dependency).getD 0 + 1)) 0

/-- `(layers[layer] ??= []).push(id)` -/
def pushAt (id : JsString) : ℕ → List (List JsString) → List (List JsString)
  | 0, [] => [[id]]
  | 0, layer :: layers => (layer ++ [id]) :: layers
  | depth + 1, [] => [] :: pushAt id depth []
  | depth + 1, layer :: layers => layer :: pushAt id depth layers

def descendantsOf (known : JsMap JsString (List JsString)) (id : JsString) : List JsString :=
  ((dependantsOf tasks id).flatMap fun dependant =>
    dependant :: (known.get? dependant).getD []).eraseDups

def buildUniversePortfolioGraph
    (nodes : List UniversePortfolioPlanNode) (order : List JsString) (healthy : Bool)
    (intrinsic statuses : Statuses) : UniversePortfolioGraph :=
  let layers := JsMap.fillAlong (layerOf tasks) order []
  let descendants := JsMap.fillAlong (descendantsOf tasks) order.reverse []
  let causes := JsMap.fillAlong (causesOf tasks intrinsic statuses order) order []
  let causesAt (pick : Causes → List JsString) (id : JsString) :=
    ((causes.get? id).map pick).getD []
  let graphNodes := nodes.map fun node =>
    let id := node.campaignId
    let behind := ((descendants.get? id).getD []).insertionSort fun first second =>
      order.idxOf first ≤ order.idxOf second
    { campaignId := id
      state := stateIn statuses id
      dependsOn := dependenciesOf tasks id
      unmetDependencyIds := causesAt (·.unmet) id
      blockingRootIds := causesAt (·.blockingRoots) id
      waitingRootIds := causesAt (·.waitingRoots) id
      structuralDescendantIds := behind
      affectedDescendantIds := behind.filter fun descendant =>
        (causesAt (·.blockingRoots) descendant ++ causesAt (·.waitingRoots) descendant).contains id
      layer := (layers.get? id).getD 0 : UniversePortfolioGraphNode }
  let ready := order.filter fun id => stateIn statuses id = .ready
  { dependencyReadyCampaignIds := ready
    invocationCandidateIds := if healthy then ready else []
    layers := order.foldl (fun lists id => pushAt id ((layers.get? id).getD 0) lists) []
    nodeCount := graphNodes.length
    edgeCount := (tasks.map (·.dependsOn.length)).sum
    stateCount := fun state => graphNodes.countP (·.state = state)
    nodes := graphNodes }

end

def buildUniversePortfolioPlan (keysInOrder : JsString → JsString → Bool)
    (input : UniversePortfolioDefinition) (campaigns : CampaignSummaries) (sampledAt : JsString) :
    Except PlanError UniversePortfolioPlan := do
  let definition ← (validateUniversePortfolioDefinition input).mapError .definition
  if !iso sampledAt then throw .sampleTime
  let observed := definition.tasks.map (observeNode keysInOrder campaigns)
  let nodes := intrinsicNodes keysInOrder definition campaigns
  let intrinsic := statusesOf nodes
  let order ← (topologicalOrder definition.tasks).mapError .definition
  let statuses := JsMap.fillAlong (propagate definition.tasks) order intrinsic
  let reasons := degradations observed
  let settled := nodes.map fun node =>
    { node with status := (statuses.get? node.campaignId).getD node.status }
  pure {
    definition
    definitionDigest := digestOf keysInOrder definition.json
    sampledAt
    healthy := reasons.isEmpty
    reasons
    nodes := settled
    topologicalOrder := order
    graph := buildUniversePortfolioGraph definition.tasks settled order reasons.isEmpty intrinsic
      statuses }

end AshlrHub.Universe
