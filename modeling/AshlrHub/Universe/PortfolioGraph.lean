import AshlrHub.Universe.PortfolioCauses

namespace AshlrHub.Universe

open Js Campaign Lib

/-! The graph of a portfolio's plan, told by the campaigns as they are in themselves. -/

variable {keysInOrder : JsString → JsString → Bool} {input : UniversePortfolioDefinition}
  {campaigns : CampaignSummaries} {sampledAt : JsString} {plan : UniversePortfolioPlan}

theorem observedStatus_ne_waiting (state : Campaign.CampaignState) :
    (observedStatus state).state ≠ .waiting := by
  cases state with
  | settled outcome => cases outcome <;> decide
  | ready => decide
  | running => decide
  | pauseRequested => decide
  | stopRequested => decide

theorem observeNode_ne_waiting (task : UniversePortfolioTask) :
    (observeNode keysInOrder campaigns task).status.state ≠ .waiting := by
  unfold observeNode
  dsimp only
  split
  · exact fun same => PortfolioNodeState.noConfusion same
  · exact observedStatus_ne_waiting _

theorem intrinsicNodes_ne_waiting {node : UniversePortfolioPlanNode}
    (member : node ∈ intrinsicNodes keysInOrder input campaigns) :
    node.status.state ≠ .waiting := by
  rw [intrinsicNodes, separateUniverses, List.mem_map] at member
  obtain ⟨observed, listed, rfl⟩ := member
  obtain ⟨task, _, rfl⟩ := List.mem_map.mp listed
  split_ifs
  · exact fun same => PortfolioNodeState.noConfusion same
  · exact observeNode_ne_waiting task

def ownStatuses (keysInOrder : JsString → JsString → Bool) (input : UniversePortfolioDefinition)
    (campaigns : CampaignSummaries) : Statuses :=
  statusesOf (intrinsicNodes keysInOrder input campaigns)

theorem intrinsicNodes_ids :
    (intrinsicNodes keysInOrder input campaigns).map (·.campaignId) =
      input.tasks.map (·.campaignId) := by
  rw [intrinsicNodes, separateUniverses, List.map_map, List.map_map]
  apply List.map_congr_left
  intro task _
  dsimp only [Function.comp_apply]
  split_ifs
  · unfold observeNode
    dsimp only
    split <;> rfl
  · unfold observeNode
    dsimp only
    split <;> rfl

theorem ownStatuses_ne_waiting (once : (input.tasks.map (·.campaignId)).Nodup) (id : JsString) :
    stateIn (ownStatuses keysInOrder input campaigns) id ≠ .waiting := by
  have entries : ownStatuses keysInOrder input campaigns =
      (intrinsicNodes keysInOrder input campaigns).map fun node =>
        (node.campaignId, node.status) := by
    apply JsMap.ofEntries_eq
    rw [List.map_map]
    exact intrinsicNodes_ids ▸ once
  unfold stateIn
  cases found : (ownStatuses keysInOrder input campaigns).get? id with
  | none => exact fun same => PortfolioNodeState.noConfusion same
  | some status =>
      have listed := JsMap.mem_of_get? found
      rw [entries, List.mem_map] at listed
      obtain ⟨node, member, same⟩ := listed
      cases same
      exact intrinsicNodes_ne_waiting member

/-! The plan, taken apart. -/

theorem buildUniversePortfolioPlan_parts
    (built : buildUniversePortfolioPlan keysInOrder input campaigns sampledAt = .ok plan) :
    ∃ (order : List JsString) (healthy : Bool) (settled : List UniversePortfolioPlanNode),
      Tasks.Sound input.tasks ∧ topologicalOrder input.tasks = .ok order ∧
      settled.map (·.campaignId) = input.tasks.map (·.campaignId) ∧
      plan.graph = buildUniversePortfolioGraph input.tasks settled order healthy
        (ownStatuses keysInOrder input campaigns)
        (shownStatuses input.tasks order (ownStatuses keysInOrder input campaigns)) := by
  unfold buildUniversePortfolioPlan at built
  obtain ⟨definition, validated, rest⟩ := bind_eq_ok.mp built
  obtain ⟨rfl, sound⟩ := validated_tasks (mapError_eq_ok.mp validated)
  obtain ⟨_, sampled⟩ := refuse_eq_ok.mp rest
  obtain ⟨order, ordered, made⟩ := bind_eq_ok.mp sampled
  rw [pure_eq_ok] at made
  subst made
  refine ⟨order, _, _, sound, mapError_eq_ok.mp ordered, ?_, rfl⟩
  rw [List.map_map]
  exact intrinsicNodes_ids

structure ExactCauses (tasks : List UniversePortfolioTask) (own : Statuses)
    (nodes : List UniversePortfolioGraphNode) (node : UniversePortfolioGraphNode) : Prop where
  blockingRoots : ∀ root, root ∈ node.blockingRootIds ↔
    (stateIn own root).Stuck ∧ Relation.ReflTransGen (ReadyStep tasks own) node.campaignId root
  blocked : node.state = .blocked → node.blockingRootIds ≠ []
  waiting : node.state = .waiting → node.waitingRootIds ≠ []
  affected : ∀ id, id ∈ node.affectedDescendantIds ↔ id ≠ node.campaignId ∧
    ∃ other ∈ nodes, other.campaignId = id ∧
      (node.campaignId ∈ other.blockingRootIds ∨ node.campaignId ∈ other.waitingRootIds)

theorem exactCauses {tasks : List UniversePortfolioTask} {order : List JsString}
    {own : Statuses} {settled : List UniversePortfolioPlanNode} {healthy : Bool}
    (sound : Tasks.Sound tasks) (ordered : topologicalOrder tasks = .ok order)
    (observed : ∀ id, stateIn own id ≠ .waiting)
    (same : settled.map (·.campaignId) = tasks.map (·.campaignId)) :
    ∀ node ∈ (buildUniversePortfolioGraph tasks settled order healthy own
        (shownStatuses tasks order own)).nodes,
      ExactCauses tasks own (buildUniversePortfolioGraph tasks settled order healthy own
        (shownStatuses tasks order own)).nodes node := by
  obtain ⟨ranked, perm⟩ := topologicalOrder_ranked sound ordered
  intro node member
  unfold buildUniversePortfolioGraph at member ⊢
  obtain ⟨from_, listed, rfl⟩ := List.mem_map.mp member
  have enrolled : ∀ id, id ∈ settled.map (·.campaignId) ↔ id ∈ order := fun id => by
    rw [same, perm.mem_iff]
  have inside : from_.campaignId ∈ order := (enrolled _).mp (List.mem_map_of_mem listed)
  constructor
  · exact fun root => mem_blocking_iff ranked observed inside
  · intro blocked
    obtain ⟨root, cause⟩ := exists_blocking ranked observed inside (Or.inl blocked)
    exact List.ne_nil_of_mem cause
  · intro waiting
    obtain ⟨root, cause⟩ := exists_waiting ranked observed inside waiting
    exact List.ne_nil_of_mem cause
  · intro id
    dsimp only
    rw [List.mem_filter, List.mem_insertionSort, mem_descendants_iff sound ranked perm inside,
      List.contains_iff_mem, List.mem_append]
    constructor
    · rintro ⟨path, cause⟩
      obtain ⟨need, uses, _⟩ := Relation.TransGen.head'_iff.mp path
      have present := (enrolled id).mpr (perm.mem_iff.mpr (listed_of_needs uses))
      obtain ⟨other, there, rfl⟩ := List.mem_map.mp present
      refine ⟨?_, _, List.mem_map_of_mem there, rfl, cause⟩
      intro around
      rw [around] at path
      exact ranked.acyclic _ inside path
    · rintro ⟨different, _, there, rfl, cause⟩
      obtain ⟨other, present, rfl⟩ := List.mem_map.mp there
      refine ⟨?_, cause⟩
      have path := path_of_cause ranked observed
        ((enrolled _).mp (List.mem_map_of_mem present)) cause
      exact (Relation.reflTransGen_iff_eq_or_transGen.mp path).resolve_left fun same =>
        different same.symm

theorem mem_ready_iff {tasks : List UniversePortfolioTask} {order : List JsString}
    {own : Statuses} (ranked : Ranked (dependenciesOf tasks) [] order) {id : JsString}
    (member : id ∈ order) :
    shownState tasks order own id = .ready ↔
      stateIn own id = .ready ∧ ∀ need ∈ dependenciesOf tasks id, stateIn own need =
        .completed := by
  have completed : ∀ need ∈ dependenciesOf tasks id,
      (shownState tasks order own need = .completed ↔ stateIn own need = .completed) :=
    fun need uses => shown_eq_completed ranked (ranked.closed member uses)
  cases shown_spec own ranked member with
  | own settled same =>
      rw [same]
      exact ⟨fun ready => absurd ready settled, fun ready => absurd ready.1 settled⟩
  | blocked ready stuck same =>
      rw [same]
      refine ⟨fun impossible => PortfolioNodeState.noConfusion impossible, fun free => ?_⟩
      obtain ⟨state, inside, met⟩ := stuck
      obtain ⟨need, uses, rfl⟩ := List.mem_map.mp inside
      rw [(completed need uses).mpr (free.2 need uses)] at met
      rcases met with impossible | impossible <;> cases impossible
  | waiting ready free open_ same =>
      rw [same]
      refine ⟨fun impossible => PortfolioNodeState.noConfusion impossible, fun free => ?_⟩
      obtain ⟨state, inside, different⟩ := open_
      obtain ⟨need, uses, rfl⟩ := List.mem_map.mp inside
      exact absurd ((completed need uses).mpr (free.2 need uses)) different
  | ready ready done same =>
      refine ⟨fun _ => ⟨ready, fun need uses => ?_⟩, fun _ => same⟩
      exact (completed need uses).mp (done _ (List.mem_map_of_mem uses))

/-- The causes that the graph of a plan shows are those along its dependencies. -/
theorem portfolioFrontier_exact
    (built : buildUniversePortfolioPlan keysInOrder input campaigns sampledAt = .ok plan) :
    plan.graph.nodes.map (·.campaignId) = input.tasks.map (·.campaignId) ∧
      (∀ node ∈ plan.graph.nodes, ExactCauses input.tasks
        (ownStatuses keysInOrder input campaigns) plan.graph.nodes node) ∧
      ∀ id, id ∈ plan.graph.dependencyReadyCampaignIds ↔
        id ∈ input.tasks.map (·.campaignId) ∧
          stateIn (ownStatuses keysInOrder input campaigns) id = .ready ∧
          ∀ need ∈ dependenciesOf input.tasks id,
            stateIn (ownStatuses keysInOrder input campaigns) need = .completed := by
  obtain ⟨order, healthy, settled, sound, ordered, same, graph⟩ :=
    buildUniversePortfolioPlan_parts built
  obtain ⟨ranked, perm⟩ := topologicalOrder_ranked sound ordered
  rw [graph]
  refine ⟨?_, exactCauses sound ordered (ownStatuses_ne_waiting sound.once) same, fun id => ?_⟩
  · rw [← same]
    unfold buildUniversePortfolioGraph
    rw [List.map_map]
    rfl
  · unfold buildUniversePortfolioGraph
    rw [List.mem_filter, ← perm.mem_iff, decide_eq_true_eq]
    exact and_congr_right fun member => mem_ready_iff ranked member

/-! A campaign without a summary, alone in its portfolio. -/

def loneDefinition : UniversePortfolioDefinition where
  id := js "lone"
  tasks := [⟨js "first", []⟩]
  maxParallel := 1
  maxDurationMs := 1000

def loneGraph : Except PlanError UniversePortfolioGraph :=
  (buildUniversePortfolioPlan (fun _ _ => true) loneDefinition []
    (js "2024-01-01T00:00:00.000Z")).map (·.graph)

/-- The campaign blocks itself, and does not stand among those it affects. -/
theorem loneGraph_affected :
    loneGraph.map (fun graph => graph.nodes.map fun node =>
      (node.campaignId, node.blockingRootIds, node.affectedDescendantIds)) =
      .ok [(js "first", [js "first"], [])] := by
  decide +kernel

/-! A chain: nothing is known of the first campaign, the others are ready in themselves. -/

def chainDefinition : UniversePortfolioDefinition :=
  { loneDefinition with
    tasks := [⟨js "first", []⟩, ⟨js "second", [js "first"]⟩, ⟨js "third", [js "second"]⟩] }

def readyCampaign (id : JsString) : JsString × Option UniverseCampaignSummary :=
  let definition : UniverseCampaignDefinition := ⟨id, id, ⟨1, 1000, 1, 1, none⟩, false, false⟩
  (id, some ⟨definition, digestOf (fun _ _ => true) definition.json, List.replicate 64 0x61,
    List.replicate 64 0x61, .ready, true, []⟩)

def chainPlan : Except PlanError UniversePortfolioPlan :=
  buildUniversePortfolioPlan (fun _ _ => true) chainDefinition
    [readyCampaign (js "second"), readyCampaign (js "third")] (js "2024-01-01T00:00:00.000Z")

theorem portfolioFrontier_exact_chain : ∃ plan : UniversePortfolioPlan, chainPlan = .ok plan ∧
    plan.graph.nodes.map (·.blockingRootIds) = List.replicate 3 [js "first"] ∧
    ∀ node ∈ plan.graph.nodes, ExactCauses chainDefinition.tasks (ownStatuses (fun _ _ => true)
      chainDefinition [readyCampaign (js "second"), readyCampaign (js "third")])
      plan.graph.nodes node := by
  have blocked : (chainPlan.toOption.map fun plan => plan.graph.nodes.map (·.blockingRootIds)) =
      some (List.replicate 3 [js "first"]) := by decide +kernel
  cases built : chainPlan with
  | error refusal =>
      rw [built] at blocked
      cases blocked
  | ok plan =>
      rw [built] at blocked
      exact ⟨plan, rfl, Option.some.inj blocked, (portfolioFrontier_exact built).2.1⟩

end AshlrHub.Universe
