import AshlrHub.Universe.PortfolioControllerFold

namespace AshlrHub.Universe

open Js Artifacts Lib

/-! What a history says on its own: its intents, settlements and drains. -/

def EventKind.intended : EventKind → Option JsString
  | .intent campaignId _ => some campaignId
  | _ => none

def EventKind.outcome : EventKind → Option UniversePortfolioControllerOutcome
  | .settled outcome _ => some outcome
  | _ => none

section

variable (history : List PortfolioControllerEvent)

def intentsOf : List JsString :=
  history.filterMap fun event => event.kind.intended

def settlementsOf : List UniversePortfolioControllerOutcome :=
  history.filterMap fun event => event.kind.outcome

def settledIds : List JsString :=
  (settlementsOf history).map (·.campaignId)

def inFlightIn : List JsString :=
  (intentsOf history).filter fun campaignId => campaignId ∉ settledIds history

def CompletedIn (enrolled : PortfolioControllerEnrollment)
    (history : List PortfolioControllerEvent) (campaignId : JsString) : Prop :=
  (∃ outcome ∈ settlementsOf history, outcome.campaignId = campaignId ∧
      outcome.state = .completed) ∨
    ∃ pin ∈ enrolled.pins, pin.campaignId = campaignId ∧ pin.initialState = .completed

def DeliveredIn (campaignId : JsString) : Prop :=
  ∃ outcome ∈ settlementsOf history, outcome.campaignId = campaignId ∧
    outcome.state = .completed ∧ ∃ digest, outcome.deliveryDigest = some digest

def Resumed (drainSequence : ℕ) : Prop :=
  ∃ event ∈ history, event.kind = .resume drainSequence

def DrainOutstanding : Prop :=
  ∃ event ∈ history, event.kind = .drain ∧ ¬ Resumed history event.sequence

end

def DependsOn (enrolled : PortfolioControllerEnrollment) (campaignId dependency : JsString) :
    Prop :=
  ∃ task ∈ enrolled.definition.tasks, task.campaignId = campaignId ∧ dependency ∈ task.dependsOn

structure Admissible (enrolled : PortfolioControllerEnrollment)
    (history : List PortfolioControllerEvent) (atTime campaignId : JsString) : Prop where
  named : campaignId ∈ enrolled.ids
  undrained : ¬ DrainOutstanding history
  early : atTime < enrolled.deadlineAt
  room : (inFlightIn history).length < enrolled.definition.maxParallel
  dependencies : ∀ dependency, DependsOn enrolled campaignId dependency →
    CompletedIn enrolled history dependency
  deliveries : ∀ ancestor, Relation.TransGen (DependsOn enrolled) campaignId ancestor →
    enrolled.planned ancestor = true → DeliveredIn history ancestor

structure Quiet (history : List PortfolioControllerEvent) (drainSequence : ℕ) : Prop where
  requested : ∃ event ∈ history, event.kind = .drain ∧ event.sequence = drainSequence
  unresumed : ¬ Resumed history drainSequence
  idle : inFlightIn history = []

structure DispatchSafe (enrolled : PortfolioControllerEnrollment)
    (history : List PortfolioControllerEvent) : Prop where
  intentOnce : (intentsOf history).Nodup
  settledOnce : (settledIds history).Nodup
  settled : ∀ {before event behind outcome}, history = before ++ event :: behind →
    event.kind.outcome = some outcome → outcome.campaignId ∈ inFlightIn before
  admitted : ∀ {before event behind campaignId}, history = before ++ event :: behind →
    event.kind.intended = some campaignId → Admissible enrolled before event.atTime campaignId
  acknowledged : ∀ {before event behind drainSequence}, history = before ++ event :: behind →
    event.kind = .drained drainSequence → Quiet before drainSequence
  resumed : ∀ {before event middle dispatch behind drainSequence},
    history = before ++ event :: middle ++ dispatch :: behind →
    event.kind = .drained drainSequence → dispatch.kind.intended.isSome = true →
    Resumed middle drainSequence

/-! Histories, one event on. -/

section Snoc

variable {history : List PortfolioControllerEvent} {event : PortfolioControllerEvent}

@[simp] theorem intentsOf_snoc :
    intentsOf (history ++ [event]) = intentsOf history ++ event.kind.intended.toList := by
  cases named : event.kind.intended <;> simp [intentsOf, List.filterMap_append, named]

@[simp] theorem settlementsOf_snoc :
    settlementsOf (history ++ [event]) = settlementsOf history ++ event.kind.outcome.toList := by
  cases named : event.kind.outcome <;> simp [settlementsOf, List.filterMap_append, named]

variable {campaignId : JsString}

theorem mem_inFlightIn :
    campaignId ∈ inFlightIn history ↔
      campaignId ∈ intentsOf history ∧ campaignId ∉ settledIds history := by
  rw [inFlightIn, List.mem_filter, decide_eq_true_eq]

theorem resumed_snoc {drainSequence : ℕ} :
    Resumed (history ++ [event]) drainSequence ↔
      Resumed history drainSequence ∨ event.kind = .resume drainSequence := by
  simp [Resumed, or_and_right, exists_or]

theorem CompletedIn.snoc {enrolled : PortfolioControllerEnrollment}
    (completed : CompletedIn enrolled history campaignId) :
    CompletedIn enrolled (history ++ [event]) campaignId := by
  refine completed.imp_left ?_
  rintro ⟨outcome, member, rest⟩
  refine ⟨outcome, ?_, rest⟩
  rw [settlementsOf_snoc]
  exact List.mem_append_left _ member

end Snoc

/-! Prerequisites. -/

variable {other : JsString}

theorem mem_addTo {items : List JsString} {item : JsString} :
    other ∈ addTo items item ↔ other ∈ items ∨ other = item := by
  unfold addTo
  split_ifs with known
  · refine ⟨Or.inl, ?_⟩
    rintro (member | rfl)
    · exact member
    · exact known
  · rw [List.mem_append, List.mem_singleton]

theorem mem_foldl_addTo : {more items : List JsString} →
    (other ∈ more.foldl addTo items ↔ other ∈ items ∨ other ∈ more)
  | [], items => by simp
  | item :: more, items => by
      rw [List.foldl_cons, mem_foldl_addTo, mem_addTo, List.mem_cons, or_assoc]

theorem mem_foldl_planned {enrolled : PortfolioControllerEnrollment} :
    {more items : List JsString} →
    (other ∈ more.foldl (fun result ancestor =>
        if enrolled.planned ancestor then addTo result ancestor else result) items ↔
      other ∈ items ∨ (other ∈ more ∧ enrolled.planned other = true))
  | [], items => by simp
  | item :: more, items => by
      rw [List.foldl_cons, mem_foldl_planned, List.mem_cons]
      split_ifs with delivered
      · rw [mem_addTo]
        by_cases same : other = item
        · simp [same, delivered]
        · simp [same]
      · by_cases same : other = item
        · simp [same, delivered]
        · simp [same]

namespace PortfolioControllerEnrollment.Sound

variable {enrolled : PortfolioControllerEnrollment}

theorem dependencies_iff (sound : enrolled.Sound) {dependsOn : List JsString} :
    enrolled.dependencies.get? campaignId = some dependsOn ↔
      ∃ task ∈ enrolled.definition.tasks, task.campaignId = campaignId ∧
        task.dependsOn = dependsOn := by
  have keys : ((enrolled.definition.tasks.map fun task =>
      (task.campaignId, task.dependsOn)).map Prod.fst).Nodup := by
    rw [List.map_map]
    exact sound.definition.once
  rw [dependencies, JsMap.ofEntries_eq keys]
  constructor
  · intro found
    obtain ⟨task, member, spelled⟩ := List.mem_map.mp (JsMap.mem_of_get? found)
    cases spelled
    exact ⟨task, member, rfl, rfl⟩
  · rintro ⟨task, member, rfl, rfl⟩
    exact JsMap.get?_of_mem keys (List.mem_map_of_mem member)

theorem follows_iff (sound : enrolled.Sound) {dependency : JsString} :
    Lib.Follows enrolled.pushes campaignId dependency ↔
      DependsOn enrolled campaignId dependency := by
  constructor
  · rintro ⟨more, found, member⟩
    obtain ⟨dependsOn, entry, rfl⟩ := Option.map_eq_some_iff.mp found
    obtain ⟨task, enrolledTask, named, rfl⟩ := sound.dependencies_iff.mp entry
    exact ⟨task, enrolledTask, named, List.mem_reverse.mp member⟩
  · rintro ⟨task, member, named, waits⟩
    have entry := sound.dependencies_iff.mpr ⟨task, member, named, rfl⟩
    exact ⟨task.dependsOn.reverse, by rw [pushes, entry]; rfl, List.mem_reverse.mpr waits⟩

theorem mem_prerequisites (sound : enrolled.Sound) {prerequisites : List JsString}
    (found : portfolioControllerPrerequisites enrolled campaignId = some prerequisites)
    (dependency : JsString) :
    dependency ∈ prerequisites ↔ DependsOn enrolled campaignId dependency ∨
      (Relation.TransGen (DependsOn enrolled) campaignId dependency ∧
        enrolled.planned dependency = true) := by
  unfold portfolioControllerPrerequisites at found
  cases entry : enrolled.dependencies.get? campaignId with
  | none =>
      rw [entry] at found
      cases found
  | some dependsOn =>
      rw [entry] at found
      obtain ⟨fresh, rfl, reaches⟩ := explore_reaches found
      have direct : ∀ other, other ∈ dependsOn.foldl addTo [] ↔
          DependsOn enrolled campaignId other := by
        intro other
        rw [mem_foldl_addTo, ← sound.follows_iff]
        constructor
        · rintro (absent | member)
          · exact absurd absent List.not_mem_nil
          · exact ⟨dependsOn.reverse, by rw [pushes, entry]; rfl, List.mem_reverse.mpr member⟩
        · rintro ⟨more, same, member⟩
          rw [pushes, entry] at same
          cases same
          exact Or.inr (List.mem_reverse.mp member)
      have ancestors : dependency ∈ fresh ↔
          Relation.TransGen (DependsOn enrolled) campaignId dependency := by
        have edges : Lib.Follows enrolled.pushes = DependsOn enrolled := by
          funext source target
          exact propext sound.follows_iff
        rw [reaches, Relation.TransGen.head'_iff, edges]
        simp only [List.mem_reverse, direct]
      rw [mem_foldl_planned, direct, ancestors]

end PortfolioControllerEnrollment.Sound

end AshlrHub.Universe
