import AshlrHub.Universe.PortfolioPlan

namespace AshlrHub.Universe

open Js Lib

/-! The ordering of the tasks: every campaign once, behind all that it depends on. -/

variable {tasks : List UniversePortfolioTask}

structure Tasks.Sound (tasks : List UniversePortfolioTask) : Prop where
  once : (tasks.map (·.campaignId)).Nodup
  enrolled : ∀ task ∈ tasks, ∀ dependency ∈ task.dependsOn, dependency ∈ tasks.map (·.campaignId)
  dependsOnce : ∀ task ∈ tasks, task.dependsOn.Nodup

variable {task : UniversePortfolioTask}

theorem enrolTask_nodup {known next : List JsString} (enrolled : enrolTask known task = .ok next) :
    task.dependsOn.Nodup := by
  unfold enrolTask at enrolled
  split_ifs at enrolled with refused repeated
  simp only [Bool.or_eq_true, Bool.not_eq_true', decide_eq_false_iff_not, not_or, not_not]
    at repeated
  exact repeated.2

theorem foldlM_enrolTask_nodup : {tasks : List UniversePortfolioTask} →
    {known all : List JsString} → tasks.foldlM enrolTask known = .ok all →
    ∀ task ∈ tasks, task.dependsOn.Nodup
  | [], _, _, _, _, member => by cases member
  | first :: tasks, known, all, folded, task, member => by
      rw [List.foldlM_cons] at folded
      obtain ⟨next, enrolled, rest⟩ := bind_eq_ok.mp folded
      rcases List.mem_cons.mp member with rfl | later
      · exact enrolTask_nodup enrolled
      · exact foldlM_enrolTask_nodup rest task later

theorem validated_tasks {definition checked : UniversePortfolioDefinition}
    (valid : validateUniversePortfolioDefinition definition = .ok checked) :
    checked = definition ∧ Tasks.Sound definition.tasks := by
  obtain ⟨same, sound⟩ := validateUniversePortfolioDefinition_sound valid
  refine ⟨same, sound.once, sound.enrolled, ?_⟩
  unfold validateUniversePortfolioDefinition at valid
  obtain ⟨_, checkedTasks⟩ := refuse_eq_ok.mp valid
  obtain ⟨known, folded, _⟩ := bind_eq_ok.mp checkedTasks
  exact foldlM_enrolTask_nodup folded

theorem dependenciesOf_eq (sound : Tasks.Sound tasks) (member : task ∈ tasks) :
    dependenciesOf tasks task.campaignId = task.dependsOn := by
  cases found : tasks.find? fun other => other.campaignId = task.campaignId with
  | none =>
      have missing := List.find?_eq_none.mp found task member
      simp at missing
  | some other =>
      have named : other.campaignId = task.campaignId := by simpa using List.find?_some found
      have same := List.inj_on_of_nodup_map sound.once (List.mem_of_find?_eq_some found) member
        named
      rw [dependenciesOf, found, same]
      rfl

theorem mem_dependantsOf (sound : Tasks.Sound tasks) {id dependant : JsString} :
    dependant ∈ dependantsOf tasks id ↔
      dependant ∈ tasks.map (·.campaignId) ∧ id ∈ dependenciesOf tasks dependant := by
  simp only [dependantsOf, List.mem_map, List.mem_filter, List.contains_eq_mem, decide_eq_true_eq]
  constructor
  · rintro ⟨task, ⟨member, uses⟩, rfl⟩
    refine ⟨⟨task, member, rfl⟩, ?_⟩
    rwa [dependenciesOf_eq sound member]
  · rintro ⟨⟨task, member, rfl⟩, uses⟩
    rw [dependenciesOf_eq sound member] at uses
    exact ⟨task, ⟨member, uses⟩, rfl⟩

theorem nodup_dependantsOf (sound : Tasks.Sound tasks) (id : JsString) :
    (dependantsOf tasks id).Nodup :=
  sound.once.sublist (List.filter_sublist.map _)

theorem get?_decremented {other : JsString} : {dependants : List JsString} →
    (remaining : JsMap JsString ℤ) → dependants.Nodup →
    (dependants.foldl (fun remaining dependant =>
      remaining.set dependant ((remaining.get? dependant).getD 0 - 1)) remaining).get? other =
      if other ∈ dependants then some ((remaining.get? other).getD 0 - 1)
      else remaining.get? other
  | [], _, _ => by simp
  | first :: dependants, remaining, once => by
      obtain ⟨apart, rest⟩ := List.nodup_cons.mp once
      rw [List.foldl_cons, get?_decremented _ rest]
      by_cases same : other = first
      · rw [same, if_neg apart, if_pos List.mem_cons_self, JsMap.get?_set_self]
      · rw [JsMap.get?_set_ne same]
        simp only [List.mem_cons, same, false_or]

def openDependencies (ordered : List JsString) (task : UniversePortfolioTask) : ℤ :=
  (task.dependsOn.countP fun dependency => dependency ∉ ordered : ℕ)

structure Counting (tasks : List UniversePortfolioTask) (remaining : JsMap JsString ℤ)
    (ordered : List JsString) : Prop where
  open_ : ∀ task ∈ tasks, task.campaignId ∉ ordered →
    remaining.get? task.campaignId = some (openDependencies ordered task)
  done : ∀ id ∈ ordered, remaining.get? id = none
  inside : ∀ id ∈ ordered, id ∈ tasks.map (·.campaignId)
  ranked : Ranked (dependenciesOf tasks) [] ordered

theorem counting_start (sound : Tasks.Sound tasks) :
    Counting tasks
      (JsMap.ofEntries (tasks.map fun task => (task.campaignId, (task.dependsOn.length : ℤ)))) []
        where
  open_ task member _ := by
    have every : task.dependsOn.countP (fun dependency => dependency ∉ ([] : List JsString)) =
        task.dependsOn.length := by
      rw [List.countP_eq_length]
      simp
    rw [openDependencies, every, JsMap.ofEntries]
    refine @JsMap.get?_foldl_set_entries _ _ _ _ Prod.fst Prod.snd
      (task.campaignId, (task.dependsOn.length : ℤ)) _ _ ?_ (List.mem_map_of_mem member)
    rw [List.map_map]
    exact sound.once
  done id member := by cases member
  inside id member := by cases member
  ranked := trivial

variable {ordered : List JsString}

theorem openDependencies_snoc {id : JsString} (once : task.dependsOn.Nodup) (fresh : id ∉ ordered) :
    openDependencies (ordered ++ [id]) task =
      if id ∈ task.dependsOn then openDependencies ordered task - 1
      else openDependencies ordered task := by
  have counts : ∀ dependencies : List JsString, dependencies.Nodup →
      dependencies.countP (fun dependency => dependency ∉ ordered) =
        dependencies.countP (fun dependency => dependency ∉ ordered ++ [id]) +
          if id ∈ dependencies then 1 else 0 := by
    intro dependencies
    induction dependencies with
    | nil => exact fun _ => rfl
    | cons first dependencies ih =>
        intro once
        obtain ⟨apart, rest⟩ := List.nodup_cons.mp once
        have tail := ih rest
        rw [List.countP_cons, List.countP_cons]
        by_cases same : id = first
        · subst same
          rw [if_neg apart] at tail
          simp [fresh]
          simpa using tail
        · have still : decide (first ∉ ordered ++ [id]) = decide (first ∉ ordered) := by
            simp [Ne.symm same]
          have member : id ∈ first :: dependencies ↔ id ∈ dependencies := by
            simp [same]
          rw [still, tail]
          simp only [member]
          omega
  have whole := counts task.dependsOn once
  unfold openDependencies
  split_ifs with uses
  · rw [if_pos uses] at whole
    omega
  · rw [if_neg uses] at whole
    omega

section

variable {remaining : JsMap JsString ℤ} (sound : Tasks.Sound tasks)
  (counting : Counting tasks remaining ordered) (member : task ∈ tasks)
  (zero : remaining.get? task.campaignId = some 0)
include sound counting member zero

theorem Counting.ready :
    task.campaignId ∉ ordered ∧ ∀ need ∈ dependenciesOf tasks task.campaignId, need ∈ ordered := by
  have fresh : task.campaignId ∉ ordered := by
    intro done
    rw [counting.done _ done] at zero
    cases zero
  refine ⟨fresh, fun need inside => ?_⟩
  rw [dependenciesOf_eq sound member] at inside
  have count := counting.open_ task member fresh
  rw [zero, Option.some.injEq, openDependencies] at count
  have none_ : task.dependsOn.countP (fun dependency => dependency ∉ ordered) = 0 := by omega
  simpa using List.countP_eq_zero.mp none_ need inside

theorem Counting.step :
    Counting tasks
      ((dependantsOf tasks task.campaignId).foldl
        (fun remaining dependant =>
          remaining.set dependant ((remaining.get? dependant).getD 0 - 1))
        (remaining.delete task.campaignId))
      (ordered ++ [task.campaignId]) := by
  obtain ⟨fresh, ready⟩ := counting.ready sound member zero
  have once := nodup_dependantsOf sound task.campaignId
  -- Nothing that is done already depends on the new one.
  have settled : ∀ id ∈ ordered ++ [task.campaignId], id ∉ dependantsOf tasks task.campaignId := by
    intro id listed dependant
    have uses := ((mem_dependantsOf sound).mp dependant).2
    rcases List.mem_append.mp listed with early | last
    · exact fresh (counting.ranked.closed early uses)
    · rw [List.mem_singleton] at last
      rw [last] at uses
      exact fresh (ready _ uses)
  refine ⟨?_, ?_, ?_, ?_⟩
  · intro other inside later
    rw [List.mem_append, List.mem_singleton, not_or] at later
    rw [get?_decremented _ once, JsMap.get?_delete_ne later.2, counting.open_ other inside later.1,
      openDependencies_snoc (sound.dependsOnce other inside) fresh]
    have dependant : other.campaignId ∈ dependantsOf tasks task.campaignId ↔
        task.campaignId ∈ other.dependsOn := by
      rw [mem_dependantsOf sound, dependenciesOf_eq sound inside]
      exact and_iff_right (List.mem_map_of_mem inside)
    simp only [dependant, Option.getD_some]
    split_ifs <;> rfl
  · intro id listed
    rw [get?_decremented _ once, if_neg (settled id listed)]
    rcases List.mem_append.mp listed with early | last
    · have other : id ≠ task.campaignId := fun same => fresh (same ▸ early)
      rw [JsMap.get?_delete_ne other, counting.done id early]
    · rw [List.mem_singleton.mp last, JsMap.get?_delete_self]
  · intro id listed
    rcases List.mem_append.mp listed with early | last
    · exact counting.inside id early
    · rw [List.mem_singleton.mp last]
      exact List.mem_map_of_mem member
  · exact counting.ranked.snoc (by simpa using fresh) (by simpa using ready)

end

theorem orderFrom_counting (sound : Tasks.Sound tasks) : {left : ℕ} →
    {remaining : JsMap JsString ℤ} → {ordered order : List JsString} →
    Counting tasks remaining ordered → orderFrom tasks left remaining ordered = .ok order →
    (∃ last, Counting tasks last order) ∧ order.length = ordered.length + left
  | 0, remaining, ordered, order, counting, answered => by
      cases answered
      exact ⟨⟨remaining, counting⟩, rfl⟩
  | left + 1, remaining, ordered, order, counting, answered => by
      rw [orderFrom] at answered
      cases found : tasks.find? fun task => remaining.get? task.campaignId = some 0 with
      | none =>
          rw [found] at answered
          cases answered
      | some task =>
          rw [found] at answered
          have zero : remaining.get? task.campaignId = some 0 := by
            simpa using List.find?_some found
          obtain ⟨counted, length⟩ := orderFrom_counting sound
            (counting.step sound (List.mem_of_find?_eq_some found) zero) answered
          refine ⟨counted, ?_⟩
          rw [length, List.length_append, List.length_singleton]
          omega

theorem topologicalOrder_ranked (sound : Tasks.Sound tasks) {order : List JsString}
    (ordered : topologicalOrder tasks = .ok order) :
    Ranked (dependenciesOf tasks) [] order ∧ order.Perm (tasks.map (·.campaignId)) := by
  obtain ⟨⟨last, counting⟩, length⟩ := orderFrom_counting sound (counting_start sound) ordered
  have once := counting.ranked.nodup List.nodup_nil
  rw [List.nil_append] at once
  have within : order.Subperm (tasks.map (·.campaignId)) :=
    List.subperm_of_subset once counting.inside
  refine ⟨counting.ranked, within.perm_of_length_le ?_⟩
  rw [length, List.length_map, List.length_nil, Nat.zero_add]

/-! The causes of a portfolio's graph, read along the dependencies. -/

variable {tasks : List UniversePortfolioTask} {order : List JsString} {intrinsic : Statuses}
  {id root : JsString}

def PortfolioNodeState.Stuck (state : PortfolioNodeState) : Prop :=
  state = .blocked ∨ state = .unavailable

def shownStatuses (tasks : List UniversePortfolioTask) (order : List JsString)
    (intrinsic : Statuses) : Statuses :=
  JsMap.fillAlong (propagate tasks) order intrinsic

def shownState (tasks : List UniversePortfolioTask) (order : List JsString) (intrinsic : Statuses)
    (id : JsString) : PortfolioNodeState :=
  stateIn (shownStatuses tasks order intrinsic) id

def shownCauses (tasks : List UniversePortfolioTask) (order : List JsString)
    (intrinsic : Statuses) : JsMap JsString Causes :=
  JsMap.fillAlong (causesOf tasks intrinsic (shownStatuses tasks order intrinsic) order) order []

def rootsAt (causes : JsMap JsString Causes) (pick : Causes → List JsString) (id : JsString) :
    List JsString :=
  ((causes.get? id).map pick).getD []

@[simp] theorem mem_inTopology {order ids : List JsString} :
    id ∈ inTopology order ids ↔ id ∈ ids := by
  rw [inTopology, List.mem_insertionSort, List.mem_eraseDups]

inductive Shown (own : PortfolioNodeState) (shown : PortfolioNodeState)
    (dependencies : List PortfolioNodeState) : Prop
  | own (settled : own ≠ .ready) (same : shown = own)
  | blocked (ready : own = .ready) (stuck : ∃ state ∈ dependencies, state.Stuck)
      (same : shown = .blocked)
  | waiting (ready : own = .ready) (free : ∀ state ∈ dependencies, ¬ state.Stuck)
      (open_ : ∃ state ∈ dependencies, state ≠ .completed) (same : shown = .waiting)
  | ready (ready : own = .ready) (done : ∀ state ∈ dependencies, state = .completed)
      (same : shown = .ready)

theorem shown_spec (intrinsic : Statuses) (ranked : Ranked (dependenciesOf tasks) [] order)
    (member : id ∈ order) :
    Shown (stateIn intrinsic id) (shownState tasks order intrinsic id)
      ((dependenciesOf tasks id).map (shownState tasks order intrinsic)) := by
  obtain ⟨before, agrees, same, found⟩ :=
    @JsMap.fillAlong_spec _ _ _ (propagate tasks) _ _ _ intrinsic ranked List.nodup_nil id member
  have states : (dependenciesOf tasks id).map (stateIn before) =
      (dependenciesOf tasks id).map (shownState tasks order intrinsic) := by
    apply List.map_congr_left
    intro need inside
    rw [stateIn, agrees need inside]
    rfl
  have own : ((before.get? id).getD ⟨.unavailable, none⟩).state = stateIn intrinsic id := by
    rw [stateIn, same]
    cases intrinsic.get? id <;> rfl
  have shown : shownState tasks order intrinsic id = (propagate tasks before id).state := by
    unfold shownState shownStatuses stateIn
    rw [found]
    rfl
  rw [shown, propagate]
  dsimp only
  rw [states]
  by_cases ready : stateIn intrinsic id = .ready
  · rw [if_neg (not_not_intro (own.trans ready))]
    split_ifs with stuck open_
    · rw [List.any_eq_true] at stuck
      obtain ⟨state, inside, met⟩ := stuck
      exact .blocked ready ⟨state, inside, by simpa [PortfolioNodeState.Stuck] using met⟩ rfl
    · rw [List.any_eq_true] at open_
      obtain ⟨state, inside, met⟩ := open_
      refine .waiting ready ?_ ⟨state, inside, by simpa using met⟩ rfl
      intro other there met
      refine stuck (List.any_eq_true.mpr ⟨other, there, ?_⟩)
      simpa [PortfolioNodeState.Stuck] using met
    · refine .ready ready ?_ (own.trans ready)
      intro state inside
      by_contra different
      exact open_ (List.any_eq_true.mpr ⟨state, inside, by simpa using different⟩)
  · rw [if_pos (fun same => ready (own.symm.trans same))]
    exact .own ready own

theorem shown_eq_completed (ranked : Ranked (dependenciesOf tasks) [] order) (member : id ∈ order) :
    shownState tasks order intrinsic id = .completed ↔ stateIn intrinsic id = .completed := by
  cases shown_spec intrinsic ranked member with
  | own _ same => rw [same]
  | blocked ready _ same => simp [same, ready]
  | waiting ready _ _ same => simp [same, ready]
  | ready ready _ same => simp [same, ready]

structure CausesSpec (tasks : List UniversePortfolioTask) (order : List JsString)
    (intrinsic : Statuses) (id : JsString) : Prop where
  blocking : ∀ root, root ∈ rootsAt (shownCauses tasks order intrinsic) (·.blockingRoots) id ↔
    ((stateIn intrinsic id).Stuck ∧ root = id) ∨
      (stateIn intrinsic id = .ready ∧ (shownState tasks order intrinsic id).Stuck ∧
        ∃ need ∈ dependenciesOf tasks id,
          root ∈ rootsAt (shownCauses tasks order intrinsic) (·.blockingRoots) need)
  waiting : ∀ root, root ∈ rootsAt (shownCauses tasks order intrinsic) (·.waitingRoots) id ↔
    (stateIn intrinsic id = .busy ∧ root = id) ∨
      (stateIn intrinsic id = .ready ∧ shownState tasks order intrinsic id ≠ .ready ∧
        ∃ need ∈ dependenciesOf tasks id,
          root ∈ rootsAt (shownCauses tasks order intrinsic) (·.waitingPropagationRoots) need)
  propagation : ∀ root,
    root ∈ rootsAt (shownCauses tasks order intrinsic) (·.waitingPropagationRoots) id ↔
    ((stateIn intrinsic id = .busy ∨ shownState tasks order intrinsic id = .ready) ∧ root = id) ∨
      (stateIn intrinsic id = .ready ∧ shownState tasks order intrinsic id ≠ .ready ∧
        ∃ need ∈ dependenciesOf tasks id,
          root ∈ rootsAt (shownCauses tasks order intrinsic) (·.waitingPropagationRoots) need)

theorem causes_spec (ranked : Ranked (dependenciesOf tasks) [] order) (member : id ∈ order)
    (observed : stateIn intrinsic id ≠ .waiting) : CausesSpec tasks order intrinsic id := by
  obtain ⟨before, agrees, -, found⟩ := @JsMap.fillAlong_spec _ _ _
    (causesOf tasks intrinsic (shownStatuses tasks order intrinsic) order) _ _ _ [] ranked
    List.nodup_nil id member
  have roots (pick : Causes → List JsString) : ((dependenciesOf tasks id).flatMap fun dependency =>
      ((before.get? dependency).map pick).getD []) =
      (dependenciesOf tasks id).flatMap (rootsAt (shownCauses tasks order intrinsic) pick) := by
    rw [List.flatMap_congr]
    intro need inside
    rw [agrees need inside]
    rfl
  have at_ (pick : Causes → List JsString) :
      rootsAt (shownCauses tasks order intrinsic) pick id =
        pick (causesOf tasks intrinsic (shownStatuses tasks order intrinsic) order before id) := by
    unfold rootsAt shownCauses
    rw [found]
    rfl
  have shown := shown_spec intrinsic ranked member
  have state : stateIn (shownStatuses tasks order intrinsic) id =
      shownState tasks order intrinsic id := rfl
  constructor
  all_goals
    intro root
    rw [at_]
    unfold causesOf
    dsimp only
    rw [state, roots, roots]
    -- What is shown of the campaign picks the branch, in itself or by its dependencies.
    cases shown with
    | own settled same =>
        cases own : stateIn intrinsic id with
        | ready => exact absurd own settled
        | waiting => exact absurd own observed
        | completed | blocked | busy | unavailable => simp [same, own, PortfolioNodeState.Stuck]
    | blocked ready _ same | waiting ready _ _ same => simp [same, ready, PortfolioNodeState.Stuck]
    | ready ready _ same => simp [same, ready, PortfolioNodeState.Stuck]

/-! The causes along paths. -/

def ReadyStep (tasks : List UniversePortfolioTask) (intrinsic : Statuses) (id need : JsString) :
    Prop :=
  stateIn intrinsic id = .ready ∧ need ∈ dependenciesOf tasks id

def Needs (tasks : List UniversePortfolioTask) (id need : JsString) : Prop :=
  need ∈ dependenciesOf tasks id

section

variable (ranked : Ranked (dependenciesOf tasks) [] order)
  (observed : ∀ id, stateIn intrinsic id ≠ .waiting)

include ranked observed

section

variable (member : id ∈ order)
include member

theorem stuck_of_mem_blocking
    (blocks : root ∈ rootsAt (shownCauses tasks order intrinsic) (·.blockingRoots) id) :
    (shownState tasks order intrinsic id).Stuck := by
  rcases ((causes_spec ranked member (observed id)).blocking root).mp blocks with
    ⟨stuck, _⟩ | ⟨_, stuck, _⟩
  · cases shown_spec intrinsic ranked member with
    | own _ same => rwa [same]
    | blocked ready _ same => exact Or.inl same
    | waiting ready _ _ same | ready ready _ same =>
        rw [ready] at stuck
        rcases stuck with impossible | impossible <;> cases impossible
  · exact stuck

theorem mem_blocking_iff :
    root ∈ rootsAt (shownCauses tasks order intrinsic) (·.blockingRoots) id ↔
      (stateIn intrinsic root).Stuck ∧
        Relation.ReflTransGen (ReadyStep tasks intrinsic) id root := by
  refine @Ranked.holds_of_needs _ _ _ ranked (fun id =>
    root ∈ rootsAt (shownCauses tasks order intrinsic) (·.blockingRoots) id ↔
      (stateIn intrinsic root).Stuck ∧
        Relation.ReflTransGen (ReadyStep tasks intrinsic) id root) ?_ id member
  intro id member below
  rw [(causes_spec ranked member (observed id)).blocking root]
  constructor
  · rintro (⟨stuck, rfl⟩ | ⟨ready, _, need, inside, blocks⟩)
    · exact ⟨stuck, .refl⟩
    · obtain ⟨stuck, path⟩ := (below need inside).mp blocks
      exact ⟨stuck, path.head ⟨ready, inside⟩⟩
  · rintro ⟨stuck, path⟩
    rcases Relation.ReflTransGen.cases_head path with rfl | ⟨need, ⟨ready, inside⟩, rest⟩
    · exact Or.inl ⟨stuck, rfl⟩
    · have blocks := (below need inside).mpr ⟨stuck, rest⟩
      refine Or.inr ⟨ready, ?_, need, inside, blocks⟩
      have blocked := stuck_of_mem_blocking ranked observed (ranked.closed member inside) blocks
      cases shown_spec intrinsic ranked member with
      | own settled _ => exact absurd ready settled
      | blocked _ _ same => exact Or.inl same
      | waiting _ free _ _ => exact absurd blocked (free _ (List.mem_map_of_mem inside))
      | ready _ done _ =>
          rw [done _ (List.mem_map_of_mem inside)] at blocked
          rcases blocked with impossible | impossible <;> cases impossible

theorem exists_blocking (stuck : (shownState tasks order intrinsic id).Stuck) :
    ∃ root, root ∈ rootsAt (shownCauses tasks order intrinsic) (·.blockingRoots) id := by
  refine @Ranked.holds_of_needs _ _ _ ranked (fun id => (shownState tasks order intrinsic id).Stuck
    → ∃ root, root ∈ rootsAt (shownCauses tasks order intrinsic) (·.blockingRoots) id)
    ?_ id member stuck
  intro id member below stuck
  cases shown_spec intrinsic ranked member with
  | own _ same =>
      rw [same] at stuck
      exact ⟨id, ((causes_spec ranked member (observed id)).blocking id).mpr (Or.inl ⟨stuck, rfl⟩)⟩
  | blocked ready causes same =>
      obtain ⟨state, inside, met⟩ := causes
      obtain ⟨need, uses, rfl⟩ := List.mem_map.mp inside
      obtain ⟨root, blocks⟩ := below need uses met
      exact ⟨root, ((causes_spec ranked member (observed id)).blocking root).mpr
        (Or.inr ⟨ready, stuck, need, uses, blocks⟩)⟩
  | waiting _ _ _ same | ready _ _ same =>
      rw [same] at stuck
      rcases stuck with impossible | impossible <;> cases impossible

theorem exists_propagation (free : ¬ (shownState tasks order intrinsic id).Stuck)
    (open_ : shownState tasks order intrinsic id ≠ .completed) :
    ∃ root, root ∈ rootsAt (shownCauses tasks order intrinsic) (·.waitingPropagationRoots) id := by
  refine @Ranked.holds_of_needs _ _ _ ranked
    (fun id => ¬ (shownState tasks order intrinsic id).Stuck →
    shownState tasks order intrinsic id ≠ .completed →
    ∃ root, root ∈ rootsAt (shownCauses tasks order intrinsic) (·.waitingPropagationRoots) id)
    ?_ id member free open_
  intro id member below free open_
  have spec := (causes_spec ranked member (observed id)).propagation
  cases shown_spec intrinsic ranked member with
  | own settled same =>
      rw [same] at free open_
      refine ⟨id, (spec id).mpr (Or.inl ⟨Or.inl ?_, rfl⟩)⟩
      cases own : stateIn intrinsic id with
      | ready => exact absurd own settled
      | waiting => exact absurd own (observed id)
      | completed => exact absurd own open_
      | blocked => exact absurd (Or.inl own) free
      | unavailable => exact absurd (Or.inr own) free
      | busy => rfl
  | blocked _ _ same => exact absurd (Or.inl same) free
  | waiting ready clear unfinished same =>
      obtain ⟨state, inside, different⟩ := unfinished
      obtain ⟨need, uses, rfl⟩ := List.mem_map.mp inside
      obtain ⟨root, waited⟩ := below need uses (clear _ inside) different
      refine ⟨root, (spec root).mpr (Or.inr ⟨ready, ?_, need, uses, waited⟩)⟩
      rw [same]
      decide
  | ready _ _ same => exact ⟨id, (spec id).mpr (Or.inl ⟨Or.inr same, rfl⟩)⟩

theorem exists_waiting (waits : shownState tasks order intrinsic id = .waiting) :
    ∃ root, root ∈ rootsAt (shownCauses tasks order intrinsic) (·.waitingRoots) id := by
  have spec := causes_spec ranked member (observed id)
  have free : ¬ (shownState tasks order intrinsic id).Stuck := by
    rw [waits]
    rintro (impossible | impossible) <;> cases impossible
  obtain ⟨root, waited⟩ := exists_propagation ranked observed member free (by rw [waits]; decide)
  rcases (spec.propagation root).mp waited with ⟨busy | ready, _⟩ | deeper
  · cases shown_spec intrinsic ranked member with
    | own _ same => exact absurd (same.symm.trans waits) (observed id)
    | blocked _ _ same => cases same.symm.trans waits
    | waiting ready _ _ _ => cases ready.symm.trans busy
    | ready _ _ same => cases same.symm.trans waits
  · cases ready.symm.trans waits
  · exact ⟨root, (spec.waiting root).mpr (Or.inr deeper)⟩

theorem path_of_propagation
    (waited : root ∈ rootsAt (shownCauses tasks order intrinsic) (·.waitingPropagationRoots) id) :
    Relation.ReflTransGen (Needs tasks) id root := by
  refine @Ranked.holds_of_needs _ _ _ ranked (fun id =>
    root ∈ rootsAt (shownCauses tasks order intrinsic) (·.waitingPropagationRoots) id →
    Relation.ReflTransGen (Needs tasks) id root) ?_ id member waited
  intro id member below waited
  rcases ((causes_spec ranked member (observed id)).propagation root).mp waited with
    ⟨_, rfl⟩ | ⟨_, _, need, inside, deeper⟩
  · exact .refl
  · exact (below need inside deeper).head inside

theorem path_of_cause
    (cause : root ∈ rootsAt (shownCauses tasks order intrinsic) (·.blockingRoots) id ∨
      root ∈ rootsAt (shownCauses tasks order intrinsic) (·.waitingRoots) id) :
    Relation.ReflTransGen (Needs tasks) id root := by
  rcases cause with blocks | waits
  · obtain ⟨_, path⟩ := (mem_blocking_iff ranked observed member).mp blocks
    exact Relation.ReflTransGen.mono (fun _ _ step => step.2) _ _ path
  · rcases ((causes_spec ranked member (observed id)).waiting root).mp waits with
      ⟨_, rfl⟩ | ⟨_, _, need, inside, deeper⟩
    · exact .refl
    · exact (path_of_propagation ranked observed (ranked.closed member inside) deeper).head inside

end

end

/-! Descendants. -/

theorem listed_of_needs {need : JsString} (uses : Needs tasks id need) :
    id ∈ tasks.map (·.campaignId) := by
  by_contra absent
  have missing : (tasks.find? fun task => task.campaignId = id) = none := by
    rw [List.find?_eq_none]
    intro task present same
    exact absent (List.mem_map.mpr ⟨task, present, by simpa using same⟩)
  rw [Needs, dependenciesOf, missing] at uses
  cases uses

theorem mem_descendants_iff (sound : Tasks.Sound tasks)
    (ranked : Ranked (dependenciesOf tasks) [] order)
    (perm : order.Perm (tasks.map (·.campaignId))) {descendant : JsString} (member : id ∈ order) :
    descendant ∈ ((JsMap.fillAlong (descendantsOf tasks) order.reverse []).get? id).getD [] ↔
      Relation.TransGen (Needs tasks) descendant id := by
  have reversed : Ranked (dependantsOf tasks) [] order.reverse := by
    refine ranked.reverse fun node _ dependant uses => ?_
    obtain ⟨listed, inside⟩ := (mem_dependantsOf sound).mp uses
    exact ⟨perm.mem_iff.mpr listed, inside⟩
  refine @Ranked.holds_of_needs _ _ _ reversed (fun id =>
    descendant ∈ ((JsMap.fillAlong (descendantsOf tasks) order.reverse []).get? id).getD [] ↔
      Relation.TransGen (Needs tasks) descendant id) ?_ id (List.mem_reverse.mpr member)
  intro id member below
  obtain ⟨before, agrees, -, found⟩ :=
    @JsMap.fillAlong_spec _ _ _ (descendantsOf tasks) _ _ _ [] reversed List.nodup_nil id member
  rw [found, Option.getD_some, descendantsOf, List.mem_eraseDups, List.mem_flatMap,
    Relation.TransGen.tail'_iff]
  constructor
  · rintro ⟨dependant, uses, inside⟩
    refine ⟨dependant, ?_, ((mem_dependantsOf sound).mp uses).2⟩
    rcases List.mem_cons.mp inside with rfl | deeper
    · exact .refl
    · rw [agrees dependant uses] at deeper
      exact ((below dependant uses).mp deeper).to_reflTransGen
  · rintro ⟨dependant, path, inside⟩
    have listed := listed_of_needs inside
    have uses := (mem_dependantsOf sound).mpr ⟨listed, inside⟩
    refine ⟨dependant, uses, List.mem_cons.mpr ?_⟩
    rcases Relation.reflTransGen_iff_eq_or_transGen.mp path with same | strict
    · exact Or.inl same.symm
    · right
      rw [agrees dependant uses]
      exact (below dependant uses).mpr strict

end AshlrHub.Universe
