import AshlrHub.Js.MapMerge
import AshlrHub.Vision.MissionCycles

namespace AshlrHub.Vision

open Js Lib

/-! The projection of a mission graph: what each node has come to, from what has been observed. -/

inductive MissionNodeObservedState where
  | active
  | proposed
  | realized
  | failed

structure MissionNodeObservation where
  nodeKey : JsString
  state : Option MissionNodeObservedState
  humanApproved : Option Bool

inductive MissionNodeProjectionStatus where
  | blocked
  | ready
  | active
  | proposed
  | awaitingHuman
  | complete
  | failed
deriving DecidableEq

structure MissionNodeProjection where
  key : JsString
  kind : MissionGraphNodeKind
  repo : Option JsString
  status : MissionNodeProjectionStatus
  blockedBy : List JsString
  observedState : Option MissionNodeObservedState

inductive MissionStatus where
  | blocked
  | ready
  | inProgress
  | awaitingHuman
  | complete
  | failed

structure MissionGraphProjection where
  graphDigest : JsString
  status : MissionStatus
  counts : MissionNodeProjectionStatus → ℕ
  nodes : List MissionNodeProjection

/-! Observations. -/

abbrev Observed := JsMap JsString MissionNodeObservation

def fieldsMatch (kind : MissionGraphNodeKind) (observation : MissionNodeObservation) : Bool :=
  match kind with
  | .humanGate => observation.state = none
  | .work => observation.humanApproved = none

def takeObservation (nodes : JsMap JsString EcosystemMissionGraphNodeV1)
    (taken : List MissionGraphValidationIssue × Observed) (entry : MissionNodeObservation × ℕ) :
    List MissionGraphValidationIssue × Observed :=
  let (observation, index) := entry
  let path := itemPath (js "observations") index
  match nodes.get? observation.nodeKey with
  | none =>
      (taken.1 ++ [⟨.unknownObservationNode, path ++ js ".nodeKey",
        js "unknown node '" ++ observation.nodeKey ++ js "'"⟩], taken.2)
  | some node =>
      if (taken.2.get? observation.nodeKey).isSome then
        (taken.1 ++ [⟨.duplicateObservation, path ++ js ".nodeKey",
          js "duplicate observation for '" ++ observation.nodeKey ++ js "'"⟩], taken.2)
      else if !fieldsMatch node.kind observation then
        (taken.1 ++ [⟨.invalidObservation, path,
          js "observation fields do not match " ++ node.kind.text ++ js " node"⟩], taken.2)
      else (taken.1, taken.2.set observation.nodeKey observation)

def nodesByKey (nodes : List EcosystemMissionGraphNodeV1) :
    JsMap JsString EcosystemMissionGraphNodeV1 :=
  JsMap.ofEntries (nodes.map fun node => (node.key, node))

def takeObservations (nodes : List EcosystemMissionGraphNodeV1)
    (observations : List MissionNodeObservation) : List MissionGraphValidationIssue × Observed :=
  observations.zipIdx.foldl (takeObservation (nodesByKey nodes)) ([], [])

/-! The rounds. -/

abbrev Projections := JsMap JsString MissionNodeProjection

def statusIn (projections : Projections) (key : JsString) : Option MissionNodeProjectionStatus :=
  (projections.get? key).map (·.status)

def observedStatus (kind : MissionGraphNodeKind) (observation : Option MissionNodeObservation) :
    MissionNodeProjectionStatus :=
  match kind with
  | .humanGate =>
      if observation.bind (·.humanApproved) = some true then .complete else .awaitingHuman
  | .work =>
      match observation.bind (·.state) with
      | some .failed => .failed
      | some .realized => .complete
      | some .proposed => .proposed
      | some .active => .active
      | none => .ready

def projectNode (observed : JsString → Option MissionNodeObservation) (projections : Projections)
    (node : EcosystemMissionGraphNodeV1) : MissionNodeProjection :=
  let blockedBy := node.dependsOn.filter fun dependency =>
    statusIn projections dependency ≠ some .complete
  { key := node.key
    kind := node.kind
    repo := node.repo
    status := if blockedBy ≠ [] then .blocked else observedStatus node.kind (observed node.key)
    blockedBy
    observedState := (observed node.key).bind (·.state) }

def readyNodes (pending : JsMap JsString EcosystemMissionGraphNodeV1)
    (projections : Projections) : List EcosystemMissionGraphNodeV1 :=
  sortNodes ((pending.map (·.2)).filter fun node =>
    node.dependsOn.all fun dependency => (projections.get? dependency).isSome)

def projectRounds (observed : JsString → Option MissionNodeObservation) :
    ℕ → JsMap JsString EcosystemMissionGraphNodeV1 → Projections → Option Projections
  | _, [], projections => some projections
  | 0, _ :: _, _ => none
  | rounds + 1, entry :: entries, projections =>
      let ready := readyNodes (entry :: entries) projections
      if ready = [] then none
      else projectRounds observed rounds
        (ready.foldl (fun pending node => pending.delete node.key) (entry :: entries))
        (ready.foldl (fun projections node =>
          projections.set node.key (projectNode observed projections node)) projections)

def missionStatus (counts : MissionNodeProjectionStatus → ℕ) (total : ℕ) : MissionStatus :=
  if 0 < counts .failed then .failed
  else if counts .complete = total then .complete
  else if 0 < counts .active + counts .proposed then .inProgress
  else if 0 < counts .awaitingHuman then .awaitingHuman
  else if 0 < counts .ready then .ready
  else .blocked

def projectEcosystemMissionGraph (unicode : Normalization) (hash : Bytes → JsString)
    (graph : EcosystemMissionGraphV1) (observations : List MissionNodeObservation) :
    Except (List MissionGraphValidationIssue) MissionGraphProjection :=
  let (refused, observed) := takeObservations graph.nodes observations
  let issues := validateEcosystemMissionGraph unicode hash graph ++ refused
  if issues ≠ [] then .error issues
  else
    match projectRounds observed.get? graph.nodes.length (nodesByKey graph.nodes) [] with
    | none =>
        .error [⟨.cyclicDependency, js "nodes", js "projection cannot order dependency graph"⟩]
    | some projections =>
        let nodes := graph.nodes.filterMap fun node => projections.get? node.key
        let counts := fun status => (nodes.filter fun node => node.status = status).length
        .ok
          { graphDigest := graph.graphDigest
            status := missionStatus counts nodes.length
            counts
            nodes }

/-! The projection follows the closure of the dependencies. -/

variable {nodes : List EcosystemMissionGraphNodeV1} {observations : List MissionNodeObservation}
  {key : JsString}

/-! Observations. -/

structure Accepted (nodes : List EcosystemMissionGraphNodeV1)
    (observations : List MissionNodeObservation) : Prop where
  known : ∀ observation ∈ observations, ∃ node,
    (nodesByKey nodes).get? observation.nodeKey = some node ∧
      fieldsMatch node.kind observation = true
  once : (observations.map (·.nodeKey)).Nodup

def Fits (byKey : JsMap JsString EcosystemMissionGraphNodeV1) (taken : Observed)
    (observation : MissionNodeObservation) : Prop :=
  (∃ node, byKey.get? observation.nodeKey = some node ∧
    fieldsMatch node.kind observation = true) ∧ taken.get? observation.nodeKey = none

theorem takeObservation_eq_nil {byKey : JsMap JsString EcosystemMissionGraphNodeV1}
    {taken : List MissionGraphValidationIssue × Observed} {entry : MissionNodeObservation × ℕ} :
    (takeObservation byKey taken entry).1 = [] ↔ taken.1 = [] ∧ Fits byKey taken.2 entry.1 := by
  unfold takeObservation Fits
  dsimp only
  cases found : byKey.get? entry.1.nodeKey with
  | none => simp
  | some node =>
      dsimp only
      split_ifs with known mismatch
      · simp [Option.isSome_iff_ne_none.mp known]
      · rw [Bool.not_eq_true'] at mismatch
        simp [mismatch]
      · simp only [Bool.not_eq_true', Bool.not_eq_false] at mismatch
        rw [Option.not_isSome_iff_eq_none] at known
        simp [mismatch, known]

theorem takeObservation_taken {byKey : JsMap JsString EcosystemMissionGraphNodeV1}
    {taken : List MissionGraphValidationIssue × Observed} {entry : MissionNodeObservation × ℕ}
    (fits : Fits byKey taken.2 entry.1) :
    (takeObservation byKey taken entry).2 = taken.2.set entry.1.nodeKey entry.1 := by
  obtain ⟨⟨node, found, fields⟩, fresh⟩ := fits
  unfold takeObservation
  simp [found, fields, fresh]

theorem foldl_takeObservation {byKey : JsMap JsString EcosystemMissionGraphNodeV1} :
    {entries : List (MissionNodeObservation × ℕ)} →
    {taken : List MissionGraphValidationIssue × Observed} →
    ((entries.foldl (takeObservation byKey) taken).1 = [] ↔
      taken.1 = [] ∧ (entries.map (·.1.nodeKey)).Nodup ∧
        ∀ entry ∈ entries, Fits byKey taken.2 entry.1) ∧
    ((entries.foldl (takeObservation byKey) taken).1 = [] →
      (entries.foldl (takeObservation byKey) taken).2 =
        entries.foldl (fun map entry => map.set entry.1.nodeKey entry.1) taken.2)
  | [], taken => by simp
  | entry :: entries, taken => by
      obtain ⟨clean, result⟩ := @foldl_takeObservation byKey entries
        (takeObservation byKey taken entry)
      rw [List.foldl_cons, List.foldl_cons]
      refine ⟨clean.trans ?_, fun accepted => ?_⟩
      · rw [takeObservation_eq_nil]
        constructor
        · rintro ⟨⟨start, first⟩, once, rest⟩
          rw [takeObservation_taken first] at rest
          refine ⟨start, ?_, ?_⟩
          · rw [List.map_cons, List.nodup_cons]
            refine ⟨fun repeated => ?_, once⟩
            obtain ⟨other, listed, same⟩ := List.mem_map.mp repeated
            have free := (rest other listed).2
            rw [same, JsMap.get?_set_self] at free
            cases free
          · intro other member
            rcases List.mem_cons.mp member with rfl | later
            · exact first
            · obtain ⟨known, free⟩ := rest other later
              refine ⟨known, ?_⟩
              by_cases same : other.1.nodeKey = entry.1.nodeKey
              · rw [same, JsMap.get?_set_self] at free
                cases free
              · rwa [JsMap.get?_set_ne same] at free
        · rintro ⟨start, once, all⟩
          have first := all entry List.mem_cons_self
          rw [List.map_cons, List.nodup_cons] at once
          refine ⟨⟨start, first⟩, once.2, fun other later => ?_⟩
          obtain ⟨known, free⟩ := all other (List.mem_cons_of_mem _ later)
          have apart : other.1.nodeKey ≠ entry.1.nodeKey := fun same =>
            once.1 (same ▸ List.mem_map_of_mem later)
          rw [takeObservation_taken first]
          exact ⟨known, by rw [JsMap.get?_set_ne apart, free]⟩
      · rw [result accepted]
        have first := (takeObservation_eq_nil.mp (clean.mp accepted).1).2
        rw [takeObservation_taken first]

theorem accepted_iff : (takeObservations nodes observations).1 = [] ↔
    Accepted nodes observations := by
  have keys : observations.zipIdx.map (fun entry => entry.1.nodeKey) =
      observations.map (·.nodeKey) := by
    rw [← List.zipIdx_map_fst 0 observations, List.map_map, List.zipIdx_map_fst 0 observations]
    rfl
  rw [takeObservations, foldl_takeObservation.1, keys]
  constructor
  · rintro ⟨-, once, all⟩
    refine ⟨fun observation member => ?_, once⟩
    rw [← List.zipIdx_map_fst 0 observations, List.mem_map] at member
    obtain ⟨entry, listed, rfl⟩ := member
    exact (all entry listed).1
  · rintro ⟨known, once⟩
    refine ⟨rfl, once, fun entry listed => ⟨?_, rfl⟩⟩
    apply known
    rw [← List.zipIdx_map_fst 0 observations]
    exact List.mem_map_of_mem listed

theorem observed_get? (accepted : Accepted nodes observations) :
    (takeObservations nodes observations).2.get? key =
      observations.find? fun observation => observation.nodeKey = key := by
  have clean := accepted_iff.mpr accepted
  have table : (takeObservations nodes observations).2 =
      JsMap.ofEntries (observations.map fun observation => (observation.nodeKey, observation)) := by
    rw [takeObservations, foldl_takeObservation.2 clean]
    conv_rhs => rw [← List.zipIdx_map_fst 0 observations]
    rw [JsMap.ofEntries, List.foldl_map, List.foldl_map]
  have reversed : (observations.reverse.map (·.nodeKey)).Nodup := by
    rw [List.map_reverse]
    exact List.nodup_reverse.mpr accepted.once
  rw [table, get?_ofEntries, ← List.map_reverse, List.find?_map, Option.map_map]
  ext observation
  rw [find?_eq_some_of_key accepted.once]
  constructor
  · intro found
    obtain ⟨other, first, rfl⟩ := Option.map_eq_some_iff.mp found
    have listed := (find?_eq_some_of_key reversed).mp first
    rwa [List.mem_reverse] at listed
  · intro listed
    rw [← List.mem_reverse] at listed
    exact Option.map_eq_some_iff.mpr ⟨observation, (find?_eq_some_of_key reversed).mpr listed, rfl⟩

/-! Rounds. -/

def dependenciesOf (nodes : List EcosystemMissionGraphNodeV1) (key : JsString) : List JsString :=
  ((nodes.find? fun node => node.key = key).map (·.dependsOn)).getD []

variable {node : EcosystemMissionGraphNodeV1}

theorem find?_node (sound : Sound nodes)
    (member : node ∈ nodes) : nodes.find? (fun other => other.key = node.key) = some node :=
  (find?_eq_some_of_key sound.once).mpr ⟨member, rfl⟩

theorem dependenciesOf_eq (sound : Sound nodes)
    (member : node ∈ nodes) : dependenciesOf nodes node.key = node.dependsOn := by
  rw [dependenciesOf, find?_node sound member]
  rfl

theorem mem_dependenciesOf (sound : Sound nodes) {dependency : JsString} :
    dependency ∈ dependenciesOf nodes key ↔ DependsOn nodes key dependency := by
  rw [dependsOn_iff sound.once]
  constructor
  · intro member
    cases found : nodes.find? fun node => node.key = key with
    | none =>
        rw [dependenciesOf, found] at member
        cases member
    | some node =>
        obtain ⟨listed, named⟩ := (find?_eq_some_of_key sound.once).mp found
        rw [dependenciesOf, found] at member
        exact ⟨node, listed, named, member⟩
  · rintro ⟨node, listed, rfl, member⟩
    rwa [dependenciesOf_eq sound listed]

def projectKey (nodes : List EcosystemMissionGraphNodeV1)
    (observed : JsString → Option MissionNodeObservation) (projections : Projections)
    (key : JsString) : MissionNodeProjection :=
  match nodes.find? fun node => node.key = key with
  | some node => projectNode observed projections node
  | none => ⟨key, .work, none, .blocked, [], none⟩

def pendingAfter (nodes : List EcosystemMissionGraphNodeV1) (done : List JsString) :
    JsMap JsString EcosystemMissionGraphNodeV1 :=
  (nodes.filter fun node => node.key ∉ done).map fun node => (node.key, node)

section

variable {observed : JsString → Option MissionNodeObservation} {done : List JsString}

theorem isSome_fillAlong {value : Projections → JsString → MissionNodeProjection} :
    {order : List JsString} → {projections : Projections} →
    (((JsMap.fillAlong value order projections).get? key).isSome ↔
      key ∈ order ∨ (projections.get? key).isSome)
  | [], projections => by simp [JsMap.fillAlong]
  | first :: order, projections => by
      rw [JsMap.fillAlong, List.foldl_cons, ← JsMap.fillAlong, isSome_fillAlong, JsMap.get?_set,
        List.mem_cons]
      by_cases same : key = first
      · simp [same]
      · simp [same]

theorem fillAlong_append {value : Projections → JsString → MissionNodeProjection}
    (front back : List JsString) (projections : Projections) :
    JsMap.fillAlong value (front ++ back) projections =
      JsMap.fillAlong value back (JsMap.fillAlong value front projections) :=
  List.foldl_append

def roundOf (nodes : List EcosystemMissionGraphNodeV1)
    (observed : JsString → Option MissionNodeObservation) (done : List JsString) :
    List EcosystemMissionGraphNodeV1 :=
  readyNodes (pendingAfter nodes done) (JsMap.fillAlong (projectKey nodes observed) done [])

theorem mem_roundOf {node : EcosystemMissionGraphNodeV1} :
    node ∈ roundOf nodes observed done ↔
      node ∈ nodes ∧ node.key ∉ done ∧ ∀ dependency ∈ node.dependsOn, dependency ∈ done := by
  rw [roundOf, readyNodes, sortNodes, List.mem_insertionSort, List.mem_filter, pendingAfter,
    List.map_map]
  simp only [Function.comp_def, List.map_id', List.mem_filter, decide_eq_true_eq, and_assoc,
    List.all_eq_true, isSome_fillAlong, JsMap.get?_nil, Option.isSome_none, Bool.false_eq_true,
    or_false]

theorem nodup_roundOf (sound : Sound nodes) :
    ((roundOf nodes observed done).map (·.key)).Nodup := by
  have perm := (List.perm_insertionSort
    (fun left right : EcosystemMissionGraphNodeV1 => left.key ≤ right.key)
    (((pendingAfter nodes done).map (·.2)).filter fun node => node.dependsOn.all fun dependency =>
      ((JsMap.fillAlong (projectKey nodes observed) done []).get? dependency).isSome)).map (·.key)
  refine perm.nodup_iff.mpr (List.Nodup.sublist ?_ sound.once)
  refine (List.filter_sublist.map _).trans ?_
  rw [pendingAfter, List.map_map, List.map_map]
  exact List.filter_sublist.map _

theorem roundOf_ne_nil (sound : Sound nodes) (open_ : pendingAfter nodes done ≠ []) :
    roundOf nodes observed done ≠ [] := by
  intro stuck
  rw [pendingAfter, ne_eq, List.map_eq_nil_iff, ← ne_eq] at open_
  obtain ⟨start, left⟩ := List.exists_mem_of_ne_nil _ open_
  have serial : ∀ key ∈ (nodes.filter fun node => node.key ∉ done).map (·.key),
      ∃ next ∈ (nodes.filter fun node => node.key ∉ done).map (·.key),
        DependsOn nodes key next := by
    intro key listed
    obtain ⟨node, inside, rfl⟩ := List.mem_map.mp listed
    rw [List.mem_filter, decide_eq_true_eq] at inside
    have waits : ¬ ∀ dependency ∈ node.dependsOn, dependency ∈ done := fun free => by
      have ready := (@mem_roundOf nodes observed done node).mpr ⟨inside.1, inside.2, free⟩
      rw [stuck] at ready
      cases ready
    push Not at waits
    obtain ⟨dependency, depends, later⟩ := waits
    obtain ⟨other, present, named⟩ := List.mem_map.mp
      (sound.resolved node inside.1 dependency depends)
    refine ⟨dependency, List.mem_map.mpr ⟨other, ?_, named⟩,
      (dependsOn_iff sound.once).mpr ⟨node, inside.1, rfl, depends⟩⟩
    rw [List.mem_filter, decide_eq_true_eq, named]
    exact ⟨present, later⟩
  obtain ⟨around, _, cycle⟩ := reachesCycle_of_serial serial start.key (List.mem_map_of_mem left)
  exact sound.acyclic around cycle

theorem ranked_roundOf (sound : Sound nodes) :
    ∀ {front back : List EcosystemMissionGraphNodeV1},
      front ++ back = roundOf nodes observed done →
      Ranked (dependenciesOf nodes) (done ++ front.map (·.key)) (back.map (·.key)) := by
  intro front back whole
  induction back generalizing front with
  | nil => trivial
  | cons node back ih =>
      have inside : node ∈ roundOf nodes observed done := by
        rw [← whole]
        simp
      obtain ⟨listed, fresh, free⟩ := mem_roundOf.mp inside
      have once := @nodup_roundOf nodes observed done sound
      rw [← whole, List.map_append, List.map_cons, List.nodup_middle, List.nodup_cons] at once
      have rest := @ih (front ++ [node]) (by rw [← whole]; simp)
      refine ⟨?_, fun need member => ?_, ?_⟩
      · rw [List.mem_append, not_or]
        exact ⟨fresh, fun early => once.1 (List.mem_append_left _ early)⟩
      · rw [dependenciesOf_eq sound listed] at member
        exact List.mem_append_left _ (free need member)
      · rwa [List.map_append, ← List.append_assoc] at rest

theorem foldl_delete : {round : List EcosystemMissionGraphNodeV1} → {done : List JsString} →
    round.foldl (fun pending node => pending.delete node.key) (pendingAfter nodes done) =
      pendingAfter nodes (done ++ round.map (·.key))
  | [], done => by simp
  | node :: round, done => by
      have once : (pendingAfter nodes done).delete node.key =
          pendingAfter nodes (done ++ [node.key]) := by
        unfold JsMap.delete pendingAfter
        rw [List.filter_map, List.filter_filter]
        congr 2
        funext other
        simp [Bool.and_comm]
      rw [List.foldl_cons, once, foldl_delete]
      simp

theorem length_pendingAfter_lt {more : List JsString}
    (member : node ∈ nodes) (fresh : node.key ∉ done) (taken : node.key ∈ more) :
    (pendingAfter nodes (done ++ more)).length < (pendingAfter nodes done).length := by
  have cut : nodes.filter (fun other => other.key ∉ done ++ more) =
      (nodes.filter fun other => other.key ∉ done).filter fun other => other.key ∉ more := by
    rw [List.filter_filter]
    congr 1
    funext other
    simp [Bool.and_comm]
  rw [pendingAfter, pendingAfter, List.length_map, List.length_map, cut,
    List.length_filter_lt_length_iff_exists]
  exact ⟨node, by simp [member, fresh], by simpa using taken⟩

theorem foldl_projectNode (sound : Sound nodes) : {round : List EcosystemMissionGraphNodeV1} →
    {projections : Projections} → (∀ node ∈ round, node ∈ nodes) →
    round.foldl (fun projections node =>
      projections.set node.key (projectNode observed projections node)) projections =
      JsMap.fillAlong (projectKey nodes observed) (round.map (·.key)) projections
  | [], _, _ => rfl
  | node :: round, projections, inside => by
      have here : projectKey nodes observed projections node.key =
          projectNode observed projections node := by
        rw [projectKey, find?_node sound (inside node List.mem_cons_self)]
      rw [List.foldl_cons, foldl_projectNode sound fun other member =>
        inside other (List.mem_cons_of_mem _ member), List.map_cons, JsMap.fillAlong,
        JsMap.fillAlong, List.foldl_cons, here]

theorem projectRounds_ranked (sound : Sound nodes) : ∀ {rounds : ℕ} {done : List JsString},
    (pendingAfter nodes done).length ≤ rounds → Ranked (dependenciesOf nodes) [] done →
    (∀ key ∈ done, key ∈ nodes.map (·.key)) →
    ∃ order, Ranked (dependenciesOf nodes) [] order ∧
      (∀ key, key ∈ order ↔ key ∈ nodes.map (·.key)) ∧
      projectRounds observed rounds (pendingAfter nodes done)
        (JsMap.fillAlong (projectKey nodes observed) done []) =
          some (JsMap.fillAlong (projectKey nodes observed) order []) := by
  intro rounds
  induction rounds with
  | zero =>
      intro done enough ranked within
      have nothing := List.eq_nil_of_length_eq_zero (Nat.le_zero.mp enough)
      refine ⟨done, ranked, fun key => ⟨within key, fun listed => ?_⟩, ?_⟩
      · obtain ⟨node, member, rfl⟩ := List.mem_map.mp listed
        rw [pendingAfter, List.map_eq_nil_iff, List.filter_eq_nil_iff] at nothing
        simpa using nothing node member
      · rw [nothing]
        rfl
  | succ rounds ih =>
      intro done enough ranked within
      cases pending : pendingAfter nodes done with
      | nil =>
          refine ⟨done, ranked, fun key => ⟨within key, fun listed => ?_⟩, rfl⟩
          obtain ⟨node, member, rfl⟩ := List.mem_map.mp listed
          rw [pendingAfter, List.map_eq_nil_iff, List.filter_eq_nil_iff] at pending
          simpa using pending node member
      | cons entry entries =>
          have open_ : pendingAfter nodes done ≠ [] := by
            rw [pending]
            exact List.cons_ne_nil _ _
          have some_ := @roundOf_ne_nil nodes observed done sound open_
          obtain ⟨first, present⟩ := List.exists_mem_of_ne_nil _ some_
          obtain ⟨listed, fresh, _⟩ := mem_roundOf.mp present
          have inside : ∀ node ∈ roundOf nodes observed done, node ∈ nodes :=
            fun node member => (mem_roundOf.mp member).1
          have more : Ranked (dependenciesOf nodes) []
              (done ++ (roundOf nodes observed done).map (·.key)) := by
            refine Ranked.append.mpr ⟨ranked, ?_⟩
            have start := @ranked_roundOf nodes observed done sound [] _ rfl
            rwa [List.map_nil, List.append_nil] at start
          have fewer := length_pendingAfter_lt listed fresh (List.mem_map_of_mem present)
          have shorter := Nat.le_of_lt_succ (fewer.trans_le enough)
          obtain ⟨order, sorted, all, result⟩ := ih shorter more (by
            intro key member
            rcases List.mem_append.mp member with early | late
            · exact within key early
            · obtain ⟨node, isIn, rfl⟩ := List.mem_map.mp late
              exact List.mem_map_of_mem (inside node isIn))
          refine ⟨order, sorted, all, ?_⟩
          rw [projectRounds, ← pending]
          have round : readyNodes (pendingAfter nodes done)
              (JsMap.fillAlong (projectKey nodes observed) done []) =
                roundOf nodes observed done := rfl
          simp only [round]
          rw [if_neg some_, foldl_delete, foldl_projectNode sound inside, ← fillAlong_append,
            result]

end

/-! The projection. -/

def Fulfilled (nodes : List EcosystemMissionGraphNodeV1)
    (observations : List MissionNodeObservation) (key : JsString) : Prop :=
  ∃ node ∈ nodes, node.key = key ∧ ∃ observation ∈ observations, observation.nodeKey = key ∧
    match node.kind with
    | .work => observation.state = some .realized
    | .humanGate => observation.humanApproved = some true

theorem fulfilled_iff (sound : Sound nodes) (accepted : Accepted nodes observations)
    (member : node ∈ nodes) :
    Fulfilled nodes observations node.key ↔ observedStatus node.kind
      (observations.find? fun observation => observation.nodeKey = node.key) = .complete := by
  constructor
  · rintro ⟨other, listed, same, observation, told, named, done⟩
    rw [List.inj_on_of_nodup_map sound.once listed member same] at done
    rw [(find?_eq_some_of_key accepted.once).mpr ⟨told, named⟩]
    cases kind : node.kind with
    | work | humanGate =>
        rw [kind] at done
        simp [observedStatus, done]
  · intro complete
    cases found : observations.find? fun observation => observation.nodeKey = node.key with
    | none =>
        rw [found] at complete
        cases kind : node.kind with
        | work | humanGate =>
            rw [kind] at complete
            cases complete
    | some observation =>
        obtain ⟨told, named⟩ := (find?_eq_some_of_key accepted.once).mp found
        refine ⟨node, member, rfl, observation, told, named, ?_⟩
        rw [found] at complete
        cases kind : node.kind with
        | work =>
            rw [kind] at complete
            cases state : observation.state with
            | none => simp [observedStatus, state] at complete
            | some value => cases value <;> simp_all [observedStatus]
        | humanGate =>
            rw [kind] at complete
            simpa [observedStatus] using complete

section

variable {observed : JsString → Option MissionNodeObservation} {order : List JsString}

def projectionsAlong (nodes : List EcosystemMissionGraphNodeV1)
    (observed : JsString → Option MissionNodeObservation) (order : List JsString) : Projections :=
  JsMap.fillAlong (projectKey nodes observed) order []

theorem projectionsAlong_node (sound : Sound nodes)
    (ranked : Ranked (dependenciesOf nodes) [] order)
    (all : ∀ key, key ∈ order ↔ key ∈ nodes.map (·.key))
    (member : node ∈ nodes) :
    (projectionsAlong nodes observed order).get? node.key =
      some (projectNode observed (projectionsAlong nodes observed order) node) := by
  obtain ⟨before, agrees, -, found⟩ := @JsMap.fillAlong_spec _ _ _ (projectKey nodes observed) _ _ _
    [] ranked List.nodup_nil node.key ((all _).mpr (List.mem_map_of_mem member))
  have blocks : (node.dependsOn.filter fun dependency =>
      statusIn before dependency ≠ some .complete) = node.dependsOn.filter fun dependency =>
        statusIn (projectionsAlong nodes observed order) dependency ≠ some .complete := by
    apply List.filter_congr
    intro dependency depends
    rw [statusIn, agrees dependency (by rwa [dependenciesOf_eq sound member])]
    rfl
  rw [projectionsAlong, found, projectKey, find?_node sound member]
  dsimp only
  rw [projectNode, blocks]
  rfl

theorem blocked_iff {projections : Projections} :
    (projectNode observed projections node).status = .blocked ↔
      ∃ dependency ∈ node.dependsOn, statusIn projections dependency ≠ some .complete := by
  have free : observedStatus node.kind (observed node.key) ≠ .blocked := by
    unfold observedStatus
    cases node.kind with
    | humanGate =>
        dsimp only
        split_ifs <;> exact fun same => MissionNodeProjectionStatus.noConfusion same
    | work =>
        dsimp only
        split <;> exact fun same => MissionNodeProjectionStatus.noConfusion same
  rw [projectNode]
  dsimp only
  split_ifs with blocks
  · obtain ⟨dependency, inside⟩ := List.exists_mem_of_ne_nil _ blocks
    rw [List.mem_filter, decide_eq_true_eq] at inside
    exact ⟨fun _ => ⟨dependency, inside⟩, fun _ => rfl⟩
  · refine ⟨fun same => absurd same free, ?_⟩
    rintro ⟨dependency, depends, open_⟩
    refine absurd (not_not.mp blocks) (List.ne_nil_of_mem (List.mem_filter.mpr ⟨depends, ?_⟩))
    simpa using open_

variable (sound : Sound nodes) (accepted : Accepted nodes observations)
  (ranked : Ranked (dependenciesOf nodes) [] order)
  (all : ∀ key, key ∈ order ↔ key ∈ nodes.map (·.key))
  (told : ∀ key, observed key = observations.find? fun observation => observation.nodeKey = key)

include sound accepted ranked all told

theorem complete_iff (inside : key ∈ order) :
    statusIn (projectionsAlong nodes observed order) key = some .complete ↔
      ∀ other, Relation.ReflTransGen (DependsOn nodes) key other →
        Fulfilled nodes observations other := by
  refine @Ranked.holds_of_needs _ _ _ ranked (fun key =>
    statusIn (projectionsAlong nodes observed order) key = some .complete ↔
      ∀ other, Relation.ReflTransGen (DependsOn nodes) key other →
        Fulfilled nodes observations other) ?_ key inside
  intro key inside below
  obtain ⟨node, member, rfl⟩ := List.mem_map.mp ((all key).mp inside)
  have status : statusIn (projectionsAlong nodes observed order) node.key =
      some (projectNode observed (projectionsAlong nodes observed order) node).status := by
    rw [statusIn, projectionsAlong_node sound ranked all member]
    rfl
  have own := fulfilled_iff sound accepted member
  rw [status, Option.some.injEq]
  constructor
  · intro complete other path
    have free : ¬ ∃ dependency ∈ node.dependsOn,
        statusIn (projectionsAlong nodes observed order) dependency ≠ some .complete := by
      rw [← blocked_iff, complete]
      exact fun same => MissionNodeProjectionStatus.noConfusion same
    push Not at free
    rcases Relation.ReflTransGen.cases_head path with rfl | ⟨next, depends, rest⟩
    · rw [own, ← told]
      rw [projectNode] at complete
      dsimp only at complete
      split_ifs at complete
      exact complete
    · have uses := (mem_dependenciesOf sound).mpr depends
      have step := below next uses
      rw [dependenciesOf_eq sound member] at uses
      exact step.mp (free next uses) other rest
  · intro done
    have clear : (node.dependsOn.filter fun dependency =>
        statusIn (projectionsAlong nodes observed order) dependency ≠ some .complete) = [] := by
      rw [List.filter_eq_nil_iff]
      intro dependency depends
      have uses : dependency ∈ dependenciesOf nodes node.key := by
        rwa [dependenciesOf_eq sound member]
      have complete := (below dependency uses).mpr fun other path =>
        done other (path.head ((mem_dependenciesOf sound).mp uses))
      simp [complete]
    rw [projectNode]
    dsimp only
    rw [clear, if_neg (not_not_intro rfl), told]
    exact own.mp (done node.key .refl)

end

end AshlrHub.Vision
