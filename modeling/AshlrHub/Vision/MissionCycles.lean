import AshlrHub.Lib.Ordering
import AshlrHub.Lib.KeyedMerge
import AshlrHub.Vision.MissionGraph

namespace AshlrHub.Vision

open Js Lib

/-! The members that `cycleMembers` keeps are those from which a cycle is reached. -/

variable {nodes : List EcosystemMissionGraphNodeV1} {sets remaining : Dependencies}
  {key dependency : JsString}

theorem isSome_get? : {remaining : Dependencies} →
    ((remaining.get? key).isSome ↔ key ∈ remaining.keys)
  | [] => by simp [JsMap.keys]
  | entry :: remaining => by
      rw [JsMap.get?_cons, JsMap.keys, List.map_cons, List.mem_cons]
      by_cases same : entry.1 = key
      · rw [if_pos same]
        exact ⟨fun _ => Or.inl same.symm, fun _ => rfl⟩
      · rw [if_neg same, isSome_get?]
        exact ⟨Or.inr, fun listed => listed.resolve_left fun first => same first.symm⟩

def DependsIn (sets : Dependencies) (key dependency : JsString) : Prop :=
  ∃ dependencies, sets.get? key = some dependencies ∧ dependency ∈ dependencies

/-! One visit. -/

theorem visitKey_ne {other : JsString} (different : other ≠ key) :
    (visitKey remaining key).get? other = remaining.get? other := by
  unfold visitKey
  cases remaining.get? key with
  | none => rfl
  | some dependencies =>
      dsimp only
      split_ifs
      · exact JsMap.get?_delete_ne different remaining
      · exact JsMap.get?_set_ne different _ remaining

theorem visitKey_absent (absent : remaining.get? key = none) :
    visitKey remaining key = remaining := by
  rw [visitKey, absent]

def leftOf (remaining : Dependencies) (dependencies : List JsString) : List JsString :=
  dependencies.filter fun dependency => (remaining.get? dependency).isSome

variable {dependencies : List JsString}

theorem visitKey_drops (found : remaining.get? key = some dependencies)
    (done : leftOf remaining dependencies = []) :
    visitKey remaining key = remaining.delete key := by
  rw [visitKey, found]
  exact if_pos done

theorem visitKey_keeps (found : remaining.get? key = some dependencies)
    (open_ : leftOf remaining dependencies ≠ []) :
    visitKey remaining key = remaining.set key (leftOf remaining dependencies) := by
  rw [visitKey, found]
  exact if_neg open_

structure Pruned (sets remaining : Dependencies) : Prop where
  own : ∀ key dependencies, remaining.get? key = some dependencies →
    ∀ dependency ∈ dependencies, DependsIn sets key dependency
  kept : ∀ key dependencies, remaining.get? key = some dependencies → ∀ dependency,
    DependsIn sets key dependency → (remaining.get? dependency).isSome →
    dependency ∈ dependencies
  gone : ∀ key, remaining.get? key = none → ¬ ReachesCycle (DependsIn sets) key

theorem pruned_start (sets : Dependencies) : Pruned sets sets where
  own key dependencies found dependency member := ⟨dependencies, found, member⟩
  kept key dependencies found dependency depends _ := by
    obtain ⟨others, same, member⟩ := depends
    rw [found] at same
    cases same
    exact member
  gone key absent reaches := by
    obtain ⟨next, ⟨dependencies, found, _⟩, _⟩ := reachesCycle_iff.mp reaches
    rw [absent] at found
    cases found

theorem Pruned.visit (pruned : Pruned sets remaining) (key : JsString) :
    Pruned sets (visitKey remaining key) := by
  cases found : remaining.get? key with
  | none => rwa [visitKey_absent found]
  | some dependencies =>
      by_cases done : leftOf remaining dependencies = []
      · rw [visitKey_drops found done]
        refine ⟨fun other others listed => ?_, fun other others listed => ?_,
          fun other absent => ?_⟩
        · by_cases same : other = key
          · rw [same, JsMap.get?_delete_self] at listed
            cases listed
          · rw [JsMap.get?_delete_ne same] at listed
            exact pruned.own other others listed
        · intro dependency depends there
          by_cases same : other = key
          · rw [same, JsMap.get?_delete_self] at listed
            cases listed
          · rw [JsMap.get?_delete_ne same] at listed
            refine pruned.kept other others listed dependency depends ?_
            by_cases first : dependency = key
            · rw [first, found]
              rfl
            · rwa [JsMap.get?_delete_ne first] at there
        · by_cases same : other = key
          · rw [same, reachesCycle_iff]
            rintro ⟨next, depends, reaches⟩
            cases there : remaining.get? next with
            | none => exact pruned.gone next there reaches
            | some _ =>
                have member := pruned.kept key dependencies found next depends (by rw [there]; rfl)
                have inside : next ∈ leftOf remaining dependencies :=
                  List.mem_filter.mpr ⟨member, by rw [there]; rfl⟩
                rw [done] at inside
                cases inside
          · rw [JsMap.get?_delete_ne same] at absent
            exact pruned.gone other absent
      · rw [visitKey_keeps found done]
        have there : ∀ other, ((remaining.set key (leftOf remaining dependencies)).get?
          other).isSome ↔ (remaining.get? other).isSome := by
          intro other
          rw [JsMap.get?_set]
          split_ifs with same
          · rw [same, found]
            exact ⟨fun _ => rfl, fun _ => rfl⟩
          · rfl
        refine ⟨fun other others listed => ?_, fun other others listed => ?_,
          fun other absent => ?_⟩
        · rw [JsMap.get?_set] at listed
          split_ifs at listed with same
          · cases listed
            rw [same]
            intro dependency member
            exact pruned.own key dependencies found dependency (List.mem_filter.mp member).1
          · exact pruned.own other others listed
        · intro dependency depends left
          have still := (there dependency).mp left
          rw [JsMap.get?_set] at listed
          split_ifs at listed with same
          · cases listed
            rw [same] at depends
            exact List.mem_filter.mpr ⟨pruned.kept key dependencies found dependency depends still,
              still⟩
          · exact pruned.kept other others listed dependency depends still
        · apply pruned.gone other
          rw [← Option.not_isSome_iff_eq_none, ← there other, absent]
          exact Bool.false_ne_true

theorem Pruned.foldl (pruned : Pruned sets remaining) (keys : List JsString) :
    Pruned sets (keys.foldl visitKey remaining) := by
  induction keys generalizing remaining with
  | nil => exact pruned
  | cons key keys ih => exact ih (pruned.visit key)

/-! Rounds. -/

theorem length_set {others : List JsString} (found : remaining.get? key = some dependencies) :
    (remaining.set key others).length = remaining.length := by
  have keys : (remaining.set key others).keys = remaining.keys := JsMap.keys_set found
  simpa [JsMap.keys] using congrArg List.length keys

theorem length_delete_lt (found : remaining.get? key = some dependencies) :
    (remaining.delete key).length < remaining.length :=
  List.length_filter_lt_length_iff_exists.mpr
    ⟨(key, dependencies), JsMap.mem_of_get? found, by simp⟩

theorem length_visitKey_le : (visitKey remaining key).length ≤ remaining.length := by
  cases found : remaining.get? key with
  | none => rw [visitKey_absent found]
  | some dependencies =>
      by_cases done : leftOf remaining dependencies = []
      · rw [visitKey_drops found done]
        exact List.length_filter_le _ _
      · rw [visitKey_keeps found done]
        exact (length_set found).le

theorem length_foldl_le : {keys : List JsString} → {remaining : Dependencies} →
    (keys.foldl visitKey remaining).length ≤ remaining.length
  | [], _ => le_refl _
  | key :: keys, remaining => by
      have rest := @length_foldl_le keys (visitKey remaining key)
      rw [List.foldl_cons]
      exact rest.trans length_visitKey_le

theorem foldl_visitKey_ne : {keys : List JsString} → {remaining : Dependencies} → key ∉ keys →
    (keys.foldl visitKey remaining).get? key = remaining.get? key
  | [], _, _ => rfl
  | _ :: _, _, absent => by
      rw [List.mem_cons, not_or] at absent
      rw [List.foldl_cons, foldl_visitKey_ne absent.2, visitKey_ne absent.1]

theorem foldl_stalled : {keys : List JsString} → {remaining : Dependencies} →
    remaining.length ≤ (keys.foldl visitKey remaining).length →
    (∀ other, ((keys.foldl visitKey remaining).get? other).isSome ↔ (remaining.get? other).isSome) ∧
    ∀ key ∈ keys, ∀ dependencies, (keys.foldl visitKey remaining).get? key = some dependencies →
      dependencies ≠ [] ∧ ∀ dependency ∈ dependencies, (remaining.get? dependency).isSome
  | [], _, _ => ⟨fun _ => Iff.rfl, fun _ member => by cases member⟩
  | first :: keys, remaining, stalled => by
      rw [List.foldl_cons] at stalled ⊢
      have once := @length_visitKey_le remaining first
      have rest : (visitKey remaining first).length ≤
          (keys.foldl visitKey (visitKey remaining first)).length := once.trans stalled
      obtain ⟨same, left⟩ := foldl_stalled rest
      -- The first visit is one that keeps its key.
      have visited : (∀ other, ((visitKey remaining first).get? other).isSome ↔
            (remaining.get? other).isSome) ∧
          ∀ dependencies, (visitKey remaining first).get? first = some dependencies →
            dependencies ≠ [] ∧
              ∀ dependency ∈ dependencies, (remaining.get? dependency).isSome := by
        cases found : remaining.get? first with
        | none =>
            rw [visitKey_absent found, found]
            exact ⟨fun _ => Iff.rfl, fun _ impossible => by cases impossible⟩
        | some dependencies =>
            have open_ : leftOf remaining dependencies ≠ [] := by
              intro done
              have shorter := length_delete_lt found
              rw [← visitKey_drops found done] at shorter
              exact absurd (stalled.trans length_foldl_le) (not_le.mpr shorter)
            rw [visitKey_keeps found open_, JsMap.get?_set_self]
            refine ⟨fun other => ?_, fun others listed => ?_⟩
            · rw [JsMap.get?_set]
              split_ifs with here
              · rw [here, found]
                exact ⟨fun _ => rfl, fun _ => rfl⟩
              · exact Iff.rfl
            · cases listed
              exact ⟨open_, fun dependency member => (List.mem_filter.mp member).2⟩
      refine ⟨fun other => (same other).trans (visited.1 other), fun key member others listed => ?_⟩
      by_cases later : key ∈ keys
      · obtain ⟨open_, there⟩ := left key later others listed
        exact ⟨open_, fun dependency inside => (visited.1 dependency).mp (there dependency inside)⟩
      · rw [foldl_visitKey_ne later] at listed
        have here : key = first := (List.mem_cons.mp member).resolve_right later
        exact visited.2 others (here ▸ listed)

def Stalled (remaining : Dependencies) : Prop :=
  ∀ key dependencies, remaining.get? key = some dependencies →
    dependencies ≠ [] ∧ ∀ dependency ∈ dependencies, (remaining.get? dependency).isSome

theorem stalled_cycleRound (stalled : remaining.length ≤ (cycleRound remaining).length) :
    Stalled (cycleRound remaining) := by
  obtain ⟨same, left⟩ := foldl_stalled stalled
  intro key dependencies found
  have listed : key ∈ remaining.keys := by
    rw [← isSome_get?, ← same key]
    exact Option.isSome_of_mem found
  obtain ⟨open_, there⟩ := left key listed dependencies found
  exact ⟨open_, fun dependency member => (same dependency).mpr (there dependency member)⟩

theorem cycleRounds_stalled : {rounds : ℕ} → {remaining : Dependencies} →
    remaining.length ≤ rounds → Stalled (cycleRounds rounds remaining)
  | 0, remaining, enough => by
      have nothing := List.eq_nil_of_length_eq_zero (Nat.le_zero.mp enough)
      rw [cycleRounds, nothing]
      intro key dependencies found
      cases found
  | rounds + 1, remaining, enough => by
      rw [cycleRounds]
      split_ifs with shorter
      · exact cycleRounds_stalled (by omega)
      · exact stalled_cycleRound (not_lt.mp shorter)

theorem Pruned.rounds {sets : Dependencies} : {rounds : ℕ} → {remaining : Dependencies} →
    Pruned sets remaining → Pruned sets (cycleRounds rounds remaining)
  | 0, _, pruned => pruned
  | rounds + 1, remaining, pruned => by
      rw [cycleRounds]
      split_ifs
      · exact Pruned.rounds (pruned.foldl _)
      · exact pruned.foldl _

theorem mem_cycleRounds (sets : Dependencies) :
    key ∈ (cycleRounds sets.length sets).keys ↔ ReachesCycle (DependsIn sets) key := by
  have pruned : Pruned sets (cycleRounds sets.length sets) := (pruned_start sets).rounds
  have stalled := @cycleRounds_stalled _ sets (le_refl sets.length)
  constructor
  · apply reachesCycle_of_serial
    intro key listed
    rw [← isSome_get?] at listed
    obtain ⟨dependencies, found⟩ := Option.isSome_iff_exists.mp listed
    obtain ⟨open_, there⟩ := stalled key dependencies found
    obtain ⟨dependency, member⟩ := List.exists_mem_of_ne_nil _ open_
    exact ⟨dependency, isSome_get?.mp (there dependency member),
      pruned.own key dependencies found dependency member⟩
  · intro reaches
    by_contra absent
    rw [← isSome_get?, Option.not_isSome_iff_eq_none] at absent
    exact pruned.gone key absent reaches

/-! The table of a graph. -/

def DependsOn (nodes : List EcosystemMissionGraphNodeV1) (key dependency : JsString) : Prop :=
  ∃ node, nodes.reverse.find? (fun node => node.key = key) = some node ∧ dependency ∈ node.dependsOn

theorem get?_ofEntries {α β : Type} [DecidableEq α] (entries : List (α × β)) (key : α) :
    (JsMap.ofEntries entries).get? key =
      (entries.reverse.find? fun entry => entry.1 = key).map (·.2) := by
  induction entries using List.reverseRecOn with
  | nil => rfl
  | append_singleton entries entry ih =>
      rw [JsMap.ofEntries, List.foldl_append, List.foldl_cons, List.foldl_nil, ← JsMap.ofEntries,
        JsMap.get?_set, List.reverse_append, List.reverse_singleton, List.singleton_append,
        List.find?_cons]
      by_cases same : key = entry.1
      · simp [same]
      · simp [same, Ne.symm same, ih]

theorem dependsIn_dependencySets :
    DependsIn (dependencySets nodes) key dependency ↔ DependsOn nodes key dependency := by
  have looked : (dependencySets nodes).get? key =
      (nodes.reverse.find? fun node => node.key = key).map fun node =>
        node.dependsOn.eraseDups := by
    rw [dependencySets, get?_ofEntries, ← List.map_reverse, List.find?_map, Option.map_map]
    rfl
  rw [DependsIn, looked]
  constructor
  · rintro ⟨dependencies, found, member⟩
    obtain ⟨node, first, rfl⟩ := Option.map_eq_some_iff.mp found
    exact ⟨node, first, List.mem_eraseDups.mp member⟩
  · rintro ⟨node, first, member⟩
    exact ⟨_, by rw [first]; rfl, List.mem_eraseDups.mpr member⟩

theorem dependsOn_iff (once : (nodes.map (·.key)).Nodup) :
    DependsOn nodes key dependency ↔
      ∃ node ∈ nodes, node.key = key ∧ dependency ∈ node.dependsOn := by
  have reversed : (nodes.reverse.map (·.key)).Nodup := by
    rw [List.map_reverse]
    exact List.nodup_reverse.mpr once
  constructor
  · rintro ⟨node, found, member⟩
    obtain ⟨listed, named⟩ := (find?_eq_some_of_key reversed).mp found
    exact ⟨node, List.mem_reverse.mp listed, named, member⟩
  · rintro ⟨node, listed, named, member⟩
    exact ⟨node, (find?_eq_some_of_key reversed).mpr ⟨List.mem_reverse.mpr listed, named⟩, member⟩

theorem mem_cycleMembers :
    key ∈ cycleMembers nodes ↔ ReachesCycle (DependsOn nodes) key := by
  have same : DependsIn (dependencySets nodes) = DependsOn nodes := by
    funext key dependency
    exact propext dependsIn_dependencySets
  rw [cycleMembers, sortTexts, List.mem_insertionSort, mem_cycleRounds, same]

theorem cycleMembers_eq_nil :
    cycleMembers nodes = [] ↔ ∀ key, ¬ Relation.TransGen (DependsOn nodes) key key := by
  rw [acyclic_iff, List.eq_nil_iff_forall_not_mem]
  exact forall_congr' fun key => not_congr mem_cycleMembers

/-! What the checks leave of a graph without issues. -/

variable {unicode : Normalization} {hash : Bytes → JsString} {graph : EcosystemMissionGraphV1}
  {nodes : List EcosystemMissionGraphNodeV1} {path : JsString}

structure Sound (nodes : List EcosystemMissionGraphNodeV1) : Prop where
  once : (nodes.map (·.key)).Nodup
  valid : ∀ node ∈ nodes, validKey node.key = true
  dependsValid : ∀ node ∈ nodes, ∀ dependency ∈ node.dependsOn, validKey dependency = true
  resolved : ∀ node ∈ nodes, ∀ dependency ∈ node.dependsOn, dependency ∈ nodes.map (·.key)
  acyclic : ∀ key, ¬ Relation.TransGen (DependsOn nodes) key key

theorem keyIssues_eq_nil {keys : List JsString} {key : JsString} :
    keyIssues path keys key = [] ↔ validKey key = true ∧ key ∉ keys := by
  unfold keyIssues
  split_ifs with invalid known
  · simp only [Bool.not_eq_true'] at invalid
    simp [invalid]
  · simp only [List.contains_iff_mem] at known
    simp [known]
  · simp only [Bool.not_eq_true', Bool.not_eq_false] at invalid
    simp only [List.contains_iff_mem] at known
    simp [invalid, known]

theorem dependencyIssues_valid {nodeKey : JsString} : {index : ℕ} → {seen : List JsString} →
    {dependencies : List JsString} → dependencyIssues path nodeKey index seen dependencies = [] →
    ∀ dependency ∈ dependencies, validKey dependency = true
  | _, _, [], _, _, member => by cases member
  | index, seen, first :: dependencies, clean, dependency, member => by
      rw [dependencyIssues, List.append_eq_nil_iff, List.append_eq_nil_iff] at clean
      obtain ⟨⟨own, _⟩, rest⟩ := clean
      rcases List.mem_cons.mp member with rfl | later
      · by_contra invalid
        rw [if_pos (by simpa using invalid)] at own
        cases own
      · exact dependencyIssues_valid rest dependency later

theorem nodeIssues_keys {keys : List JsString} {node : EcosystemMissionGraphNodeV1}
    (clean : nodeIssues unicode path keys node = []) :
    (validKey node.key = true ∧ node.key ∉ keys) ∧
      ∀ dependency ∈ node.dependsOn, validKey dependency = true := by
  simp only [nodeIssues, List.append_eq_nil_iff] at clean
  obtain ⟨⟨⟨⟨⟨⟨⟨key, _⟩, _⟩, _⟩, _⟩, depends⟩, _⟩, _⟩ := clean
  refine ⟨keyIssues_eq_nil.mp key, ?_⟩
  split_ifs at depends
  exact dependencyIssues_valid depends

theorem nodesIssues_keys : {index : ℕ} → {keys : List JsString} →
    {nodes : List EcosystemMissionGraphNodeV1} → keys.Nodup →
    nodesIssues unicode index keys nodes = [] →
    (keys ++ nodes.map (·.key)).Nodup ∧
      (nodes.map (·.key)).foldl enrolKey keys = keys ++ nodes.map (·.key) ∧
      ∀ node ∈ nodes, validKey node.key = true ∧
        ∀ dependency ∈ node.dependsOn, validKey dependency = true
  | _, keys, [], once, _ => by simpa using once
  | index, keys, node :: nodes, once, clean => by
      rw [nodesIssues, List.append_eq_nil_iff] at clean
      obtain ⟨⟨valid, fresh⟩, depends⟩ := nodeIssues_keys clean.1
      have enrolled : enrolKey keys node.key = keys ++ [node.key] := by
        rw [enrolKey, if_pos]
        simp [valid, fresh]
      have more : (keys ++ [node.key]).Nodup := by
        rw [List.nodup_append]
        refine ⟨once, List.nodup_singleton _, ?_⟩
        rintro old member other here rfl
        rw [List.mem_singleton] at here
        exact fresh (here ▸ member)
      rw [enrolled] at clean
      obtain ⟨distinct, all, rest⟩ := nodesIssues_keys more clean.2
      rw [List.append_assoc, List.singleton_append] at distinct all
      refine ⟨distinct, ?_, ?_⟩
      · rw [List.map_cons, List.foldl_cons, enrolled, all]
      · intro other member
        rcases List.mem_cons.mp member with rfl | later
        · exact ⟨valid, depends⟩
        · exact rest other later

theorem graphIssues_sound (clean : graphIssues unicode graph = []) : Sound graph.nodes := by
  simp only [graphIssues, List.append_eq_nil_iff] at clean
  obtain ⟨⟨⟨own, missing⟩, cycles⟩, _⟩ := clean
  obtain ⟨once, enrolled, valid⟩ := nodesIssues_keys List.nodup_nil own
  rw [List.nil_append] at once enrolled
  refine ⟨once, fun node member => (valid node member).1, fun node member => (valid node member).2,
    ?_, ?_⟩
  · intro node member dependency depends
    by_contra unknown
    obtain ⟨index, bound, rfl⟩ := List.getElem_of_mem member
    obtain ⟨place, within, rfl⟩ := List.getElem_of_mem depends
    unfold missingDependencies at missing
    rw [List.flatMap_eq_nil_iff] at missing
    have atNode := missing (graph.nodes[index], index) (by
      rw [List.mem_zipIdx_iff_getElem?]
      exact List.getElem?_eq_getElem bound)
    rw [List.flatMap_eq_nil_iff] at atNode
    have atDependency := atNode (graph.nodes[index].dependsOn[place], place) (by
      rw [List.mem_zipIdx_iff_getElem?]
      exact List.getElem?_eq_getElem within)
    rw [enrolled] at atDependency
    dsimp only at atDependency
    rw [if_pos] at atDependency
    · cases atDependency
    · have listed := (valid _ member).2 _ depends
      simpa [listed] using unknown
  · rw [own, missing, List.append_nil] at cycles
    rw [if_neg (by simp)] at cycles
    rw [← cycleMembers_eq_nil]
    unfold cycleIssues at cycles
    dsimp only at cycles
    by_contra some_
    rw [if_neg some_] at cycles
    cases cycles

theorem validate_eq_nil :
    validateEcosystemMissionGraph unicode hash graph = [] ↔
      unboundedNodes graph.nodes.length = false ∧
      missionIssues unicode graph.missionKey graph.title graph.objective graph.createdAt = [] ∧
      graphIssues unicode graph = [] ∧
      ecosystemMissionGraphDigest unicode hash graph = some graph.graphDigest := by
  unfold validateEcosystemMissionGraph structuralIssues
  dsimp only
  cases bounded : unboundedNodes graph.nodes.length with
  | true => simp
  | false =>
      cases digest : ecosystemMissionGraphDigest unicode hash graph with
      | none => simp
      | some text =>
          simp only [Bool.false_eq_true, if_false, Option.map_some, Option.getD_some,
            List.append_eq_nil_iff, true_and, Option.some.injEq, and_assoc]
          refine and_congr_right fun _ => and_congr_right fun _ => ?_
          split_ifs with same
          · simp [same]
          · simp [same]

theorem validated_sound (valid : validateEcosystemMissionGraph unicode hash graph = []) :
    Sound graph.nodes :=
  graphIssues_sound (validate_eq_nil.mp valid).2.2.1

end AshlrHub.Vision
