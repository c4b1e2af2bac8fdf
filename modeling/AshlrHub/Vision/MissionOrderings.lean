import AshlrHub.Vision.MissionCycles
import AshlrHub.Lib.Sorting

namespace AshlrHub.Vision

open Js Lib
open Authority (trim)

/-! The compiler of mission graphs. Paths are those of POSIX. -/

def slash : CodeUnit := 0x2F

/-- The segments of `path.resolve` on an absolute path. -/
def resolveSegments (segments : List JsString) (segment : JsString) : List JsString :=
  if segment = [] ∨ segment = js "." then segments
  else if segment = js ".." then segments.dropLast
  else segments ++ [segment]

/-- `resolve` of an absolute path. -/
def resolvePath (path : JsString) : JsString :=
  js "/" ++ List.intercalate (js "/") ((path.splitOn slash).foldl resolveSegments [])

def basename (path : JsString) : JsString :=
  ((path.splitOn slash).filter fun segment => segment ≠ []).getLast?.getD []

def canonicalRoot (repo : JsString) : Bool :=
  0 < (trim repo).length && isAbsolute repo && resolvePath repo = repo

section

variable (unicode : Normalization) (enrolledRepos : List JsString)

def enrolledRoots : List JsString :=
  sortTexts ((enrolledRepos.filter canonicalRoot).map unicode.nfc).eraseDups

inductive RepoTarget where
  | root (repo : JsString)
  | refused (code : MissionGraphValidationCode) (message : JsString)

def resolveRepoTarget (target : Option JsString) (enrolledRepos : List JsString) : RepoTarget :=
  match target.bind (normalizedText unicode) with
  | none => .refused .invalidRepositoryTarget (js "work node requires a repository target")
  | some normalized =>
      let enrolled := enrolledRoots unicode enrolledRepos
      if isAbsolute normalized then
        let exact := unicode.nfc normalized
        if resolvePath exact ≠ exact then
          .refused .invalidRepositoryTarget
            (js "absolute repository targets must be canonical roots")
        else if enrolled.contains exact then .root exact
        else .refused .repositoryNotEnrolled (js "'" ++ normalized ++ js "' is not enrolled")
      else if normalized.contains slash || normalized.contains 0x5C then
        .refused .invalidRepositoryTarget (js "relative repository targets must be exact basenames")
      else
        match enrolled.filter fun repo => basename repo = normalized with
        | [repo] => .root repo
        | [] => .refused .repositoryNotEnrolled (js "'" ++ normalized ++ js "' is not enrolled")
        | _ => .refused .repositoryTargetAmbiguous
            (js "basename '" ++ normalized ++ js "' matches multiple enrolled roots")

def RepoTarget.repo : RepoTarget → Option JsString
  | .root repo => some repo
  | .refused _ _ => none

def RepoTarget.issues (path : JsString) : RepoTarget → List MissionGraphValidationIssue
  | .root _ => []
  | .refused code message => [⟨code, path, message⟩]

def candidateIssues (path : JsString)
    (candidate : MissionGraphNodeInput) : List MissionGraphValidationIssue :=
  validateText unicode candidate.title maxTitleLength .invalidTitle (path ++ js ".title") ++
  validateText unicode candidate.objective maxObjectiveLength .invalidObjective
    (path ++ js ".objective") ++
  textIssues unicode maxDeliverableLength .invalidDeliverable (path ++ js ".deliverable")
    (rangeMessage maxDeliverableLength) candidate.deliverable ++
  (if validKey candidate.key then []
    else [⟨.invalidKey, path ++ js ".key", js "invalid node key"⟩]) ++
  match candidate.kind with
  | .humanGate =>
      if candidate.targetRepo = none then []
      else [⟨.humanGateRepositoryTarget, path ++ js ".targetRepo",
        js "human gate must be repository-neutral"⟩]
  | .work =>
      (resolveRepoTarget unicode candidate.targetRepo enrolledRepos).issues
        (path ++ js ".targetRepo")

/-- `normalizedText(text) ?? ''` -/
def normalizedOrEmpty (text : JsString) : JsString :=
  (normalizedText unicode text).getD []

def compileContract (contract : MissionOutcomeContract) : MissionOutcomeContract where
  desiredOutcome := normalizedOrEmpty unicode contract.desiredOutcome
  successSignals := sortTexts (contract.successSignals.map (normalizedOrEmpty unicode))
  guardrails := sortTexts (contract.guardrails.map (normalizedOrEmpty unicode))

def compileNode (candidate : MissionGraphNodeInput) : EcosystemMissionGraphNodeV1 where
  kind := candidate.kind
  key := candidate.key
  title := (boundedText unicode maxTitleLength candidate.title).getD []
  objective := (boundedText unicode maxObjectiveLength candidate.objective).getD []
  deliverable := normalizedOrEmpty unicode candidate.deliverable
  riskClass := candidate.riskClass
  repo :=
    match candidate.kind with
    | .humanGate => none
    | .work => (resolveRepoTarget unicode candidate.targetRepo enrolledRepos).repo
  dependsOn := sortTexts (candidate.dependsOn.getD [])
  acceptance := sortTexts (candidate.acceptance.map (normalizedOrEmpty unicode))
  outcomeContract := candidate.outcomeContract.map (compileContract unicode)

def compileBase (input : MissionGraphInput) : EcosystemMissionGraphV1 where
  graphDigest := []
  missionKey := input.missionKey
  title := (boundedText unicode maxTitleLength input.title).getD []
  objective := (boundedText unicode maxObjectiveLength input.objective).getD []
  createdAt := input.createdAt
  nodes := sortNodes ((input.nodes.take (maxMissionGraphNodes + 1)).map
    (compileNode unicode enrolledRepos))

def inputIssues (input : MissionGraphInput) : List MissionGraphValidationIssue :=
  missionIssues unicode input.missionKey input.title input.objective input.createdAt ++
  (if unboundedNodes input.nodes.length then [nodeCountIssue] else []) ++
  (input.nodes.take (maxMissionGraphNodes + 1)).zipIdx.flatMap fun (candidate, index) =>
    candidateIssues unicode enrolledRepos (itemPath (js "nodes") index) candidate

def compileEcosystemMissionGraph (hash : Bytes → JsString)
    (input : MissionGraphInput) (enrolledRepos : List JsString) :
    Except (List MissionGraphValidationIssue) EcosystemMissionGraphV1 :=
  let base := compileBase unicode enrolledRepos input
  let thrown : List MissionGraphValidationIssue :=
    [⟨.invalidSchema, js "$", js "mission graph input is structurally invalid"⟩]
  match ecosystemMissionGraphDigest unicode hash base with
  | none => .error thrown
  | some digest =>
      let graph := { base with graphDigest := digest }
      match structuralIssues unicode none graph with
      | none => .error thrown
      | some structural =>
          let issues := inputIssues unicode enrolledRepos input ++ structural
          if issues ≠ [] then .error issues else .ok graph

end

/-! What the compiler accepts validates, and no order of its lists counts. -/

variable {unicode : Normalization} {hash : Bytes → JsString} {input other : MissionGraphInput}
  {enrolledRepos others : List JsString} {graph : EcosystemMissionGraphV1}

theorem structuralIssues_eq_nil : structuralIssues unicode none graph = some [] ↔
    unboundedNodes graph.nodes.length = false ∧
      missionIssues unicode graph.missionKey graph.title graph.objective graph.createdAt = [] ∧
      graphIssues unicode graph = [] := by
  unfold structuralIssues
  dsimp only
  cases unboundedNodes graph.nodes.length with
  | true => simp
  | false => simp

theorem compile_eq_ok :
    compileEcosystemMissionGraph unicode hash input enrolledRepos = .ok graph ↔
      ∃ digest, ecosystemMissionGraphDigest unicode hash
          (compileBase unicode enrolledRepos input) = some digest ∧
        graph = { compileBase unicode enrolledRepos input with graphDigest := digest } ∧
        inputIssues unicode enrolledRepos input = [] ∧
        structuralIssues unicode none graph = some [] := by
  unfold compileEcosystemMissionGraph
  dsimp only
  cases digested : ecosystemMissionGraphDigest unicode hash
      (compileBase unicode enrolledRepos input) with
  | none => simp
  | some digest =>
      dsimp only
      constructor
      · intro accepted
        cases checked : structuralIssues unicode none
            { compileBase unicode enrolledRepos input with graphDigest := digest } with
        | none =>
            rw [checked] at accepted
            cases accepted
        | some structural =>
            rw [checked] at accepted
            dsimp only at accepted
            split_ifs at accepted with refused
            cases accepted
            obtain ⟨own, rest⟩ := List.append_eq_nil_iff.mp (not_not.mp refused)
            exact ⟨digest, rfl, rfl, own, by rw [checked, rest]⟩
      · rintro ⟨same, digest', rfl, own, rest⟩
        cases digest'
        rw [rest, own]
        exact if_neg (not_not_intro rfl)

theorem validate_of_compile
    (compiled : compileEcosystemMissionGraph unicode hash input enrolledRepos = .ok graph) :
    validateEcosystemMissionGraph unicode hash graph = [] := by
  obtain ⟨digest, digested, rfl, _, structural⟩ := compile_eq_ok.mp compiled
  obtain ⟨bounded, mission, clean⟩ := structuralIssues_eq_nil.mp structural
  exact validate_eq_nil.mpr ⟨bounded, mission, clean, digested⟩

/-! Lists in another order. -/

theorem sortTexts_perm {first second : List JsString} (perm : first.Perm second) :
    sortTexts first = sortTexts second :=
  insertionSort_eq_of_perm (fun _ _ _ _ low high => List.le_antisymm low high) perm

structure MissionOutcomeContract.SameUpToOrder (first second : MissionOutcomeContract) :
    Prop where
  desiredOutcome : first.desiredOutcome = second.desiredOutcome
  successSignals : first.successSignals.Perm second.successSignals
  guardrails : first.guardrails.Perm second.guardrails

structure MissionGraphNodeInput.SameUpToOrder (first second : MissionGraphNodeInput) : Prop where
  kind : first.kind = second.kind
  key : first.key = second.key
  title : first.title = second.title
  objective : first.objective = second.objective
  deliverable : first.deliverable = second.deliverable
  riskClass : first.riskClass = second.riskClass
  targetRepo : first.targetRepo = second.targetRepo
  dependsOn : Option.Rel List.Perm first.dependsOn second.dependsOn
  acceptance : first.acceptance.Perm second.acceptance
  outcomeContract : Option.Rel MissionOutcomeContract.SameUpToOrder first.outcomeContract
    second.outcomeContract

structure MissionGraphInput.SameUpToOrder (first second : MissionGraphInput) : Prop where
  missionKey : first.missionKey = second.missionKey
  title : first.title = second.title
  objective : first.objective = second.objective
  createdAt : first.createdAt = second.createdAt
  nodes : ∃ paired, first.nodes.Perm paired ∧
    List.Forall₂ MissionGraphNodeInput.SameUpToOrder paired second.nodes

theorem enrolledRoots_perm (perm : enrolledRepos.Perm others) :
    enrolledRoots unicode enrolledRepos = enrolledRoots unicode others := by
  apply sortTexts_perm
  rw [List.perm_ext_iff_of_nodup (nodup_eraseDups _) (nodup_eraseDups _)]
  intro root
  rw [List.mem_eraseDups, List.mem_eraseDups]
  exact ((perm.filter _).map _).mem_iff

theorem resolveRepoTarget_perm (perm : enrolledRepos.Perm others) (target : Option JsString) :
    resolveRepoTarget unicode target enrolledRepos = resolveRepoTarget unicode target others := by
  rw [resolveRepoTarget, resolveRepoTarget, enrolledRoots_perm perm]

theorem compileContract_same {first second : MissionOutcomeContract}
    (same : first.SameUpToOrder second) :
    compileContract unicode first = compileContract unicode second := by
  rw [compileContract, compileContract, same.desiredOutcome,
    sortTexts_perm (same.successSignals.map _), sortTexts_perm (same.guardrails.map _)]

theorem sortTexts_rel : {first second : Option (List JsString)} →
    Option.Rel List.Perm first second → sortTexts (first.getD []) = sortTexts (second.getD [])
  | _, _, .some perm => sortTexts_perm perm
  | _, _, .none => rfl

theorem compileContract_rel : {first second : Option MissionOutcomeContract} →
    Option.Rel MissionOutcomeContract.SameUpToOrder first second →
    first.map (compileContract unicode) = second.map (compileContract unicode)
  | _, _, .some same => congrArg some (compileContract_same same)
  | _, _, .none => rfl

section

variable {first second : MissionGraphNodeInput} (same : first.SameUpToOrder second)
  (perm : enrolledRepos.Perm others)
include same perm

theorem compileNode_same :
    compileNode unicode enrolledRepos first = compileNode unicode others second := by
  rw [compileNode, compileNode, same.kind, same.key, same.title, same.objective, same.deliverable,
    same.riskClass, same.targetRepo, resolveRepoTarget_perm perm, sortTexts_rel same.dependsOn,
    sortTexts_perm (same.acceptance.map _), compileContract_rel same.outcomeContract]

theorem candidateIssues_same {path elsewhere : JsString}
    (clean : candidateIssues unicode enrolledRepos path first = []) :
    candidateIssues unicode others elsewhere second = [] := by
  have moved {maxLength : ℕ} {code : MissionGraphValidationCode} {from_ to_ message : JsString}
      {text : JsString} (free : textIssues unicode maxLength code from_ message text = []) :
      textIssues unicode maxLength code to_ message text = [] := by
    unfold textIssues at free ⊢
    split_ifs at free ⊢
    rfl
  simp only [candidateIssues, List.append_eq_nil_iff, same.title, same.objective,
    same.deliverable, same.key, same.kind, same.targetRepo, resolveRepoTarget_perm perm] at clean ⊢
  obtain ⟨⟨⟨⟨title, objective⟩, deliverable⟩, key⟩, repo⟩ := clean
  refine ⟨⟨⟨⟨moved title, moved objective⟩, moved deliverable⟩, ?_⟩, ?_⟩
  · have valid : validKey second.key = true := by
      by_contra invalid
      rw [if_neg invalid] at key
      cases key
    exact if_pos valid
  · cases kind : second.kind with
    | humanGate =>
        rw [kind] at repo
        dsimp only at repo ⊢
        split_ifs at repo ⊢
        rfl
    | work =>
        rw [kind] at repo
        dsimp only at repo ⊢
        cases resolved : resolveRepoTarget unicode second.targetRepo others with
        | root _ => rfl
        | refused _ _ =>
            rw [resolved] at repo
            cases repo

end

theorem sortNodes_perm {first second : List EcosystemMissionGraphNodeV1}
    (perm : first.Perm second) (once : (first.map (·.key)).Nodup) :
    sortNodes first = sortNodes second := by
  refine insertionSort_eq_of_perm (fun a inFirst b inSecond low high => ?_) perm
  exact List.inj_on_of_nodup_map once inFirst inSecond (List.le_antisymm low high)

theorem forall₂_compileNode (perm : enrolledRepos.Perm others) :
    {first second : List MissionGraphNodeInput} →
    List.Forall₂ MissionGraphNodeInput.SameUpToOrder first second →
    first.map (compileNode unicode enrolledRepos) = second.map (compileNode unicode others)
  | _, _, .nil => rfl
  | _, _, .cons same rest => by
      rw [List.map_cons, List.map_cons, compileNode_same same perm, forall₂_compileNode perm rest]

theorem compile_of_same (same : input.SameUpToOrder other) (perm : enrolledRepos.Perm others)
    (compiled : compileEcosystemMissionGraph unicode hash input enrolledRepos = .ok graph) :
    compileEcosystemMissionGraph unicode hash other others = .ok graph := by
  obtain ⟨digest, digested, rfl, own, structural⟩ := compile_eq_ok.mp compiled
  obtain ⟨paired, moved, alike⟩ := same.nodes
  simp only [inputIssues, List.append_eq_nil_iff] at own
  obtain ⟨⟨mission, bounded⟩, candidates⟩ := own
  have length : other.nodes.length = input.nodes.length := by
    rw [moved.length_eq, alike.length_eq]
  have short : input.nodes.length ≤ maxMissionGraphNodes + 1 := by
    by_contra long
    rw [if_pos] at bounded
    · cases bounded
    · rw [unboundedNodes, Bool.or_eq_true, decide_eq_true_eq, decide_eq_true_eq]
      omega
  have whole : input.nodes.take (maxMissionGraphNodes + 1) = input.nodes :=
    List.take_of_length_le short
  have otherWhole : other.nodes.take (maxMissionGraphNodes + 1) = other.nodes :=
    List.take_of_length_le (length ▸ short)
  have compiledPerm : (input.nodes.map (compileNode unicode enrolledRepos)).Perm
      (other.nodes.map (compileNode unicode others)) := by
    rw [← forall₂_compileNode perm alike]
    exact moved.map _
  have once : ((input.nodes.map (compileNode unicode enrolledRepos)).map (·.key)).Nodup := by
    have sound := graphIssues_sound (structuralIssues_eq_nil.mp structural).2.2
    have sorted := sound.once
    simp only [compileBase, whole] at sorted
    exact ((List.perm_insertionSort _ _).map _).nodup_iff.mp sorted
  have base : compileBase unicode others other = compileBase unicode enrolledRepos input := by
    rw [compileBase, compileBase, whole, otherWhole, ← sortNodes_perm compiledPerm once,
      same.missionKey, same.title, same.objective, same.createdAt]
  refine compile_eq_ok.mpr ⟨digest, by rw [base, digested], by rw [base], ?_, structural⟩
  simp only [inputIssues, List.append_eq_nil_iff]
  refine ⟨⟨?_, by rw [length]; exact bounded⟩, ?_⟩
  · rw [← same.missionKey, ← same.title, ← same.objective, ← same.createdAt]
    exact mission
  · rw [whole, List.flatMap_eq_nil_iff] at candidates
    rw [otherWhole, List.flatMap_eq_nil_iff]
    rintro ⟨second, index⟩ listed
    have member : second ∈ other.nodes := by
      rw [← List.zipIdx_map_fst 0 other.nodes]
      exact List.mem_map_of_mem listed
    obtain ⟨first, inPaired, pair⟩ := exists_of_forall₂ alike member
    have inInput := moved.mem_iff.mpr inPaired
    rw [← List.zipIdx_map_fst 0 input.nodes] at inInput
    obtain ⟨⟨_, place⟩, there, rfl⟩ := List.mem_map.mp inInput
    exact candidateIssues_same pair perm (candidates _ there)

end AshlrHub.Vision
