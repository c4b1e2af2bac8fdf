import AshlrHub.Authority.Clamp
import AshlrHub.Js.Ascii
import AshlrHub.Universe.Artifacts

namespace AshlrHub.Vision

open Js
open Artifacts (count texts)
open Authority (isLower trim)

/-! Mission graphs: their canonical digest, the checks of a graph, and the compiler. Kinds, risk
classes and the fields of the records are those of the declared types. -/

/-- `String.prototype.normalize('NFC')` -/
structure Normalization where
  nfc : JsString → JsString
  idempotent : ∀ text, nfc (nfc text) = nfc text
  ascii : ∀ text, IsAscii text → nfc text = text

def maxMissionGraphNodes : ℕ := 24
def maxMissionGraphDependencies : ℕ := 8
def maxMissionGraphAcceptanceCriteria : ℕ := 8
def maxMissionGraphCanonicalBytes : ℕ := 128 * 1024
def maxKeyLength : ℕ := 80
def maxTitleLength : ℕ := 200
def maxObjectiveLength : ℕ := 4000
def maxDeliverableLength : ℕ := 1000
def maxAcceptanceLength : ℕ := 500

inductive MissionGraphNodeKind where
  | work
  | humanGate
deriving DecidableEq

inductive MissionGraphRiskClass where
  | low
  | medium
  | high
deriving DecidableEq

structure MissionOutcomeContract where
  desiredOutcome : JsString
  successSignals : List JsString
  guardrails : List JsString

structure MissionGraphNodeInput where
  kind : MissionGraphNodeKind
  key : JsString
  title : JsString
  objective : JsString
  deliverable : JsString
  riskClass : MissionGraphRiskClass
  targetRepo : Option JsString
  dependsOn : Option (List JsString)
  acceptance : List JsString
  outcomeContract : Option MissionOutcomeContract

structure MissionGraphInput where
  missionKey : JsString
  title : JsString
  objective : JsString
  createdAt : JsString
  nodes : List MissionGraphNodeInput

structure EcosystemMissionGraphNodeV1 where
  kind : MissionGraphNodeKind
  key : JsString
  title : JsString
  objective : JsString
  deliverable : JsString
  riskClass : MissionGraphRiskClass
  repo : Option JsString
  dependsOn : List JsString
  acceptance : List JsString
  outcomeContract : Option MissionOutcomeContract

/-- `schemaVersion` is 1 and `digestAlgorithm` is `sha256`. -/
structure EcosystemMissionGraphV1 where
  graphDigest : JsString
  missionKey : JsString
  title : JsString
  objective : JsString
  createdAt : JsString
  nodes : List EcosystemMissionGraphNodeV1

inductive MissionGraphValidationCode where
  | invalidSchema
  | invalidKey
  | invalidTitle
  | invalidObjective
  | invalidDeliverable
  | invalidOutcomeContract
  | invalidCreatedAt
  | invalidRepositoryTarget
  | repositoryNotEnrolled
  | repositoryTargetAmbiguous
  | humanGateRepositoryTarget
  | invalidAcceptance
  | tooManyNodes
  | tooManyDependencies
  | tooManyAcceptanceCriteria
  | duplicateNodeKey
  | duplicateDependency
  | missingDependency
  | selfDependency
  | cyclicDependency
  | graphTooLarge
  | digestMismatch
  | duplicateObservation
  | unknownObservationNode
  | invalidObservation
deriving DecidableEq

structure MissionGraphValidationIssue where
  code : MissionGraphValidationCode
  path : JsString
  message : JsString

def MissionGraphNodeKind.text : MissionGraphNodeKind → JsString
  | .work => js "work"
  | .humanGate => js "human-gate"

def MissionGraphRiskClass.text : MissionGraphRiskClass → JsString
  | .low => js "low"
  | .medium => js "medium"
  | .high => js "high"

/-! Canonical JSON. -/

/-- `Array.prototype.sort()` -/
def sortTexts (items : List JsString) : List JsString :=
  items.insertionSort (· ≤ ·)

mutual

/-- None where the source throws. -/
def canonicalize (unicode : Normalization) : JsValue → Option JsValue
  | .null => some .null
  | .bool value => some (.bool value)
  | .str text => some (.str (unicode.nfc text))
  | .num (.finite number) => some (.num (.finite number))
  | .num _ => none
  | .undefined => none
  | .arr items => (canonicalizeItems unicode items).map .arr
  | .obj members =>
      match canonicalizeMembers unicode members with
      | none => none
      | some entries =>
          if (entries.map Prod.fst).Nodup then some (.obj (Authority.sortByKey entries)) else none

def canonicalizeItems (unicode : Normalization) : List JsValue → Option (List JsValue)
  | [] => some []
  | item :: items =>
      match canonicalize unicode item, canonicalizeItems unicode items with
      | some entry, some entries => some (entry :: entries)
      | _, _ => none

def canonicalizeMembers (unicode : Normalization) :
    List (JsString × JsValue) → Option (List (JsString × JsValue))
  | [] => some []
  | (key, value) :: members =>
      match canonicalize unicode value, canonicalizeMembers unicode members with
      | some entry, some entries => some ((unicode.nfc key, entry) :: entries)
      | _, _ => none

end

section

variable (unicode : Normalization)

def canonicalJson (value : JsValue) : Option JsString :=
  (canonicalize unicode value).map writeValue

def MissionOutcomeContract.payload (contract : MissionOutcomeContract) : JsValue :=
  .obj [(js "desiredOutcome", .str contract.desiredOutcome),
    (js "successSignals", texts (sortTexts contract.successSignals)),
    (js "guardrails", texts (sortTexts contract.guardrails))]

def EcosystemMissionGraphNodeV1.members (node : EcosystemMissionGraphNodeV1) :
    List (JsString × JsValue) :=
  [(js "kind", .str node.kind.text), (js "key", .str node.key), (js "title", .str node.title),
    (js "objective", .str node.objective), (js "deliverable", .str node.deliverable),
    (js "riskClass", .str node.riskClass.text),
    (js "repo", (node.repo.map JsValue.str).getD .null),
    (js "dependsOn", texts (sortTexts node.dependsOn)),
    (js "acceptance", texts (sortTexts node.acceptance))] ++
  (node.outcomeContract.map fun contract => (js "outcomeContract", contract.payload)).toList

variable (nodes : List EcosystemMissionGraphNodeV1)

def sortNodes : List EcosystemMissionGraphNodeV1 :=
  nodes.insertionSort fun left right => left.key ≤ right.key

def graphDigestPayload (graph : EcosystemMissionGraphV1) : JsValue :=
  .obj [(js "schemaVersion", count 1), (js "digestAlgorithm", .str (js "sha256")),
    (js "missionKey", .str graph.missionKey), (js "title", .str graph.title),
    (js "objective", .str graph.objective), (js "createdAt", .str graph.createdAt),
    (js "nodes", .arr ((sortNodes graph.nodes).map fun node => .obj node.members))]

/-- `hash` is SHA-256 in hexadecimal. -/
def ecosystemMissionGraphDigest (hash : Bytes → JsString)
    (graph : EcosystemMissionGraphV1) : Option JsString :=
  (canonicalJson unicode (graphDigestPayload graph)).map fun text => hash (utf8Encode text)

/-! Checks of single fields. -/

def keyUnit (unit : CodeUnit) : Bool :=
  isDigit unit || isLower unit

/-- `/^[a-z0-9](?:[a-z0-9._-]{0,78}[a-z0-9])?$/` -/
def keyPattern : JsString → Bool
  | [] => false
  | [unit] => keyUnit unit
  | first :: second :: rest =>
      keyUnit first && rest.length ≤ 78 &&
        ((second :: rest).dropLast.all fun unit => keyUnit unit || (js "._-").contains unit) &&
        (second :: rest).getLast?.any keyUnit

def validKey (key : JsString) : Bool :=
  key.length ≤ maxKeyLength && keyPattern key

def validTimestamp (text : JsString) : Bool :=
  text.length ≤ 40 && isCanonicalInstant text

def normalizedText (text : JsString) : Option JsString :=
  let normalized := trim (unicode.nfc text)
  if normalized = [] then none else some normalized

def boundedText (maxLength : ℕ) (text : JsString) : Option JsString :=
  (normalizedText unicode text).filter fun normalized => normalized.length ≤ maxLength

/-- The issues of a text that `boundedText` refuses. -/
def textIssues (maxLength : ℕ) (code : MissionGraphValidationCode)
    (path message : JsString) (text : JsString) : List MissionGraphValidationIssue :=
  if (boundedText unicode maxLength text).isSome then [] else [⟨code, path, message⟩]

def boundMessage (maxLength : ℕ) : JsString :=
  js "must be a non-empty string of at most " ++ decimal maxLength ++ js " characters"

def rangeMessage (maxLength : ℕ) : JsString :=
  js "must be 1.." ++ decimal maxLength ++ js " characters"

def validateText (text : JsString) (maxLength : ℕ)
    (code : MissionGraphValidationCode) (path : JsString) : List MissionGraphValidationIssue :=
  textIssues unicode maxLength code path (boundMessage maxLength) text

section

variable (path : JsString)

def itemPath (index : ℕ) : JsString :=
  path ++ js "[" ++ decimal index ++ js "]"

def signalIssues (signals : List JsString) : List MissionGraphValidationIssue :=
  signals.zipIdx.flatMap fun (signal, index) =>
    textIssues unicode maxAcceptanceLength .invalidOutcomeContract (itemPath path index)
      (rangeMessage maxAcceptanceLength) signal

def unboundedCriteria (items : List JsString) : Bool :=
  items.length < 1 || maxMissionGraphAcceptanceCriteria < items.length

def validateOutcomeContract : Option MissionOutcomeContract → List MissionGraphValidationIssue
  | none => []
  | some contract =>
      if unboundedCriteria contract.successSignals || unboundedCriteria contract.guardrails then
        [⟨.invalidOutcomeContract, path,
          js "outcome contract requires bounded successSignals and guardrails"⟩]
      else
        textIssues unicode maxDeliverableLength .invalidOutcomeContract
          (path ++ js ".desiredOutcome") (rangeMessage maxDeliverableLength)
          contract.desiredOutcome ++
        signalIssues unicode (path ++ js ".successSignals") contract.successSignals ++
        signalIssues unicode (path ++ js ".guardrails") contract.guardrails

/-! Cycles. -/

abbrev Dependencies := JsMap JsString (List JsString)

def visitKey (remaining : Dependencies) (key : JsString) : Dependencies :=
  match remaining.get? key with
  | none => remaining
  | some dependencies =>
      let left := dependencies.filter fun dependency => (remaining.get? dependency).isSome
      if left = [] then remaining.delete key else remaining.set key left

def cycleRound (remaining : Dependencies) : Dependencies :=
  remaining.keys.foldl visitKey remaining

def cycleRounds : ℕ → Dependencies → Dependencies
  | 0, remaining => remaining
  | rounds + 1, remaining =>
      let next := cycleRound remaining
      if next.length < remaining.length then cycleRounds rounds next else next

def dependencySets : Dependencies :=
  JsMap.ofEntries (nodes.map fun node => (node.key, node.dependsOn.eraseDups))

def cycleMembers : List JsString :=
  let remaining := dependencySets nodes
  sortTexts (cycleRounds remaining.length remaining).keys

/-! The checks of a graph. -/

def isAbsolute : Bool :=
  (js "/").isPrefixOf path

def keyIssues (keys : List JsString) (key : JsString) : List MissionGraphValidationIssue :=
  if !validKey key then [⟨.invalidKey, path ++ js ".key", js "invalid node key"⟩]
  else if keys.contains key then
    [⟨.duplicateNodeKey, path ++ js ".key", js "duplicate node key '" ++ key ++ js "'"⟩]
  else []

def enrolKey (keys : List JsString) (key : JsString) : List JsString :=
  if validKey key && !keys.contains key then keys ++ [key] else keys

def repoIssues (node : EcosystemMissionGraphNodeV1) : List MissionGraphValidationIssue :=
  match node.kind with
  | .work =>
      if node.repo.any isAbsolute then []
      else [⟨.invalidRepositoryTarget, path ++ js ".repo",
        js "work node requires an absolute enrolled root"⟩]
  | .humanGate =>
      if node.repo = none then []
      else [⟨.humanGateRepositoryTarget, path ++ js ".repo",
        js "human gate must be repository-neutral"⟩]

def dependencyIssues (path nodeKey : JsString) :
    ℕ → List JsString → List JsString → List MissionGraphValidationIssue
  | _, _, [] => []
  | index, seen, dependency :: dependencies =>
      let dependencyPath := itemPath (path ++ js ".dependsOn") index
      (if !validKey dependency then
          [⟨.invalidKey, dependencyPath, js "invalid dependency key"⟩]
        else if seen.contains dependency then
          [⟨.duplicateDependency, dependencyPath,
            js "duplicate dependency '" ++ dependency ++ js "'"⟩]
        else []) ++
      (if dependency = nodeKey then
          [⟨.selfDependency, dependencyPath, js "node cannot depend on itself"⟩]
        else []) ++
      dependencyIssues path nodeKey (index + 1) (enrolKey seen dependency) dependencies

def nodeIssues (keys : List JsString)
    (node : EcosystemMissionGraphNodeV1) : List MissionGraphValidationIssue :=
  keyIssues path keys node.key ++
  validateText unicode node.title maxTitleLength .invalidTitle (path ++ js ".title") ++
  validateText unicode node.objective maxObjectiveLength .invalidObjective
    (path ++ js ".objective") ++
  textIssues unicode maxDeliverableLength .invalidDeliverable (path ++ js ".deliverable")
    (rangeMessage maxDeliverableLength) node.deliverable ++
  repoIssues path node ++
  (if maxMissionGraphDependencies < node.dependsOn.length then
      [⟨.tooManyDependencies, path ++ js ".dependsOn",
        js "must contain at most " ++ decimal maxMissionGraphDependencies ++ js " dependencies"⟩]
    else dependencyIssues path node.key 0 [] node.dependsOn) ++
  (if unboundedCriteria node.acceptance then
      [⟨.tooManyAcceptanceCriteria, path ++ js ".acceptance",
        js "must contain 1.." ++ decimal maxMissionGraphAcceptanceCriteria ++ js " criteria"⟩]
    else node.acceptance.zipIdx.flatMap fun (criterion, index) =>
      validateText unicode criterion maxAcceptanceLength .invalidAcceptance
        (itemPath (path ++ js ".acceptance") index)) ++
  validateOutcomeContract unicode (path ++ js ".outcomeContract") node.outcomeContract

end

def nodesIssues (unicode : Normalization) :
    ℕ → List JsString → List EcosystemMissionGraphNodeV1 → List MissionGraphValidationIssue
  | _, _, [] => []
  | index, keys, node :: nodes =>
      nodeIssues unicode (itemPath (js "nodes") index) keys node ++
        nodesIssues unicode (index + 1) (enrolKey keys node.key) nodes

def missingDependencies : List MissionGraphValidationIssue :=
  let keys := (nodes.map (·.key)).foldl enrolKey []
  nodes.zipIdx.flatMap fun (node, index) =>
    node.dependsOn.zipIdx.flatMap fun (dependency, dependencyIndex) =>
      if validKey dependency && !keys.contains dependency then
        [⟨.missingDependency,
          itemPath (itemPath (js "nodes") index ++ js ".dependsOn") dependencyIndex,
          js "unknown dependency '" ++ dependency ++ js "'"⟩]
      else []

def cycleIssues : List MissionGraphValidationIssue :=
  let cyclic := cycleMembers nodes
  if cyclic = [] then []
  else [⟨.cyclicDependency, js "nodes",
    js "dependency cycle includes: " ++ List.intercalate (js ", ") cyclic⟩]

def sizeIssues (graph : EcosystemMissionGraphV1) : List MissionGraphValidationIssue :=
  match canonicalJson unicode (graphDigestPayload graph) with
  | none => [⟨.invalidSchema, js "$", js "graph is not canonically serializable"⟩]
  | some text =>
      if maxMissionGraphCanonicalBytes < (utf8Encode text).length then
        [⟨.graphTooLarge, js "$",
          js "canonical graph exceeds " ++ decimal maxMissionGraphCanonicalBytes ++ js " bytes"⟩]
      else []

def missionIssues (missionKey title objective createdAt : JsString) :
    List MissionGraphValidationIssue :=
  (if validKey missionKey then []
    else [⟨.invalidKey, js "missionKey", js "invalid mission key"⟩]) ++
  validateText unicode title maxTitleLength .invalidTitle (js "title") ++
  validateText unicode objective maxObjectiveLength .invalidObjective (js "objective") ++
  (if validTimestamp createdAt then []
    else [⟨.invalidCreatedAt, js "createdAt", js "must be canonical ISO-8601"⟩])

def nodeCountIssue : MissionGraphValidationIssue :=
  ⟨.tooManyNodes, js "nodes", js "must contain 1.." ++ decimal maxMissionGraphNodes ++ js " nodes"⟩

def unboundedNodes (length : ℕ) : Bool :=
  length < 1 || maxMissionGraphNodes < length

def graphIssues (graph : EcosystemMissionGraphV1) : List MissionGraphValidationIssue :=
  let issues := nodesIssues unicode 0 [] graph.nodes ++ missingDependencies graph.nodes
  issues ++
    (if issues.any fun issue =>
        issue.code = .missingDependency || issue.code = .duplicateNodeKey then []
      else cycleIssues graph.nodes) ++
    sizeIssues unicode graph

def structuralIssues (hash : Option (Bytes → JsString))
    (graph : EcosystemMissionGraphV1) : Option (List MissionGraphValidationIssue) :=
  let issues := missionIssues unicode graph.missionKey graph.title graph.objective graph.createdAt
  if unboundedNodes graph.nodes.length then some (issues ++ [nodeCountIssue])
  else
    match hash with
    | none => some (issues ++ graphIssues unicode graph)
    | some hash =>
        (ecosystemMissionGraphDigest unicode hash graph).map fun digest =>
          issues ++ graphIssues unicode graph ++
            if digest = graph.graphDigest then []
            else [⟨.digestMismatch, js "graphDigest",
              js "graph digest does not match canonical content"⟩]

def validateEcosystemMissionGraph (hash : Bytes → JsString)
    (graph : EcosystemMissionGraphV1) : List MissionGraphValidationIssue :=
  (structuralIssues unicode (some hash) graph).getD
    [⟨.invalidSchema, js "$", js "mission graph is structurally invalid"⟩]

end

end AshlrHub.Vision
