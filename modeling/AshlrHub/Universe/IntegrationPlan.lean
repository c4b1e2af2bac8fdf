import AshlrHub.Authority.Clamp
import AshlrHub.Js.LowerCase
import AshlrHub.Universe.CanonicalTies

namespace AshlrHub.Universe

open Js Authority

/-! The paths of files, and the ways in which two of them cannot stand in one portable tree. -/

/-- `text.normalize('NFC')` and `text.normalize('NFD')`. -/
structure PathNormalization where
  nfc : JsString → JsString
  nfd : JsString → JsString

def slash : CodeUnit := 0x2F

def boundedText (max : ℕ) (text : JsString) : Bool :=
  trim text ≠ [] && text.length ≤ max && text.all fun unit => 32 ≤ unit.toNat && unit ≠ 127

def validGenerationPath (path : JsString) : Bool :=
  boundedText 512 path && !path.contains 0x5C && path.head? ≠ some slash && !path.contains 0x3A &&
    (path.splitOn slash).all fun part =>
      part ≠ [] && part ≠ js "." && part ≠ js ".." && part ≠ js ".git" && part ≠ js ".ashlr"

/-- The letters A to Z as the `i` flag of a pattern folds them. -/
def foldCase (unit : CodeUnit) : CodeUnit :=
  if isUpper unit then unit + 32 else unit

def isDeviceDigit (unit : CodeUnit) : Bool :=
  0x31 ≤ unit.toNat && unit.toNat ≤ 0x39

/-- `/^(?:con|prn|aux|nul|com[1-9]|lpt[1-9])(?:\.|$)/i` -/
def isDeviceName (part : JsString) : Bool :=
  let folded := part.map foldCase
  let ends := fun rest : JsString => rest = [] || rest.head? = some 0x2E
  ([js "con", js "prn", js "aux", js "nul"].any fun name =>
      name.isPrefixOf folded && ends (folded.drop 3)) ||
    [js "com", js "lpt"].any fun name =>
      name.isPrefixOf folded && (folded[3]?).any isDeviceDigit && ends (folded.drop 4)

def validFileOperationsPath (text : PathNormalization) (path : JsString) : Bool :=
  validGenerationPath path && text.nfc path = path && (path.splitOn slash).length ≤ 32 &&
    (path.splitOn slash).all fun part =>
      part.getLast? ≠ some 0x2E && part.getLast? ≠ some 0x20 &&
        !([js ".git", js ".ashlr"].contains (toLowerCase part)) && !isDeviceName part

def fileOperationsPathKey (text : PathNormalization) (path : JsString) : JsString :=
  toLowerCase (text.nfd path)

/-- `parts.slice(0, index).join('/')` for each index up to the bound. -/
def pathsUpTo (path : JsString) (bound : ℕ) : List JsString :=
  (List.range bound).map fun index =>
    List.intercalate [slash] ((path.splitOn slash).take (index + 1))

def pathSegments (path : JsString) : List JsString :=
  pathsUpTo path (path.splitOn slash).length

def parentPaths (path : JsString) : List JsString :=
  pathsUpTo path ((path.splitOn slash).length - 1)

structure Portable (text : PathNormalization) (paths : List JsString) : Prop where
  spelling : ∀ path ∈ paths, ∀ other ∈ paths, ∀ segment ∈ pathSegments path,
    ∀ spelt ∈ pathSegments other,
      fileOperationsPathKey text segment = fileOperationsPathKey text spelt → segment = spelt
  files : ∀ path ∈ paths, ∀ other ∈ paths, path ∉ parentPaths other

theorem Portable.perm {text : PathNormalization} {paths others : List JsString}
    (portable : Portable text paths) (perm : paths.Perm others) : Portable text others where
  spelling := fun path member other otherMember =>
    portable.spelling path (perm.mem_iff.mpr member) other (perm.mem_iff.mpr otherMember)
  files := fun path member other otherMember =>
    portable.files path (perm.mem_iff.mpr member) other (perm.mem_iff.mpr otherMember)

open Artifacts

/-! The plan of an integration: deliveries over one base commit, composed to one set of edits. -/

def maxSources : ℕ := 8
def maxPaths : ℕ := 8192
def maxIntegrationConflicts : ℕ := 128
def maxReasons : ℕ := 64
def maxArtifactBytes : ℕ := 64 * 1024 * 1024

def validPath (text : PathNormalization) (path : JsString) : Bool :=
  validFileOperationsPath text path && !path.any fun unit => 127 ≤ unit.toNat && unit.toNat ≤ 159

structure UniverseIntegrationSource where
  universeId : JsString
  deliveryId : JsString
  commit : JsString
  tree : JsString

structure UniverseIntegrationTarget where
  repo : JsString
  baseCommit : JsString
  allowedPaths : List JsString

structure UniverseIntegrationDefinition (text : PathNormalization) where
  id : JsString
  target : UniverseIntegrationTarget
  sources : List UniverseIntegrationSource
  allowed : 1 ≤ target.allowedPaths.length ∧ target.allowedPaths.length ≤ maxPaths
  paths : ∀ path ∈ target.allowedPaths, validPath text path
  distinct : target.allowedPaths.Nodup
  bounded : 2 ≤ sources.length ∧ sources.length ≤ maxSources
  pins : (sources.map fun source => (source.universeId, source.deliveryId)).Nodup

structure FileVersion where
  oid : JsString
  executable : Bool
deriving DecidableEq

structure GitTreeEntry extends FileVersion where
  path : JsString

abbrev GitTree := JsMap JsString GitTreeEntry

def treeOf (entries : List GitTreeEntry) : GitTree :=
  JsMap.ofEntries (entries.map fun entry => (entry.path, entry))

def versionAt (tree : GitTree) (path : JsString) : Option FileVersion :=
  (tree.get? path).map (·.toFileVersion)

structure TreeEdit where
  path : JsString
  after : Option FileVersion

def changed (base : GitTree) (next : List GitTreeEntry) : List TreeEdit :=
  let current := treeOf next
  ((base.keys ++ current.keys).eraseDups.insertionSort (· ≤ ·)).filterMap fun path =>
    if versionAt base path = versionAt current path then none
    else some ⟨path, versionAt current path⟩

/-! What the plan reads. -/

inductive DeliveryStatus where
  | pending
  | delivered
  | unchanged
deriving DecidableEq

structure UniverseDeliveryReceipt where
  id : JsString
  universeId : JsString
  repo : JsString
  baseCommit : JsString
  commit : JsString
  tree : JsString
  status : DeliveryStatus
  /-- The canonical text of the other fields. -/
  others : JsString

structure UniverseDeliveryReport where
  deliveries : List UniverseDeliveryReceipt
  healthy : Bool

/-- The plumbing of one repository; none where a command fails. -/
structure DeliveryGit where
  commit : JsString → Option JsString
  entries : JsString → Option (List GitTreeEntry)
  /-- The size of a blob, as `cat-file --batch-check` shows it. -/
  blobSize : JsString → Option ℕ

inductive ConflictCode where
  | pathConflict
  | fileDirectoryConflict
  | caseFoldConflict
deriving DecidableEq

structure UniverseIntegrationConflict where
  code : ConflictCode
  paths : List JsString
  sourceDeliveryIds : List JsString
deriving DecidableEq

inductive SourceState where
  | verified
  | unavailable
  | mismatched
deriving DecidableEq

structure UniverseIntegrationSourceSummary where
  source : UniverseIntegrationSource
  receiptDigest : Option JsString
  state : SourceState
  changedPathCount : ℕ

structure UniverseIntegrationEntry where
  path : JsString
  after : Option FileVersion
  sourceDeliveryIds : List JsString
deriving DecidableEq

structure IntegrationReading where
  text : PathNormalization
  collation : Collation
  repository : JsString → Option DeliveryGit
  deliveries : JsString → Option UniverseDeliveryReport
  receiptDigest : UniverseDeliveryReceipt → JsString
  recipeDigest : UniverseIntegrationDefinition text → List UniverseIntegrationSourceSummary →
    List UniverseIntegrationEntry → JsString

/-! The composition. -/

structure Overlay where
  after : Option FileVersion
  sourceDeliveryIds : List JsString

structure Composition where
  reasons : List JsString
  conflicts : List UniverseIntegrationConflict
  summaries : List UniverseIntegrationSourceSummary
  overlays : JsMap JsString Overlay

def Composition.issue (state : Composition) (reason : JsString) : Composition :=
  if !state.reasons.contains reason && state.reasons.length < maxReasons then
    { state with reasons := state.reasons ++ [reason] }
  else state

def compositionConflicts : JsString := js "composition-conflicts"

def Composition.conflict (state : Composition) (value : UniverseIntegrationConflict) :
    Composition :=
  let noted :=
    if state.conflicts.length < maxIntegrationConflicts && !state.conflicts.contains value then
      { state with conflicts := state.conflicts ++ [value] }
    else state
  noted.issue compositionConflicts

def sortPaths (paths : List JsString) : List JsString :=
  paths.insertionSort (· ≤ ·)

def applyEdit (deliveryId : JsString) (state : Composition) (edit : TreeEdit) : Composition :=
  match state.overlays.get? edit.path with
  | none => { state with overlays := state.overlays.set edit.path ⟨edit.after, [deliveryId]⟩ }
  | some previous =>
      if previous.after = edit.after then
        { state with
          overlays := state.overlays.set edit.path
            ⟨previous.after, previous.sourceDeliveryIds ++ [deliveryId]⟩ }
      else state.conflict
        ⟨.pathConflict, [edit.path], sortPaths (previous.sourceDeliveryIds ++ [deliveryId])⟩

inductive SourceReading where
  | refused (reason : Option JsString) (state : SourceState) (receiptDigest : Option JsString)
  | verified (receiptDigest : JsString) (edits : List TreeEdit)

def receiptOf (source : UniverseIntegrationSource) (report : UniverseDeliveryReport) :
    Option UniverseDeliveryReceipt :=
  match report.deliveries.filter fun receipt => receipt.id = source.deliveryId with
  | [receipt] => some receipt
  | _ => none

def isPinned (target : UniverseIntegrationTarget) (source : UniverseIntegrationSource)
    (receipt : UniverseDeliveryReceipt) : Bool :=
  receipt.status = .delivered && receipt.universeId = source.universeId &&
    receipt.commit = source.commit && receipt.tree = source.tree && receipt.repo = target.repo &&
    receipt.baseCommit = target.baseCommit

def readEdits (allowedPaths : List JsString) (git : DeliveryGit) (base : GitTree)
    (tree : JsString) : Option (List TreeEdit) :=
  match git.entries tree with
  | none => none
  | some next =>
      let edits := changed base next
      if edits = [] || edits.any fun edit => !allowedPaths.contains edit.path then none
      else some edits

section

variable (reading : IntegrationReading)

def readSource (target : UniverseIntegrationTarget)
    (found : Option (DeliveryGit × GitTree)) (source : UniverseIntegrationSource) :
    SourceReading :=
  match reading.deliveries source.universeId with
  | none => .refused (some (js "source-delivery-unavailable")) .unavailable none
  | some report =>
      if !report.healthy then
        .refused (some (js "source-delivery-unavailable")) .unavailable none
      else match (receiptOf source report).filter (isPinned target source) with
      | none => .refused (some (js "source-delivery-pin-mismatch")) .mismatched none
      | some receipt =>
          let receiptDigest := reading.receiptDigest receipt
          match found with
          | none => .refused none .unavailable (some receiptDigest)
          | some (git, base) =>
              match readEdits target.allowedPaths git base receipt.tree with
              | none => .refused (some (js "source-tree-or-allowlist-unavailable")) .unavailable
                  (some receiptDigest)
              | some edits => .verified receiptDigest edits

def composeSource (target : UniverseIntegrationTarget)
    (found : Option (DeliveryGit × GitTree)) (state : Composition)
    (source : UniverseIntegrationSource) : Composition :=
  match readSource reading target found source with
  | .refused reason summaryState receiptDigest =>
      let issued := match reason with
        | some reason => state.issue reason
        | none => state
      { issued with
        summaries := issued.summaries ++ [⟨source, receiptDigest, summaryState, 0⟩] }
  | .verified receiptDigest edits =>
      let edited := edits.foldl (applyEdit source.deliveryId) state
      { edited with
        summaries := edited.summaries ++ [⟨source, some receiptDigest, .verified, edits.length⟩] }

/-! The final tree. -/

def sortByPath {α : Type} (collation : Collation) (path : α → JsString) (items : List α) : List α :=
  items.insertionSort fun a b => collation.inOrder (path a) (path b) = true

def entriesOf (collation : Collation) (overlays : JsMap JsString Overlay) :
    List UniverseIntegrationEntry :=
  sortByPath collation (·.path) (overlays.map fun (path, overlay) =>
    ⟨path, overlay.after, sortPaths overlay.sourceDeliveryIds⟩)

def applyEntry (tree : GitTree) (entry : UniverseIntegrationEntry) : GitTree :=
  match entry.after with
  | none => tree.delete entry.path
  | some version => tree.set entry.path ⟨version, entry.path⟩

def applyEntries (base : GitTree) (entries : List UniverseIntegrationEntry) : GitTree :=
  entries.foldl applyEntry base

abbrev Folds := JsMap JsString JsString

def foldSegment (text : PathNormalization) (checked : Folds × Composition) (segment : JsString) :
    Folds × Composition :=
  let folded := fileOperationsPathKey text segment
  let fresh := (checked.1.set folded segment, checked.2)
  match checked.1.get? folded with
  | none => fresh
  | some prior =>
      if prior ≠ [] ∧ prior ≠ segment then
        (checked.1, checked.2.conflict ⟨.caseFoldConflict, sortPaths [prior, segment], []⟩)
      else fresh

def checkParent (paths : List JsString) (path : JsString) (state : Composition)
    (parent : JsString) : Composition :=
  if paths.contains parent then state.conflict ⟨.fileDirectoryConflict, [parent, path], []⟩
  else state

def checkPath (text : PathNormalization) (paths : List JsString) (checked : Folds × Composition)
    (path : JsString) : Folds × Composition :=
  let spelt := (pathSegments path).foldl (foldSegment text) checked
  (spelt.1, (parentPaths path).foldl (checkParent paths path) spelt.2)

def contentIssue (git : DeliveryGit) (finalEntries : List GitTreeEntry) : Option JsString :=
  let oids := (finalEntries.map (·.oid)).eraseDups
  match oids.mapM git.blobSize with
  | none => some (js "final-tree-content-unavailable")
  | some _ =>
      let total := (finalEntries.map fun entry => (git.blobSize entry.oid).getD 0).sum
      if maxArtifactBytes < total then some (js "final-tree-byte-limit-exceeded") else none

def checkFinalTree (git : DeliveryGit) (finalTree : GitTree) (state : Composition) : Composition :=
  let finalEntries := sortByPath reading.collation (·.path) (finalTree.map Prod.snd)
  let counted := if maxPaths < finalEntries.length then
    state.issue (js "final-tree-entry-limit-exceeded") else state
  let paths := finalEntries.map (·.path)
  let placed := (paths.foldl (checkPath reading.text paths) ([], counted)).2
  let named := if finalEntries.any fun entry => !validPath reading.text entry.path then
    placed.issue (js "final-tree-path-invalid") else placed
  if named.conflicts = [] && finalEntries.length ≤ maxPaths &&
      !named.reasons.contains (js "final-tree-path-invalid") then
    match contentIssue git finalEntries with
    | some reason => named.issue reason
    | none => named
  else named

/-! The plan. -/

structure UniverseIntegrationPlan where
  healthy : Bool
  reasons : List JsString
  sources : List UniverseIntegrationSourceSummary
  entries : List UniverseIntegrationEntry
  conflicts : List UniverseIntegrationConflict
  compositionDigest : Option JsString
  compositionReady : Bool

def findTarget (target : UniverseIntegrationTarget) : Option (DeliveryGit × GitTree) := do
  let git ← reading.repository target.repo
  guard (git.commit target.baseCommit = some target.baseCommit)
  let entries ← git.entries target.baseCommit
  return (git, treeOf entries)

def compose (definition : UniverseIntegrationDefinition reading.text) : Composition :=
  let found := findTarget reading definition.target
  let start : Composition := ⟨[], [], [], []⟩
  let opened := if found.isNone then
    start.issue (js "target-repository-or-base-unavailable") else start
  definition.sources.foldl (composeSource reading definition.target found) opened

def allVerified (summaries : List UniverseIntegrationSourceSummary) : Bool :=
  summaries.all fun summary => summary.state = .verified

def readUniverseIntegrationPlan
    (definition : UniverseIntegrationDefinition reading.text) : UniverseIntegrationPlan :=
  let composed := compose reading definition
  let entries := entriesOf reading.collation composed.overlays
  let checked := match findTarget reading definition.target with
    | some (git, base) =>
        if composed.conflicts = [] && allVerified composed.summaries then
          checkFinalTree reading git (applyEntries base entries) composed
        else composed
    | none => composed
  let healthy := !checked.reasons.any (· ≠ compositionConflicts)
  let ready := healthy && checked.conflicts = [] && allVerified checked.summaries
  { healthy
    reasons := checked.reasons
    sources := checked.summaries
    entries
    conflicts := checked.conflicts
    compositionDigest := if ready then
      some (reading.recipeDigest definition checked.summaries entries) else none
    compositionReady := ready }

end

end AshlrHub.Universe
