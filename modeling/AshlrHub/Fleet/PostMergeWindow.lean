import AshlrHub.Fleet.PostMergeWatch
import AshlrHub.Js.Ascii
import AshlrHub.Js.RegExp

namespace AshlrHub.PostMergeWindow

open Js Authority Lib

/-! The history behind a merge, as `git log -z` frames it. -/

section

variable (buffer : Bytes)

def exactAscii : Option JsString :=
  if buffer.all (· ≤ 0x7F) then some (buffer.map UInt8.toUInt16) else none

def withoutMark (text : JsString) : JsString :=
  if text.head? = some 0xFEFF then text.tail else text

/-- `new TextDecoder('utf-8', { fatal: true }).decode(buffer)`, which drops a leading mark. -/
def exactUtf8 : Option JsString :=
  if utf8Encode (utf8Decode buffer) = buffer then some (withoutMark (utf8Decode buffer)) else none

def splitNul : Option (List Bytes) :=
  if buffer.getLast? = some 0 then some (buffer.splitOn 0).dropLast else none

def parseShaField : Option JsString :=
  (exactAscii buffer).filter (isHexOfLength 40)

/-- `/^(0|[1-9]\d{0,12})$/`, and the milliseconds that it stands for. -/
def parseEpochSeconds : Option ℕ := do
  let text ← exactAscii buffer
  guard (isCanonicalDigits text = true ∧ text.length ≤ 13)
  guard ((digitsValue text * 1000 : ℤ) ≤ JsNumber.maxSafeInteger)
  some (digitsValue text * 1000)

def toHex : JsString :=
  buffer.flatMap fun byte => [hexDigit (byte.toNat / 16), hexDigit (byte.toNat % 16)]

/-- A set in the order of its insertions. -/
def addKey (keys : List JsString) (path : Bytes) : List JsString :=
  if toHex path ∈ keys then keys else keys ++ [toHex path]

def pathKeys (paths : List Bytes) : List JsString :=
  paths.foldl addKey []

structure HistoryCommit where
  sha : JsString
  committedAtMs : ℕ
  subject : JsString
  body : JsString
  pathKeys : List JsString

def readPaths : List Bytes → Option (List Bytes)
  | [] => some []
  | [] :: _ => none
  | (unit :: path) :: rest => if unit = 0x0A ∧ path ≠ [] then some (path :: rest) else none

def readCommit : List Bytes → Option (HistoryCommit × List Bytes)
  | first :: sha :: time :: subject :: body :: gap :: rest => do
      guard (first = [])
      let sha ← parseShaField sha
      let committedAtMs ← parseEpochSeconds time
      let subject ← exactUtf8 subject
      let body ← exactUtf8 body
      guard (gap = [])
      let paths ← readPaths (rest.takeWhile (· ≠ []))
      some (⟨sha, committedAtMs, subject, body, pathKeys paths⟩, rest.dropWhile (· ≠ []))
  | _ => none

def readCommits : ℕ → List Bytes → Option (List HistoryCommit)
  | _, [] => some []
  | 0, _ :: _ => none
  | fuel + 1, field :: fields => do
      let (commit, rest) ← readCommit (field :: fields)
      let commits ← readCommits fuel rest
      some (commit :: commits)

def parseHistory : Option (List HistoryCommit) :=
  if buffer = [] then some []
  else do
    let fields ← splitNul buffer
    guard (6 ≤ fields.length ∧ fields.head? = some [])
    readCommits fields.length fields

def exactGitLine : Option Bytes :=
  if buffer.length < 2 ∨ buffer.getLast? ≠ some 0x0A then none
  else if 0x0A ∈ buffer.dropLast ∨ 0x0D ∈ buffer.dropLast then none
  else some buffer.dropLast

def parseSingleSha : Option JsString :=
  (exactGitLine buffer).bind parseShaField

structure MergeMetadata where
  mergeTimeMs : ℕ
  firstParent : Option JsString

def parseMergeMetadata : Option MergeMetadata := do
  let line ← exactGitLine buffer
  let back := (line.dropWhile (· ≠ 0)).tail
  guard (0 ∈ line ∧ line.head? ≠ some 0 ∧ 0 ∉ back)
  let mergeTimeMs ← parseEpochSeconds (line.takeWhile (· ≠ 0))
  let parents ← exactAscii back
  if parents = [] then some ⟨mergeTimeMs, none⟩
  else
    guard ((parents.splitOn 0x20).all (isHexOfLength 40) = true)
    some ⟨mergeTimeMs, (parents.splitOn 0x20).head?⟩

def parsePathList : Option (List JsString) :=
  if buffer = [] then some []
  else do
    let fields ← splitNul buffer
    guard ([] ∉ fields)
    some (pathKeys fields)

end

/-! `inspectPostMergeWindow` -/

inductive InconclusiveReason where
  | invalidInput
  | mergeMissing
  | mergeNotAncestor
  | headMoved
  | clockSkew
  | timeout
  | outputLimit
  | malformedOutput
  | gitError
deriving DecidableEq

inductive GitRun where
  | ok (stdout : Bytes)
  | failed (reason : InconclusiveReason) (exitCode : Option ℤ)

inductive Adverse where
  | reverted (commit : JsString)
  | followedUp (commit : JsString)
deriving DecidableEq

structure WindowInput where
  repo : JsString
  mergeCommit : JsString
  observedAtMs : ℤ
  followUpWindowMs : ℤ
  windowStartedAtMs : Option ℤ

structure Complete where
  mergeCommit : JsString
  observedHead : JsString
  mergeTimeMs : ℤ
  windowStartedAtMs : ℤ
  followUpWindowEndMs : ℤ
  windowElapsed : Bool
  commitsInspected : ℕ
  adverse : Option Adverse
deriving DecidableEq

def metadataOutputBytes : ℕ := 64 * 1024

def fileListOutputBytes : ℕ := 512 * 1024

def historyOutputBytes : ℕ := 2 * 1024 * 1024

def maxWindowMs : ℤ := 365 * 24 * 60 * 60 * 1000

def isSafeTime (ms : ℤ) : Bool :=
  0 ≤ ms && ms ≤ JsNumber.maxSafeInteger

/-- `isNormal` is `isAbsolute(path) && resolve(path) === path`. -/
def WindowInput.valid (isNormal : JsString → Bool) (input : WindowInput) : Bool :=
  input.repo ≠ [] && input.repo.length ≤ 4096 && isNormal input.repo &&
    (input.repo.all fun unit => 32 ≤ unit && unit ≠ 127) && isHexOfLength 40 input.mergeCommit &&
    isSafeTime input.observedAtMs && 1 ≤ input.followUpWindowMs &&
    input.followUpWindowMs ≤ maxWindowMs && input.windowStartedAtMs.all isSafeTime

def commitArgs (name : JsString) : List JsString :=
  [js "rev-parse", js "--verify", name ++ js "^\x7bcommit\x7d"]

def mergedPathArgs (merge : JsString) : Option JsString → List JsString
  | some parent => [js "diff", js "--name-only", js "-z", js "--no-renames", parent, merge]
  | none =>
      [js "diff-tree", js "--root", js "--no-commit-id", js "--name-only", js "-z", js "-r",
        js "--no-renames", merge]

def logArgs (merge head : JsString) : List JsString :=
  [js "log", js "-z", js "--no-renames", js "--format=%x00%H%x00%ct%x00%s%x00%B%x00",
    js "--name-only", merge ++ js ".." ++ head]

/-- `/\b(fix|hotfix|revert)\b/i` -/
def isFollowupSubject (subject : JsString) : Bool :=
  (subject.splitOnP fun unit => RegExp.isWordUnit unit = false).any fun word =>
    [js "fix", js "hotfix", js "revert"].contains (word.map PostMerge.lowerAscii)

def revertNeedles (merge : JsString) : List JsString :=
  [js "This reverts commit " ++ merge, js "This reverts commit " ++ merge ++ js "."]

def HistoryCommit.reverts (commit : HistoryCommit) (merge : JsString) : Bool :=
  (commit.body.splitOn 0x0A).any fun line => (revertNeedles merge).contains line

def HistoryCommit.followsUp (commit : HistoryCommit) (merged : List JsString)
    (mergeTimeMs cutoff : ℤ) : Bool :=
  mergeTimeMs ≤ commit.committedAtMs && commit.committedAtMs ≤ cutoff &&
    isFollowupSubject commit.subject && commit.pathKeys.any merged.contains

def findAdverse (history : List HistoryCommit) (merge : JsString) (merged : List JsString)
    (mergeTimeMs cutoff : ℤ) : Option Adverse :=
  match history.find? fun commit => commit.reverts merge with
  | some commit => some (.reverted commit.sha)
  | none =>
      if merged = [] then none
      else
        (history.reverse.find? fun commit => commit.followsUp merged mergeTimeMs cutoff).map
          fun commit => .followedUp commit.sha

section

/-! `git` answers the calls in their order, and `late` tells before or behind which of them the
deadline passes. -/

variable (git : ℕ → List JsString → GitRun) (late : ℕ → Bool)

def invoke (n : ℕ) (args : List JsString) (maxOutputBytes : ℕ) : Except InconclusiveReason GitRun :=
  if late n then .error .timeout
  else
    match git n args with
    | .ok stdout =>
        .ok (if maxOutputBytes < stdout.length then .failed .outputLimit none else .ok stdout)
    | failed => .ok failed

def run (n : ℕ) (args : List JsString) (maxOutputBytes : ℕ) : Except InconclusiveReason Bytes := do
  match ← invoke git late n args maxOutputBytes with
  | .ok stdout => .ok stdout
  | .failed reason _ => .error reason

def orElse {α : Type} (answer : Option α) (reason : InconclusiveReason) :
    Except InconclusiveReason α :=
  match answer with
  | some value => .ok value
  | none => .error reason

def findMerge (mergeCommit : JsString) : Except InconclusiveReason Unit := do
  match ← invoke git late 1 (commitArgs mergeCommit) metadataOutputBytes with
  | .failed .gitError (some _) => .error .mergeMissing
  | .failed reason _ => .error reason
  | .ok stdout => if parseSingleSha stdout = some mergeCommit then .ok () else .error .mergeMissing

def checkAncestry (mergeCommit head : JsString) : Except InconclusiveReason Unit := do
  match ← invoke git late 2 [js "merge-base", js "--is-ancestor", mergeCommit, head]
    metadataOutputBytes with
  | .failed reason code =>
      .error (if reason = .gitError ∧ code = some 1 then .mergeNotAncestor else reason)
  | .ok stdout => if stdout = [] then .ok () else .error .malformedOutput

def inspectPostMergeWindow (isNormal : JsString → Bool) (input : WindowInput) :
    Except InconclusiveReason Complete := do
  if input.valid isNormal = false then .error .invalidInput
  else
    let merge := input.mergeCommit
    let head ← orElse (parseSingleSha (← run git late 0 (commitArgs (js "HEAD"))
      metadataOutputBytes)) .malformedOutput
    findMerge git late merge
    checkAncestry git late merge head
    let metadata ← orElse (parseMergeMetadata (← run git late 3
      [js "show", js "-s", js "--format=%ct%x00%P", merge] metadataOutputBytes)) .malformedOutput
    let mergeTimeMs : ℤ := metadata.mergeTimeMs
    let windowStartedAtMs := input.windowStartedAtMs.getD mergeTimeMs
    let windowEndMs := windowStartedAtMs + input.followUpWindowMs
    if input.observedAtMs < mergeTimeMs ∨ input.observedAtMs < windowStartedAtMs then
      .error .clockSkew
    else if JsNumber.maxSafeInteger < windowEndMs then .error .invalidInput
    else
      let merged ← orElse (parsePathList (← run git late 4
        (mergedPathArgs merge metadata.firstParent) fileListOutputBytes)) .malformedOutput
      let history ← orElse (parseHistory (← run git late 5 (logArgs merge head)
        historyOutputBytes)) .malformedOutput
      let after ← orElse (parseSingleSha (← run git late 6 (commitArgs (js "HEAD"))
        metadataOutputBytes)) .malformedOutput
      if after ≠ head then .error .headMoved
      else .ok ⟨merge, head, mergeTimeMs, windowStartedAtMs, windowEndMs,
        windowEndMs ≤ input.observedAtMs, history.length,
        findAdverse history merge merged mergeTimeMs (min windowEndMs input.observedAtMs)⟩

end

/-! What git writes. -/

structure GitCommit where
  sha : JsString
  seconds : ℕ
  subject : JsString
  body : JsString
  paths : List Bytes

def GitCommit.pathFields (commit : GitCommit) : List Bytes :=
  match commit.paths with
  | [] => []
  | path :: paths => (0x0A :: path) :: paths

def asciiBytes (text : JsString) : Bytes :=
  text.map UInt16.toUInt8

def GitCommit.bytes (commit : GitCommit) : Bytes :=
  0 :: (asciiBytes commit.sha ++ 0 :: (asciiBytes (decimal commit.seconds) ++
    0 :: (utf8Encode commit.subject ++ 0 :: (utf8Encode commit.body ++ 0 :: 0 ::
      commit.pathFields.flatMap (· ++ [0])))))

def stream (commits : List GitCommit) : Bytes :=
  commits.flatMap GitCommit.bytes

/-- Its bytes are valid UTF-8 without a NUL. -/
def IsText (text : JsString) : Prop :=
  wellFormed text = true ∧ 0 ∉ utf8Encode text

structure GitCommit.Formed (commit : GitCommit) : Prop where
  sha : isHexOfLength 40 commit.sha = true
  seconds : (commit.seconds * 1000 : ℤ) ≤ JsNumber.maxSafeInteger
  subject : IsText commit.subject
  body : IsText commit.body
  paths : ∀ path ∈ commit.paths, path ≠ [] ∧ 0 ∉ path

def GitCommit.parsed (commit : GitCommit) : HistoryCommit :=
  ⟨commit.sha, commit.seconds * 1000, commit.subject, commit.body, pathKeys commit.paths⟩

/-- Neither text starts with a byte-order mark. -/
def GitCommit.Unmarked (commit : GitCommit) : Prop :=
  commit.subject.head? ≠ some 0xFEFF ∧ commit.body.head? ≠ some 0xFEFF

/-! Fields. -/

def joinNul (fields : List Bytes) : Bytes :=
  fields.flatMap (· ++ [0])

theorem joinNul_cons (field : Bytes) (fields : List Bytes) :
    joinNul (field :: fields) = field ++ 0 :: joinNul fields := by
  rw [joinNul, List.flatMap_cons, List.append_assoc]
  rfl

theorem splitOn_joinNul : {fields : List Bytes} → (∀ field ∈ fields, 0 ∉ field) →
    (joinNul fields).splitOn 0 = fields ++ [[]]
  | [], _ => rfl
  | field :: fields, clean => by
      rw [joinNul_cons, List.splitOn_append_cons_self_of_not_mem (clean field List.mem_cons_self),
        splitOn_joinNul fun other member => clean other (List.mem_cons_of_mem field member)]
      rfl

theorem getLast?_joinNul : {fields : List Bytes} → fields ≠ [] →
    (joinNul fields).getLast? = some 0
  | [field], _ => by
      rw [joinNul_cons]
      exact List.getLast?_concat
  | field :: next :: fields, _ => by
      rw [joinNul_cons, List.getLast?_append, List.getLast?_cons,
        getLast?_joinNul (List.cons_ne_nil next fields)]
      rfl

theorem splitNul_joinNul {fields : List Bytes} (some_ : fields ≠ [])
    (clean : ∀ field ∈ fields, 0 ∉ field) : splitNul (joinNul fields) = some fields := by
  rw [splitNul, if_pos (getLast?_joinNul some_), splitOn_joinNul clean, List.dropLast_concat]

theorem joinNul_splitOn : (buffer : Bytes) → joinNul (buffer.splitOn 0) = buffer ++ [0] ∧
    ∀ field ∈ buffer.splitOn 0, 0 ∉ field
  | [] => ⟨rfl, fun field member => List.mem_singleton.mp member ▸ List.not_mem_nil⟩
  | byte :: buffer => by
      obtain ⟨joined, clean⟩ := joinNul_splitOn buffer
      rw [List.splitOn_cons_eq_if_modifyHead]
      by_cases nul : byte = 0
      · rw [if_pos (beq_iff_eq.mpr nul), joinNul_cons, joined, nul]
        refine ⟨rfl, fun field member => ?_⟩
        rcases List.mem_cons.mp member with rfl | member
        · exact List.not_mem_nil
        · exact clean field member
      · obtain ⟨head, tail, split⟩ :=
          List.exists_cons_of_ne_nil (List.splitOn_ne_nil (0 : UInt8) buffer)
        rw [split] at joined clean
        rw [if_neg (fun same => nul (beq_iff_eq.mp same)), split, List.modifyHead_cons,
          joinNul_cons, List.cons_append, ← joinNul_cons, joined]
        refine ⟨rfl, fun field member => ?_⟩
        rcases List.mem_cons.mp member with rfl | member
        · rw [List.mem_cons, not_or]
          exact ⟨Ne.symm nul, clean head List.mem_cons_self⟩
        · exact clean field (List.mem_cons_of_mem head member)

variable {buffer : Bytes}

theorem of_splitNul {fields : List Bytes} (split : splitNul buffer = some fields) :
    buffer = joinNul fields ∧ ∀ field ∈ fields, 0 ∉ field := by
  unfold splitNul at split
  split at split
  case isFalse => cases split
  case isTrue last =>
    obtain ⟨front, rfl⟩ := List.getLast?_eq_some_iff.mp last
    obtain rfl := Option.some.inj split
    rw [List.splitOn_append_cons_self, show ([] : Bytes).splitOn 0 = [[]] from rfl,
      List.dropLast_concat]
    exact ⟨(joinNul_splitOn front).1.symm, (joinNul_splitOn front).2⟩

/-! One field. -/

theorem exactAscii_asciiBytes {text : JsString} (ascii : IsAscii text) :
    exactAscii (asciiBytes text) = some text := by
  have small : (asciiBytes text).all (· ≤ 0x7F) = true := by
    rw [List.all_eq_true]
    intro byte member
    obtain ⟨unit, inText, rfl⟩ := List.mem_map.mp member
    have bound := ascii unit inText
    rw [decide_eq_true_eq, UInt8.le_iff_toNat_le, UInt16.toNat_toUInt8]
    show unit.toNat % 2 ^ 8 ≤ 127
    omega
  have back : (asciiBytes text).map UInt8.toUInt16 = text := by
    rw [asciiBytes, List.map_map]
    refine (List.map_congr_left fun unit inText => ?_).trans (List.map_id text)
    have bound := ascii unit inText
    refine UInt16.toNat_inj.mp ?_
    show unit.toUInt8.toUInt16.toNat = unit.toNat
    rw [UInt8.toNat_toUInt16, UInt16.toNat_toUInt8]
    omega
  rw [exactAscii, if_pos small, back]

theorem of_exactAscii {text : JsString} (read : exactAscii buffer = some text) :
    buffer = asciiBytes text := by
  unfold exactAscii at read
  split at read
  case isFalse => cases read
  case isTrue =>
    obtain rfl := Option.some.inj read
    rw [asciiBytes, List.map_map]
    refine ((List.map_congr_left fun byte _ => ?_).trans (List.map_id buffer)).symm
    exact UInt8.toNat_inj.mp (by
      show byte.toUInt16.toUInt8.toNat = byte.toNat
      rw [UInt16.toNat_toUInt8, UInt8.toNat_toUInt16]
      have bound := byte.toNat_lt
      omega)

theorem nul_not_mem_asciiBytes {text : JsString} (ascii : IsAscii text) (clean : 0 ∉ text) :
    0 ∉ asciiBytes text := by
  intro member
  obtain ⟨unit, inText, nul⟩ := List.mem_map.mp member
  have bound := ascii unit inText
  have zero := congrArg UInt8.toNat nul
  rw [UInt16.toNat_toUInt8] at zero
  have same : unit = 0 := UInt16.toNat_inj.mp (by
    show unit.toNat = 0
    have none : unit.toNat % 2 ^ 8 = 0 := zero
    omega)
  exact clean (same ▸ inText)

theorem ascii_of_hex {sha : JsString} (hex : isHexOfLength 40 sha = true) :
    IsAscii sha ∧ 0 ∉ sha := by
  have units : ∀ unit ∈ sha, isLowerHex unit = true :=
    List.all_eq_true.mp (Bool.and_eq_true_iff.mp hex).2
  refine ⟨fun unit member => ?_, fun member => absurd (units 0 member) (by decide)⟩
  have hexed := units unit member
  simp only [isLowerHex, isDigit, Bool.or_eq_true, Bool.and_eq_true, decide_eq_true_eq] at hexed
  omega

theorem parseShaField_iff {sha : JsString} :
    parseShaField buffer = some sha ↔ buffer = asciiBytes sha ∧ isHexOfLength 40 sha = true := by
  unfold parseShaField
  rw [Option.filter_eq_some_iff]
  constructor
  · rintro ⟨read, hex⟩
    exact ⟨of_exactAscii read, hex⟩
  · rintro ⟨rfl, hex⟩
    exact ⟨exactAscii_asciiBytes (ascii_of_hex hex).1, hex⟩

theorem parseEpochSeconds_iff {ms : ℕ} :
    parseEpochSeconds buffer = some ms ↔ ∃ seconds, buffer = asciiBytes (decimal seconds) ∧
      (seconds * 1000 : ℤ) ≤ JsNumber.maxSafeInteger ∧ ms = seconds * 1000 := by
  unfold parseEpochSeconds
  simp only [Option.bind_eq_bind, Option.bind_eq_some_iff, guard_eq_some, Option.some.injEq]
  constructor
  · rintro ⟨text, read, _, ⟨canonical, _⟩, _, safe, rfl⟩
    obtain ⟨seconds, rfl⟩ := isCanonicalDigits_iff.mp canonical
    rw [digitsValue_decimal] at safe ⊢
    exact ⟨seconds, of_exactAscii read, safe, rfl⟩
  · rintro ⟨seconds, rfl, safe, rfl⟩
    have short : (decimal seconds).length ≤ 12 + 1 := by
      apply length_decimal_le
      unfold JsNumber.maxSafeInteger at safe
      omega
    refine ⟨_, exactAscii_asciiBytes (isAscii_decimal seconds), ⟨⟩,
      ⟨isCanonicalDigits_iff.mpr ⟨seconds, rfl⟩, short⟩, ⟨⟩, ?_⟩
    rw [digitsValue_decimal]
    exact ⟨safe, rfl⟩

theorem exactUtf8_encode {text : JsString} (formed : wellFormed text = true) :
    exactUtf8 (utf8Encode text) = some (withoutMark text) := by
  rw [exactUtf8, utf8Decode_utf8Encode formed, if_pos rfl]

theorem of_exactUtf8 {text : JsString} (read : exactUtf8 buffer = some text)
    (clean : 0 ∉ buffer) :
    ∃ whole, IsText whole ∧ buffer = utf8Encode whole ∧ text = withoutMark whole := by
  unfold exactUtf8 at read
  split at read
  case isFalse => cases read
  case isTrue same =>
    exact ⟨utf8Decode buffer, ⟨wellFormed_utf8Decode buffer, same.symm ▸ clean⟩, same.symm,
      (Option.some.inj read).symm⟩

/-! A commit and its fields. -/

def GitCommit.fields (commit : GitCommit) : List Bytes :=
  [] :: asciiBytes commit.sha :: asciiBytes (decimal commit.seconds) ::
    utf8Encode commit.subject :: utf8Encode commit.body :: [] :: commit.pathFields

def GitCommit.read (commit : GitCommit) : HistoryCommit :=
  { commit.parsed with
    subject := withoutMark commit.subject
    body := withoutMark commit.body }

variable {commit : GitCommit}

theorem read_of_unmarked (unmarked : commit.Unmarked) :
    commit.read = commit.parsed := by
  unfold GitCommit.read withoutMark
  rw [if_neg unmarked.1, if_neg unmarked.2]
  rfl

theorem GitCommit.bytes_eq (commit : GitCommit) : commit.bytes = joinNul commit.fields := by
  unfold GitCommit.fields
  rw [joinNul_cons, joinNul_cons, joinNul_cons, joinNul_cons, joinNul_cons, joinNul_cons]
  rfl

theorem stream_eq : (commits : List GitCommit) →
    stream commits = joinNul (commits.flatMap GitCommit.fields)
  | [] => rfl
  | commit :: commits => by
      rw [stream, List.flatMap_cons, List.flatMap_cons, joinNul, List.flatMap_append,
        GitCommit.bytes_eq, joinNul, ← stream, stream_eq commits, joinNul]

theorem mem_pathFields (formed : commit.Formed) :
    ∀ field ∈ commit.pathFields, field ≠ [] ∧ 0 ∉ field := by
  have paths := formed.paths
  unfold GitCommit.pathFields
  cases listed : commit.paths with
  | nil => exact nofun
  | cons path rest =>
      rw [listed] at paths
      intro field member
      rcases List.mem_cons.mp member with rfl | member
      · refine ⟨List.cons_ne_nil _ _, ?_⟩
        rw [List.mem_cons, not_or]
        exact ⟨by decide, (paths path List.mem_cons_self).2⟩
      · exact paths field (List.mem_cons_of_mem path member)

theorem clean_fields (formed : commit.Formed) :
    ∀ field ∈ commit.fields, 0 ∉ field := by
  have hex := ascii_of_hex formed.sha
  have digits : 0 ∉ decimal commit.seconds := fun member =>
    absurd (isDigit_decimal commit.seconds 0 member) (by decide)
  intro field member
  simp only [GitCommit.fields, List.mem_cons] at member
  rcases member with rfl | rfl | rfl | rfl | rfl | rfl | member
  · exact List.not_mem_nil
  · exact nul_not_mem_asciiBytes hex.1 hex.2
  · exact nul_not_mem_asciiBytes (isAscii_decimal _) digits
  · exact formed.subject.2
  · exact formed.body.2
  · exact List.not_mem_nil
  · exact (mem_pathFields formed field member).2

/-- Where the fields of the next commit, or none, follow. -/
def Stops (rest : List Bytes) : Prop :=
  rest = [] ∨ rest.head? = some []

theorem span_paths {paths rest : List Bytes} (some_ : ∀ field ∈ paths, field ≠ [])
    (stops : Stops rest) : (paths ++ rest).takeWhile (· ≠ []) = paths ∧
      (paths ++ rest).dropWhile (· ≠ []) = rest := by
  have kept : ∀ field ∈ paths, decide (field ≠ []) = true :=
    fun field member => decide_eq_true (some_ field member)
  rw [List.takeWhile_append_of_pos kept, List.dropWhile_append_of_pos kept]
  rcases stops with rfl | first
  · exact ⟨List.append_nil paths, rfl⟩
  · obtain ⟨rest, rfl⟩ := List.head?_eq_some_iff.mp first
    exact ⟨List.append_nil paths, rfl⟩

theorem readPaths_iff {fields paths : List Bytes} (some_ : ∀ field ∈ fields, field ≠ []) :
    readPaths fields = some paths ↔ fields = GitCommit.pathFields ⟨[], 0, [], [], paths⟩ ∧
      ∀ path ∈ paths, path ≠ [] := by
  unfold GitCommit.pathFields
  dsimp only
  cases fields with
  | nil =>
      cases paths with
      | nil => exact iff_of_true rfl ⟨rfl, nofun⟩
      | cons path paths => exact iff_of_false nofun fun both => (nomatch both.1)
  | cons field rest =>
      have later : ∀ path ∈ rest, path ≠ [] :=
        fun path member => some_ path (List.mem_cons_of_mem field member)
      cases field with
      | nil => exact absurd rfl (some_ [] List.mem_cons_self)
      | cons unit path =>
          unfold readPaths
          dsimp only
          split
          case isTrue feed =>
            obtain ⟨rfl, named⟩ := feed
            constructor
            · intro same
              obtain rfl := Option.some.inj same
              exact ⟨rfl, List.forall_mem_cons.mpr ⟨named, later⟩⟩
            · rintro ⟨same, _⟩
              cases paths with
              | nil => cases same
              | cons first others =>
                  obtain ⟨front, rfl⟩ := List.cons.inj same
                  rw [(List.cons.inj front).2]
          case isFalse other =>
            refine iff_of_false nofun ?_
            rintro ⟨same, named⟩
            cases paths with
            | nil => cases same
            | cons first others =>
                obtain ⟨rfl, rfl⟩ := List.cons.inj (List.cons.inj same).1
                exact other ⟨rfl, named _ List.mem_cons_self⟩

theorem readCommit_fields (formed : commit.Formed) {rest : List Bytes}
    (stops : Stops rest) : readCommit (commit.fields ++ rest) = some (commit.read, rest) := by
  have some_ := fun field member => (mem_pathFields formed field member).1
  obtain ⟨taken, dropped⟩ := span_paths some_ stops
  have paths : readPaths commit.pathFields = some commit.paths :=
    (readPaths_iff some_).mpr ⟨rfl, fun path member => (formed.paths path member).1⟩
  unfold GitCommit.fields readCommit
  dsimp only [List.cons_append]
  rw [taken, dropped, parseShaField_iff.mpr ⟨rfl, formed.sha⟩,
    parseEpochSeconds_iff.mpr ⟨_, rfl, formed.seconds, rfl⟩, exactUtf8_encode formed.subject.1,
    exactUtf8_encode formed.body.1, paths]
  rfl

theorem stops_fields : (commits : List GitCommit) → Stops (commits.flatMap GitCommit.fields)
  | [] => .inl rfl
  | _ :: _ => .inr rfl

theorem readCommits_fields : {fuel : ℕ} → {commits : List GitCommit} →
    (∀ commit ∈ commits, commit.Formed) → (commits.flatMap GitCommit.fields).length ≤ fuel →
    readCommits fuel (commits.flatMap GitCommit.fields) = some (commits.map GitCommit.read)
  | fuel, [], _, _ => by
      cases fuel with
      | zero => rfl
      | succ fuel => rfl
  | 0, commit :: commits, _, enough => absurd enough (Nat.not_succ_le_zero _)
  | fuel + 1, commit :: commits, formed, enough => by
      have first := readCommit_fields (formed commit List.mem_cons_self) (stops_fields commits)
      rw [List.flatMap_cons] at enough ⊢
      have fewer : (commits.flatMap GitCommit.fields).length ≤ fuel := by
        rw [List.length_append] at enough
        have some_ : 0 < commit.fields.length := Nat.succ_pos _
        omega
      have rest := readCommits_fields
        (fun other member => formed other (List.mem_cons_of_mem commit member)) fewer
      show (readCommit (commit.fields ++ commits.flatMap GitCommit.fields)).bind _ = _
      rw [first, Option.bind_some]
      show (readCommits fuel (commits.flatMap GitCommit.fields)).bind _ = _
      rw [rest]
      rfl

theorem of_readCommit {fields rest : List Bytes} {commit : HistoryCommit}
    (clean : ∀ field ∈ fields, 0 ∉ field) (read : readCommit fields = some (commit, rest)) :
    ∃ written : GitCommit, written.Formed ∧ commit = written.read ∧
      fields = written.fields ++ rest := by
  unfold readCommit at read
  split at read
  case h_2 => cases read
  case h_1 first sha time subject body gap more =>
    simp only [Option.bind_eq_bind, Option.bind_eq_some_iff, guard_eq_some, Option.some.injEq,
      Prod.mk.injEq] at read
    obtain ⟨_, rfl, name, shaRead, ms, timeRead, title, subjectRead, text, bodyRead, _, rfl, paths,
      pathsRead, rfl, rfl⟩ := read
    simp only [List.mem_cons, forall_eq_or_imp] at clean
    obtain ⟨_, _, _, subjectClean, bodyClean, _, moreClean⟩ := clean
    obtain ⟨rfl, hex⟩ := parseShaField_iff.mp shaRead
    obtain ⟨seconds, rfl, safe, rfl⟩ := parseEpochSeconds_iff.mp timeRead
    obtain ⟨subject, subjectText, rfl, rfl⟩ := of_exactUtf8 subjectRead subjectClean
    obtain ⟨body, bodyText, rfl, rfl⟩ := of_exactUtf8 bodyRead bodyClean
    have some_ : ∀ field ∈ more.takeWhile (· ≠ []), field ≠ [] := fun field member =>
      of_decide_eq_true (List.all_eq_true.mp List.all_takeWhile field member)
    obtain ⟨same, named⟩ := (readPaths_iff some_).mp pathsRead
    refine ⟨⟨name, seconds, subject, body, paths⟩,
      ⟨hex, safe, subjectText, bodyText, fun path member => ⟨named path member, ?_⟩⟩, rfl, ?_⟩
    · have fromMore : ∀ field ∈ more.takeWhile (· ≠ []), 0 ∉ field :=
        fun field there => moreClean field ((List.takeWhile_sublist _).subset there)
      rw [same] at fromMore
      cases paths with
      | nil => cases member
      | cons front others =>
          rcases List.mem_cons.mp member with rfl | member
          · exact fun nul => fromMore _ List.mem_cons_self (List.mem_cons_of_mem _ nul)
          · exact fromMore path (List.mem_cons_of_mem _ member)
    · show _ = [] :: _ :: _ :: _ :: _ :: [] :: (GitCommit.pathFields _ ++ _)
      rw [show GitCommit.pathFields ⟨name, seconds, subject, body, paths⟩ =
        GitCommit.pathFields ⟨[], 0, [], [], paths⟩ from rfl, ← same,
        List.takeWhile_append_dropWhile]

theorem of_readCommits : {fuel : ℕ} → {fields : List Bytes} → {commits : List HistoryCommit} →
    (∀ field ∈ fields, 0 ∉ field) → readCommits fuel fields = some commits →
    ∃ written : List GitCommit, (∀ commit ∈ written, commit.Formed) ∧
      commits = written.map GitCommit.read ∧ fields = written.flatMap GitCommit.fields
  | fuel, [], commits, _, read => by
      have none : commits = [] := by
        cases fuel with
        | zero | succ fuel => exact (Option.some.inj read).symm
      exact ⟨[], nofun, none, rfl⟩
  | 0, _ :: _, _, _, read => by cases read
  | fuel + 1, field :: fields, commits, clean, read => by
      obtain ⟨⟨commit, rest⟩, first, read⟩ := Option.bind_eq_some_iff.mp read
      obtain ⟨others, later, read⟩ := Option.bind_eq_some_iff.mp read
      obtain rfl := Option.some.inj read
      obtain ⟨written, formed, rfl, same⟩ := of_readCommit clean first
      rw [same] at clean
      obtain ⟨more, moreFormed, rfl, rfl⟩ := of_readCommits
        (fun other member => clean other (List.mem_append_right _ member)) later
      exact ⟨written :: more, List.forall_mem_cons.mpr ⟨formed, moreFormed⟩, rfl, same⟩

theorem parseHistory_read {commits : List GitCommit} (formed : ∀ commit ∈ commits, commit.Formed) :
    parseHistory (stream commits) = some (commits.map GitCommit.read) := by
  cases commits with
  | nil => rfl
  | cons commit commits =>
      have some_ : (commit :: commits).flatMap GitCommit.fields ≠ [] := List.cons_ne_nil _ _
      have clean : ∀ field ∈ (commit :: commits).flatMap GitCommit.fields, 0 ∉ field := by
        intro field member
        obtain ⟨one, there, inOne⟩ := List.mem_flatMap.mp member
        exact clean_fields (formed one there) field inOne
      have enough : 6 ≤ ((commit :: commits).flatMap GitCommit.fields).length ∧
          ((commit :: commits).flatMap GitCommit.fields).head? = some [] := by
        rw [List.flatMap_cons, List.length_append]
        exact ⟨Nat.le_add_right_of_le (by simp only [GitCommit.fields, List.length_cons]; omega),
          rfl⟩
      have written : stream (commit :: commits) ≠ [] := by
        intro none
        have last := getLast?_joinNul some_
        rw [← stream_eq, none] at last
        cases last
      unfold parseHistory
      rw [if_neg written, stream_eq, splitNul_joinNul some_ clean, Option.bind_eq_bind,
        Option.bind_some, show guard _ = some () from guard_eq_some.mpr enough]
      exact readCommits_fields formed (Nat.le_refl _)

theorem of_parseHistory {history : List HistoryCommit}
    (read : parseHistory buffer = some history) :
    ∃ commits : List GitCommit, (∀ commit ∈ commits, commit.Formed) ∧
      history = commits.map GitCommit.read ∧ buffer = stream commits := by
  unfold parseHistory at read
  split at read
  case isTrue none =>
    obtain rfl := Option.some.inj read
    exact ⟨[], nofun, rfl, none⟩
  case isFalse =>
    obtain ⟨fields, split, rest⟩ := Option.bind_eq_some_iff.mp read
    obtain ⟨_, _, commitsRead⟩ := Option.bind_eq_some_iff.mp rest
    obtain ⟨rfl, clean⟩ := of_splitNul split
    obtain ⟨commits, formed, rfl, rfl⟩ := of_readCommits clean commitsRead
    exact ⟨commits, formed, rfl, (stream_eq commits).symm⟩

/-! What the inspection reports. -/

theorem orElse_eq_ok {α : Type} {answer : Option α} {reason : InconclusiveReason} {value : α} :
    orElse answer reason = .ok value ↔ answer = some value := by
  cases answer with
  | none => exact iff_of_false nofun nofun
  | some other => exact ⟨fun same => congrArg some (Except.ok.inj same),
      fun same => congrArg Except.ok (Option.some.inj same)⟩

theorem of_run {git : ℕ → List JsString → GitRun} {late : ℕ → Bool} {n max : ℕ}
    {args : List JsString} {stdout : Bytes} (ran : run git late n args max = .ok stdout) :
    git n args = .ok stdout := by
  obtain ⟨result, invoked, ran⟩ := bind_eq_ok.mp ran
  unfold invoke at invoked
  split at invoked
  · cases invoked
  · cases answer : git n args with
    | failed reason code =>
        rw [answer] at invoked
        obtain rfl := Except.ok.inj invoked
        cases ran
    | ok bytes =>
        rw [answer] at invoked
        dsimp only at invoked
        split at invoked
        · obtain rfl := Except.ok.inj invoked
          cases ran
        · obtain rfl := Except.ok.inj invoked
          exact congrArg GitRun.ok (Except.ok.inj ran)

theorem findAdverse_reverted {history : List HistoryCommit} {merge : JsString}
    {merged : List JsString} {mergeTimeMs cutoff : ℤ} :
    (∃ sha, findAdverse history merge merged mergeTimeMs cutoff = some (.reverted sha)) ↔
      ∃ commit ∈ history, commit.reverts merge = true := by
  unfold findAdverse
  cases found : history.find? fun commit => commit.reverts merge with
  | some commit =>
      have reverts := List.find?_some found
      exact iff_of_true ⟨commit.sha, rfl⟩ ⟨commit, List.mem_of_find?_eq_some found, reverts⟩
  | none =>
      refine iff_of_false ?_ ?_
      · rintro ⟨sha, reverted⟩
        dsimp only at reverted
        split at reverted
        · cases reverted
        · obtain ⟨_, _, other⟩ := Option.map_eq_some_iff.mp reverted
          cases other
      · rintro ⟨commit, member, reverts⟩
        exact List.find?_eq_none.mp found commit member reverts

theorem of_inspect {git : ℕ → List JsString → GitRun} {late : ℕ → Bool}
    {isNormal : JsString → Bool} {input : WindowInput} {result : Complete}
    (inspected : inspectPostMergeWindow git late isNormal input = .ok result) :
    ∃ stdout history merged cutoff,
      git 5 (logArgs result.mergeCommit result.observedHead) = .ok stdout ∧
      parseHistory stdout = some history ∧
      result.adverse = findAdverse history result.mergeCommit merged result.mergeTimeMs cutoff := by
  unfold inspectPostMergeWindow at inspected
  split at inspected
  case isTrue => cases inspected
  case isFalse =>
    obtain ⟨_, _, inspected⟩ := bind_eq_ok.mp inspected
    obtain ⟨head, _, inspected⟩ := bind_eq_ok.mp inspected
    iterate 3 obtain ⟨_, _, inspected⟩ := bind_eq_ok.mp inspected
    obtain ⟨metadata, _, inspected⟩ := bind_eq_ok.mp inspected
    dsimp only at inspected
    split at inspected
    · cases inspected
    · split at inspected
      · cases inspected
      · obtain ⟨_, _, inspected⟩ := bind_eq_ok.mp inspected
        obtain ⟨merged, _, inspected⟩ := bind_eq_ok.mp inspected
        obtain ⟨stdout, logged, inspected⟩ := bind_eq_ok.mp inspected
        obtain ⟨history, parsed, inspected⟩ := bind_eq_ok.mp inspected
        obtain ⟨_, _, inspected⟩ := bind_eq_ok.mp inspected
        obtain ⟨after, _, inspected⟩ := bind_eq_ok.mp inspected
        split at inspected
        · cases inspected
        · obtain rfl := Except.ok.inj inspected
          exact ⟨stdout, history, merged, _, of_run logged, orElse_eq_ok.mp parsed, rfl⟩

theorem reverts_iff {commit : HistoryCommit} {merge : JsString} : commit.reverts merge = true ↔
    ∃ line ∈ commit.body.splitOn 0x0A, line ∈ revertNeedles merge := by
  unfold HistoryCommit.reverts
  rw [List.any_eq_true]
  refine exists_congr fun line => and_congr_right fun _ => ?_
  exact List.contains_iff_mem

/-- What `git log -z` writes is read back commit by commit, nothing else is accepted, and a
complete inspection reports a revert exactly where some body has one of the revert lines. -/
theorem history_framing :
    (∀ commits : List GitCommit, (∀ commit ∈ commits, commit.Formed) →
      (∀ commit ∈ commits, commit.Unmarked) →
      parseHistory (stream commits) = some (commits.map GitCommit.parsed)) ∧
    (∀ buffer history, parseHistory buffer = some history →
      ∃ commits : List GitCommit, (∀ commit ∈ commits, commit.Formed) ∧ buffer = stream commits) ∧
    ∀ (git : ℕ → List JsString → GitRun) late isNormal input (result : Complete)
      (commits : List GitCommit),
      inspectPostMergeWindow git late isNormal input = .ok result →
      git 5 (logArgs result.mergeCommit result.observedHead) = .ok (stream commits) →
      (∀ commit ∈ commits, commit.Formed) → (∀ commit ∈ commits, commit.Unmarked) →
      ((∃ sha, result.adverse = some (.reverted sha)) ↔ ∃ commit ∈ commits,
        ∃ line ∈ commit.body.splitOn 0x0A, line ∈ revertNeedles result.mergeCommit) := by
  have exact_ : ∀ commits : List GitCommit, (∀ commit ∈ commits, commit.Formed) →
      (∀ commit ∈ commits, commit.Unmarked) →
      parseHistory (stream commits) = some (commits.map GitCommit.parsed) := by
    intro commits formed unmarked
    rw [parseHistory_read formed]
    exact congrArg some (List.map_congr_left fun commit member =>
      read_of_unmarked (unmarked commit member))
  refine ⟨exact_, ?_, ?_⟩
  · intro buffer history read
    obtain ⟨commits, formed, _, same⟩ := of_parseHistory read
    exact ⟨commits, formed, same⟩
  · intro git late isNormal input result commits inspected logged formed unmarked
    obtain ⟨stdout, history, merged, cutoff, answered, parsed, adverse⟩ := of_inspect inspected
    obtain rfl := GitRun.ok.inj (answered.symm.trans logged)
    obtain rfl := Option.some.inj (parsed.symm.trans (exact_ commits formed unmarked))
    rw [adverse, findAdverse_reverted]
    simp only [List.mem_map, reverts_iff]
    constructor
    · rintro ⟨_, ⟨commit, member, rfl⟩, line⟩
      exact ⟨commit, member, line⟩
    · rintro ⟨commit, member, line⟩
      exact ⟨_, ⟨commit, member, rfl⟩, line⟩

def mergeSha : JsString := List.replicate 40 0x62

def headSha : JsString := List.replicate 40 0x61

def revertCommit : GitCommit :=
  ⟨headSha, 2, js "Undo", js "This reverts commit " ++ mergeSha ++ js ".", [[0x61], [0x0A, 0x62]]⟩

theorem revertCommit_formed : revertCommit.Formed ∧ revertCommit.Unmarked :=
  ⟨⟨by decide, by decide, ⟨by decide, by decide⟩, ⟨by decide, by decide⟩, by decide⟩,
    by decide, by decide⟩

def revertedGit : ℕ → List JsString → GitRun
  | 1, _ => .ok (asciiBytes mergeSha ++ [0x0A])
  | 2, _ => .ok []
  | 3, _ => .ok [0x31, 0, 0x0A]
  | 4, _ => .ok []
  | 5, _ => .ok (stream [revertCommit])
  | _, _ => .ok (asciiBytes headSha ++ [0x0A])

theorem inspect_revertedGit : inspectPostMergeWindow revertedGit (fun _ => false) (fun _ => true)
    ⟨js "/r", mergeSha, 5000, 1000, none⟩ =
      .ok ⟨mergeSha, headSha, 1000, 1000, 2000, true, 1, some (.reverted headSha)⟩ := by
  decide +kernel

theorem history_framing_revert :
    parseHistory (stream [revertCommit]) = some [revertCommit.parsed] ∧
    (∃ commits : List GitCommit, (∀ commit ∈ commits, commit.Formed) ∧
      stream [revertCommit] = stream commits) ∧
    ∃ line ∈ revertCommit.body.splitOn 0x0A, line ∈ revertNeedles mergeSha := by
  have formed := List.forall_mem_singleton.mpr revertCommit_formed.1
  have unmarked := List.forall_mem_singleton.mpr revertCommit_formed.2
  have parsed := history_framing.1 [revertCommit] formed unmarked
  have reverted := (history_framing.2.2 revertedGit _ _ _ _ [revertCommit] inspect_revertedGit rfl
    formed unmarked).mp ⟨headSha, rfl⟩
  refine ⟨parsed, history_framing.2.1 _ _ parsed, ?_⟩
  obtain ⟨commit, member, line⟩ := reverted
  exact List.mem_singleton.mp member ▸ line

/-- A commit of a time that no safe number of milliseconds tells. -/
def farCommit : GitCommit :=
  ⟨List.replicate 40 0x61, 9999999999999, js "subject", js "body", []⟩

theorem far_time_refused : isHexOfLength 40 farCommit.sha = true ∧
    (decimal farCommit.seconds).length = 13 ∧ IsText farCommit.subject ∧ IsText farCommit.body ∧
    parseHistory (stream [farCommit]) = none := by
  refine ⟨by decide, by decide, ⟨by decide, by decide⟩, ⟨by decide, by decide⟩, ?_⟩
  decide

end AshlrHub.PostMergeWindow
