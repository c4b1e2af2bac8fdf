import AshlrHub.Fleet.PostMergeWatch
import Mathlib.Data.List.TakeWhile

namespace AshlrHub.CommitTrailers

open Js Authority PostMerge

/-! The trailers of a squash commit, and the text of others that stands above them. -/

/-- `/[\u0000-\u0008\u000b\u000c\u000e-\u001f\u007f]/` -/
def isControl (unit : CodeUnit) : Bool :=
  unit ≤ 0x08 || unit = 0x0B || unit = 0x0C || (0x0E ≤ unit && unit ≤ 0x1F) || unit = 0x7F

/-- `/[\r\n\t]+/g` replaced by one space. -/
def joinLines (inBreak : Bool) : JsString → JsString
  | [] => []
  | unit :: rest =>
      if unit = 0x0D ∨ unit = 0x0A ∨ unit = 0x09 then
        if inBreak then joinLines true rest else 0x20 :: joinLines true rest
      else unit :: joinLines false rest

def isMentionUnit (unit : CodeUnit) : Bool :=
  isUpper unit || isLower unit || isDigit unit || unit = 0x2D

/-- `/@(?=[A-Za-z0-9-])/g` replaced by `@` and a zero-width space. -/
def defuse : JsString → JsString
  | [] => []
  | unit :: rest =>
      if unit = 0x40 ∧ rest.head?.any isMentionUnit then unit :: 0x200B :: defuse rest
      else unit :: defuse rest

section

variable (scrub : JsString → JsString)

/-- `scrub` is `scrubSecrets`, which blanks out what looks like a credential. -/
def untrustedText (text : JsString) (maxChars : ℕ) (singleLine : Bool) : JsString :=
  let plain := (scrub text).map fun unit => if isControl unit then 0x20 else unit
  let out := defuse (if singleLine then trim (joinLines false plain) else plain)
  if out.length ≤ maxChars then out else out.take (maxChars - 1) ++ [0x2026]

structure FleetTrailers where
  grantId : JsString
  gatesDigest : JsString
  ledgerHead : JsString
  proposalId : Option JsString
  stageId : JsString
  revertsLandingId : Option JsString

def optionalTrailer (name : JsString) : Option JsString → List (JsString × JsString)
  | none => []
  | some value => if value = [] then [] else [(name, value)]

def FleetTrailers.given (trailers : FleetTrailers) : List (JsString × JsString) :=
  [(js "Ashlr-Grant", trailers.grantId), (js "Ashlr-Gates", trailers.gatesDigest),
    (js "Ashlr-Ledger-Head", trailers.ledgerHead), (js "Ashlr-Stage", trailers.stageId)] ++
  optionalTrailer (js "Ashlr-Proposal") trailers.proposalId ++
  optionalTrailer (js "Ashlr-Reverts") trailers.revertsLandingId

def trailerLine (trailer : JsString × JsString) : JsString :=
  trailer.1 ++ 0x3A :: 0x20 :: trailer.2

/-- `[A-Za-z-]` -/
def isTrailerUnit (unit : CodeUnit) : Bool :=
  isUpper unit || isLower unit || unit = 0x2D

/-- What stands behind a match of `/^\s*Ashlr-[A-Za-z-]+\s*:.*$/i` at the start of a line. -/
def trailerLike (text : JsString) : Option JsString :=
  let word := text.dropWhile isJsSpace
  if (word.take 6).map lowerAscii = js "ashlr-" ∧ (word.drop 6).takeWhile isTrailerUnit ≠ [] then
    (afterPrefix [0x3A] (((word.drop 6).dropWhile isTrailerUnit).dropWhile isJsSpace)).map
      fun after => after.dropWhile fun unit => isLineEnd unit = false
  else none

/-- The matches cut out: `replace(…, '')`, and whether the text stands at the start of a line. -/
def cutTrailers : ℕ → Bool → JsString → JsString
  | 0, _, text => text
  | fuel + 1, lineStart, text =>
      match if lineStart then trailerLike text else none with
      | some rest => cutTrailers fuel false rest
      | none =>
          match text with
          | [] => []
          | unit :: rest => unit :: cutTrailers fuel (isLineEnd unit) rest

def cleanBody (body : JsString) : JsString :=
  let text := untrustedText scrub body 4000 false
  trim (cutTrailers text.length true text)

def fleetMergeCommitMessage (body : JsString) (trailers : FleetTrailers) : JsString :=
  (if 0 < (cleanBody scrub body).length then cleanBody scrub body ++ [0x0A, 0x0A] else []) ++
    (List.intercalate [0x0A] (trailers.given.map trailerLine) ++ [0x0A])

/-- `/[ \t]*(\S+)[ \t]*$/`, from its start on one line: what the group holds. -/
def trailerValue (rest : JsString) : Option JsString :=
  let value := rest.dropWhile isBlank
  let token := value.takeWhile fun unit => isJsSpace unit = false
  if token ≠ [] ∧ (value.dropWhile fun unit => isJsSpace unit = false).all isBlank then some token
  else none

/-- `/^(Ashlr-[A-Za-z-]+):[ \t]*(\S+)[ \t]*$/`, on one line: what the groups hold. -/
def fleetTrailer (line : JsString) : Option (JsString × JsString) := do
  let rest ← afterPrefix (js "Ashlr-") line
  let after ← afterPrefix [0x3A] (rest.dropWhile isTrailerUnit)
  let value ← trailerValue after
  if rest.takeWhile isTrailerUnit = [] then none
  else some (js "Ashlr-" ++ rest.takeWhile isTrailerUnit, value)

def trailerPairs (message : JsString) : List (JsString × JsString) :=
  (message.splitOnP isLineEnd).filterMap fleetTrailer

def parseFleetTrailers (message : JsString) : JsMap JsString (List JsString) :=
  (trailerPairs message).foldl (fun out trailer =>
    out.set trailer.1 ((out.get? trailer.1).getD [] ++ [trailer.2])) []

/-- The title that `landPr` gives, as `mergeFleetPrPinned` sends it. -/
def commitTitle (title : JsString) (number : ℕ) : JsString :=
  untrustedText scrub (js "ashlr fleet: " ++ untrustedText scrub title 200 true ++ js " (#" ++
    decimal number ++ js ")") 250 true

/-- The body that `landPr` gives. -/
def landedBody (summary headSha : JsString) : JsString :=
  untrustedText scrub summary 1500 false ++ 0x0A :: 0x0A ::
    (js "Merged by the ashlr-fleet App under a standing grant: every gate G0–G7 passed on " ++
      headSha ++ js ".")

end

def squashMessage (title message : JsString) : JsString :=
  title ++ 0x0A :: 0x0A :: message

/-! Lines. -/

variable {rest : JsString}

theorem afterPrefix_iff {front text : JsString} :
    afterPrefix front text = some rest ↔ text = front ++ rest := by
  induction front generalizing text with
  | nil =>
      rw [afterPrefix, Option.some_inj]
      rfl
  | cons expected front ih =>
      cases text with
      | nil => simp [afterPrefix]
      | cons unit text =>
          rw [afterPrefix, List.cons_append, List.cons.injEq]
          by_cases same : expected = unit
          · rw [if_pos same, ih, and_iff_right same.symm]
          · rw [if_neg same]
            exact iff_of_false (Option.some_ne_none rest).symm fun both => same both.1.symm

variable {unit : CodeUnit}

theorem isJsSpace_of_isLineEnd (ends : isLineEnd unit = true) :
    isJsSpace unit = true := by
  unfold isLineEnd at ends
  simp only [Bool.or_eq_true, decide_eq_true_eq] at ends
  obtain ((rfl | rfl) | rfl) | rfl := ends <;> rfl

theorem lines_cons (text : JsString) : ∃ head tail, text.splitOnP isLineEnd = head :: tail :=
  List.exists_cons_of_ne_nil (List.splitOnP_ne_nil isLineEnd text)

theorem first_line : {text head : JsString} → {tail : List JsString} →
    text.splitOnP isLineEnd = head :: tail → ∃ more, text = head ++ more
  | [], head, tail, split => by
      rw [List.splitOnP_nil] at split
      obtain ⟨rfl, _⟩ := List.cons.inj split
      exact ⟨[], rfl⟩
  | unit :: text, head, tail, split => by
      rw [List.splitOnP_cons_eq_if_modifyHead] at split
      by_cases ends : isLineEnd unit = true
      · rw [if_pos ends] at split
        obtain ⟨rfl, _⟩ := List.cons.inj split
        exact ⟨unit :: text, rfl⟩
      · obtain ⟨first, rest, inner⟩ := lines_cons text
        rw [if_neg ends, inner, List.modifyHead_cons] at split
        obtain ⟨rfl, _⟩ := List.cons.inj split
        obtain ⟨more, rfl⟩ := first_line inner
        exact ⟨more, rfl⟩

variable {line : JsString}

theorem line_behind : {lead text : JsString} → lead.all isJsSpace = true →
    line ∈ text.splitOnP isLineEnd →
    ∃ space, space.all isJsSpace = true ∧ space ++ line ∈ (lead ++ text).splitOnP isLineEnd
  | [], text, _, member => ⟨[], rfl, member⟩
  | unit :: lead, text, spaces, member => by
      rw [List.all_cons, Bool.and_eq_true] at spaces
      obtain ⟨space, allSpace, there⟩ := line_behind spaces.2 member
      rw [List.cons_append, List.splitOnP_cons_eq_if_modifyHead]
      split
      · exact ⟨space, allSpace, List.mem_cons_of_mem _ there⟩
      · obtain ⟨first, rest, inner⟩ := lines_cons (lead ++ text)
        rw [inner] at there ⊢
        rw [List.modifyHead_cons]
        rcases List.mem_cons.mp there with same | later
        · refine ⟨unit :: space, ?_, ?_⟩
          · rw [List.all_cons, spaces.1, allSpace]
            rfl
          · rw [← same]
            exact List.mem_cons_self
        · exact ⟨space, allSpace, List.mem_cons_of_mem _ later⟩

theorem line_before (trail : JsString) : {text head : JsString} → {tail : List JsString} →
    text.splitOnP isLineEnd = head :: tail →
    ∃ more rest, (text ++ trail).splitOnP isLineEnd = (head ++ more) :: rest ∧
      ∀ line ∈ tail, ∃ more, line ++ more ∈ rest
  | [], head, tail, split => by
      rw [List.splitOnP_nil] at split
      obtain ⟨rfl, rfl⟩ := List.cons.inj split
      obtain ⟨first, rest, inner⟩ := lines_cons trail
      exact ⟨first, rest, inner, nofun⟩
  | unit :: text, head, tail, split => by
      obtain ⟨first, others, inner⟩ := lines_cons text
      obtain ⟨more, rest, outer, longer⟩ := line_before trail inner
      rw [List.splitOnP_cons_eq_if_modifyHead, inner] at split
      rw [List.cons_append, List.splitOnP_cons_eq_if_modifyHead, outer]
      by_cases ends : isLineEnd unit = true
      · rw [if_pos ends] at split ⊢
        obtain ⟨rfl, rfl⟩ := List.cons.inj split
        refine ⟨[], _, rfl, fun line member => ?_⟩
        rcases List.mem_cons.mp member with rfl | member
        · exact ⟨more, List.mem_cons_self⟩
        · exact (longer line member).imp fun _ there => List.mem_cons_of_mem _ there
      · rw [if_neg ends, List.modifyHead_cons] at split ⊢
        obtain ⟨rfl, rfl⟩ := List.cons.inj split
        exact ⟨more, rest, rfl, longer⟩

theorem takeWhile_space (text : JsString) : (text.takeWhile isJsSpace).all isJsSpace = true :=
  List.all_takeWhile

variable {text : JsString}

theorem line_of_trim (member : line ∈ (trim text).splitOnP isLineEnd) :
    ∃ space more, space.all isJsSpace = true ∧ space ++ line ++ more ∈ text.splitOnP isLineEnd := by
  obtain ⟨space, allSpace, there⟩ := line_behind (takeWhile_space text) member
  obtain ⟨head, tail, split⟩ :=
    lines_cons (text.takeWhile isJsSpace ++ trim text)
  obtain ⟨more, rest, outer, longer⟩ := line_before
    ((text.dropWhile isJsSpace).reverse.takeWhile isJsSpace).reverse split
  have whole : text.takeWhile isJsSpace ++ trim text ++
      ((text.dropWhile isJsSpace).reverse.takeWhile isJsSpace).reverse = text := by
    rw [List.append_assoc, trim, ← List.reverse_append, List.takeWhile_append_dropWhile,
      List.reverse_reverse, List.takeWhile_append_dropWhile]
  rw [whole] at outer
  rw [split] at there
  rcases List.mem_cons.mp there with rfl | later
  · exact ⟨space, more, allSpace, outer ▸ List.mem_cons_self⟩
  · obtain ⟨more, last⟩ := longer _ later
    exact ⟨space, more, allSpace, outer ▸ List.mem_cons_of_mem _ last⟩

/-! What the filter leaves. -/

def Like (text : JsString) : Prop :=
  ∃ lead word name gap after, text = lead ++ (word ++ (name ++ (gap ++ 0x3A :: after))) ∧
    lead.all isJsSpace = true ∧ word.map lowerAscii = js "ashlr-" ∧ name ≠ [] ∧
    name.all isTrailerUnit = true ∧ gap.all isJsSpace = true

theorem Like.around {space : JsString} (like : Like text) (more : JsString)
    (allSpace : space.all isJsSpace = true) : Like (space ++ text ++ more) := by
  obtain ⟨lead, word, name, gap, after, rfl, leadSpace, rest⟩ := like
  refine ⟨space ++ lead, word, name, gap, after ++ more, ?_, ?_, rest⟩
  · simp only [List.append_assoc, List.cons_append]
  · rw [List.all_append, allSpace, leadSpace]
    rfl

theorem dropWhile_all {pred : CodeUnit → Bool} {front : JsString} (all : front.all pred = true)
    (stop : pred unit = false) (rest : JsString) :
    (front ++ unit :: rest).dropWhile pred = unit :: rest := by
  rw [List.dropWhile_append_of_pos fun other member => List.all_eq_true.mp all other member,
    List.dropWhile_cons_of_neg (Bool.eq_false_iff.mp stop)]

theorem takeWhile_all {pred : CodeUnit → Bool} {front : JsString} (all : front.all pred = true)
    (stop : pred unit = false) (rest : JsString) :
    (front ++ unit :: rest).takeWhile pred = front := by
  rw [List.takeWhile_append_of_pos fun other member => List.all_eq_true.mp all other member,
    List.takeWhile_cons_of_neg (Bool.eq_false_iff.mp stop), List.append_nil]

theorem not_trailerUnit_of_space (space : isJsSpace unit = true) :
    isTrailerUnit unit = false := by
  unfold isJsSpace at space
  unfold isTrailerUnit isUpper isLower
  simp only [Bool.or_eq_true, Bool.and_eq_true, decide_eq_true_eq, UInt16.le_iff_toNat_le,
    ← UInt16.toNat_inj, Bool.or_eq_false_iff, Bool.and_eq_false_iff, decide_eq_false_iff_not,
    UInt16.reduceToNat] at space ⊢
  omega

variable {word : JsString}

theorem word_units (spelled : word.map lowerAscii = js "ashlr-") :
    word.length = 6 ∧ ∃ unit rest, word = unit :: rest ∧ isJsSpace unit = false := by
  have six : word.length = 6 := by
    rw [← List.length_map lowerAscii, spelled]
    rfl
  cases word with
  | nil => cases six
  | cons unit rest =>
      refine ⟨six, unit, rest, rfl, Bool.eq_false_iff.mpr fun space => ?_⟩
      have lower : lowerAscii unit = 0x61 := (List.cons.inj spelled).1
      unfold lowerAscii at lower
      split at lower
      case isTrue upper =>
        have trailer := not_trailerUnit_of_space space
        unfold isTrailerUnit at trailer
        rw [upper] at trailer
        cases trailer
      case isFalse =>
        rw [lower] at space
        cases space

theorem like_found (like : Like text) : trailerLike text ≠ none := by
  obtain ⟨lead, word, name, gap, after, rfl, leadSpace, spelled, some_, named, gapSpace⟩ := like
  obtain ⟨six, unit, rest, rfl, solid⟩ := word_units spelled
  have colon : ∃ unit back, gap ++ 0x3A :: after = unit :: back ∧ isTrailerUnit unit = false := by
    cases gap with
    | nil => exact ⟨0x3A, after, rfl, rfl⟩
    | cons first gap =>
        exact ⟨first, _, rfl, not_trailerUnit_of_space (List.all_eq_true.mp gapSpace first
          List.mem_cons_self)⟩
  obtain ⟨stop, back, same, stops⟩ := colon
  unfold trailerLike
  rw [show lead ++ (unit :: rest ++ (name ++ (gap ++ 0x3A :: after))) =
    lead ++ unit :: (rest ++ (name ++ (gap ++ 0x3A :: after))) from rfl,
    dropWhile_all leadSpace solid, ← List.cons_append, ← six]
  dsimp only
  rw [List.take_left, List.drop_left]
  rw [same, takeWhile_all named stops, dropWhile_all named stops, ← same,
    dropWhile_all gapSpace (show isJsSpace 0x3A = false from rfl), if_pos ⟨spelled, some_⟩]
  exact nofun

theorem length_dropWhile_le (pred : CodeUnit → Bool) (text : JsString) :
    (text.dropWhile pred).length ≤ text.length :=
  (List.dropWhile_suffix pred).length_le

theorem trailerLike_rest (found : trailerLike text = some rest) :
    rest.length < text.length ∧
      (rest = [] ∨ ∃ unit back, rest = unit :: back ∧ isLineEnd unit = true) := by
  unfold trailerLike at found
  dsimp only at found
  split at found
  case isFalse => cases found
  case isTrue named =>
    obtain ⟨after, colon, rfl⟩ := Option.map_eq_some_iff.mp found
    rw [afterPrefix_iff] at colon
    constructor
    · have dropped := length_dropWhile_le isJsSpace text
      have gap := length_dropWhile_le isJsSpace
        (((text.dropWhile isJsSpace).drop 6).dropWhile isTrailerUnit)
      have name := length_dropWhile_le isTrailerUnit ((text.dropWhile isJsSpace).drop 6)
      have line := length_dropWhile_le (fun unit => isLineEnd unit = false) after
      rw [colon, List.length_append, List.length_singleton] at gap
      rw [List.length_drop] at name
      omega
    · cases left : after.dropWhile fun unit => isLineEnd unit = false with
      | nil => exact .inl rfl
      | cons unit back =>
          have stop := List.head?_dropWhile_not (fun unit => decide (isLineEnd unit = false)) after
          rw [left] at stop
          refine .inr ⟨unit, back, rfl, ?_⟩
          simpa using stop

theorem like_nil : ¬ Like [] := by
  rintro ⟨lead, word, name, gap, after, same, _⟩
  have lengths := congrArg List.length same
  simp only [List.length_nil, List.length_append, List.length_cons] at lengths
  omega

theorem cutTrailers_start (fuel : ℕ) (text : JsString) :
    cutTrailers (fuel + 1) true text = match trailerLike text with
      | some rest => cutTrailers fuel false rest
      | none => cutTrailers (fuel + 1) false text := rfl

theorem cut_safe : (fuel : ℕ) → (text : JsString) → text.length ≤ fuel →
    (∀ line ∈ (cutTrailers fuel true text).splitOnP isLineEnd, ¬ Like line) ∧
    ∃ head tail rest, (cutTrailers fuel false text).splitOnP isLineEnd = head :: tail ∧
      text.splitOnP isLineEnd = head :: rest ∧ ∀ line ∈ tail, ¬ Like line
  | 0, text, bound => by
      rw [List.length_eq_zero_iff.mp (Nat.le_zero.mp bound)]
      refine ⟨fun line member => ?_, [], [], [], rfl, rfl, nofun⟩
      rw [List.mem_singleton.mp member]
      exact like_nil
  | fuel + 1, text, bound => by
      have copied : ∃ head tail rest, (cutTrailers (fuel + 1) false text).splitOnP isLineEnd =
          head :: tail ∧ text.splitOnP isLineEnd = head :: rest ∧ ∀ line ∈ tail, ¬ Like line := by
        cases text with
        | nil => exact ⟨[], [], [], rfl, rfl, nofun⟩
        | cons unit text =>
            obtain ⟨safe, head, tail, rest, cut, split, after⟩ :=
              cut_safe fuel text (Nat.le_of_succ_le_succ bound)
            rw [cutTrailers]
            rw [if_neg Bool.false_ne_true, List.splitOnP_cons_eq_if_modifyHead,
              List.splitOnP_cons_eq_if_modifyHead]
            by_cases ends : isLineEnd unit = true
            · rw [if_pos ends, if_pos ends, ends]
              exact ⟨[], _, _, rfl, rfl, safe⟩
            · rw [if_neg ends, if_neg ends, Bool.eq_false_iff.mpr ends, cut, split]
              exact ⟨unit :: head, tail, rest, rfl, rfl, after⟩
      refine ⟨?_, copied⟩
      cases found : trailerLike text with
      | some rest =>
          obtain ⟨shorter, ends⟩ := trailerLike_rest found
          obtain ⟨_, head, tail, others, cut, split, after⟩ :=
            cut_safe fuel rest (Nat.le_of_lt_succ (shorter.trans_le bound))
          rw [cutTrailers_start, found]
          dsimp only
          rw [cut]
          have empty : head = [] := by
            rcases ends with rfl | ⟨unit, back, rfl, ends⟩
            · exact (List.cons.inj split).1.symm
            · rw [List.splitOnP_cons_eq_if_modifyHead, if_pos ends] at split
              exact (List.cons.inj split).1.symm
          intro line member
          rcases List.mem_cons.mp member with rfl | member
          · rw [empty]
            exact like_nil
          · exact after line member
      | none =>
          obtain ⟨head, tail, rest, cut, split, after⟩ := copied
          rw [cutTrailers_start, found]
          dsimp only
          rw [cut]
          intro line member
          rcases List.mem_cons.mp member with rfl | member
          · intro like
            obtain ⟨more, whole⟩ := first_line split
            have around : Like ([] ++ line ++ more) := like.around more rfl
            exact like_found (whole ▸ around) found
          · exact after line member

/-! What the parser finds. -/

variable {value : JsString}

theorem trailerValue_good (found : trailerValue rest = some value) :
    value ≠ [] ∧ value.all (fun unit => isJsSpace unit = false) = true := by
  unfold trailerValue at found
  dsimp only at found
  split at found
  case isTrue good =>
    obtain rfl := Option.some.inj found
    exact ⟨good.1, List.all_takeWhile⟩
  case isFalse => cases found

theorem fleetTrailer_some {name : JsString} (found : fleetTrailer line = some (name, value)) :
    ∃ word after, line = js "Ashlr-" ++ (word ++ 0x3A :: after) ∧ name = js "Ashlr-" ++ word ∧
      word ≠ [] ∧ word.all isTrailerUnit = true ∧ trailerValue after = some value := by
  unfold fleetTrailer at found
  obtain ⟨rest, front, found⟩ := Option.bind_eq_some_iff.mp found
  obtain ⟨after, colon, found⟩ := Option.bind_eq_some_iff.mp found
  obtain ⟨token, valued, found⟩ := Option.bind_eq_some_iff.mp found
  rw [afterPrefix_iff] at front colon
  split at found
  case isTrue => cases found
  case isFalse named =>
    obtain ⟨rfl, rfl⟩ := Prod.mk.inj (Option.some.inj found)
    refine ⟨_, after, ?_, rfl, named, List.all_takeWhile, valued⟩
    rw [front, ← List.singleton_append, ← colon, List.takeWhile_append_dropWhile]

theorem fleetTrailer_of {after : JsString} (some_ : word ≠ [])
    (named : word.all isTrailerUnit = true) (valued : trailerValue after = some value) :
    fleetTrailer (js "Ashlr-" ++ (word ++ 0x3A :: after)) = some (js "Ashlr-" ++ word, value) := by
  have stops : isTrailerUnit 0x3A = false := rfl
  unfold fleetTrailer
  rw [afterPrefix_iff.mpr rfl]
  show (afterPrefix [0x3A] ((word ++ 0x3A :: after).dropWhile isTrailerUnit)).bind _ = _
  rw [dropWhile_all named stops, takeWhile_all named stops,
    afterPrefix_iff.mpr (show 0x3A :: after = [0x3A] ++ after from rfl)]
  show (trailerValue after).bind _ = _
  rw [valued]
  exact if_neg some_

variable {trailer : JsString × JsString}

theorem like_of_trailer (found : fleetTrailer line = some trailer) : Like line := by
  obtain ⟨word, after, rfl, _, some_, named, _⟩ := fleetTrailer_some found
  exact ⟨[], js "Ashlr-", word, [], after, rfl, rfl, rfl, some_, named, rfl⟩

theorem grantTrailer_eq (line : JsString) :
    grantTrailer line = (fleetTrailer line).bind fun trailer =>
      if trailer.1 = js "Ashlr-Grant" then some trailer.2 else none := by
  have grant : grantTrailer line = (afterPrefix (js "Ashlr-Grant:") line).bind trailerValue := rfl
  rw [grant]
  cases front : afterPrefix (js "Ashlr-Grant:") line with
  | some after =>
      rw [afterPrefix_iff.mp front]
      show trailerValue after = (fleetTrailer (js "Ashlr-" ++ (js "Grant" ++ 0x3A :: after))).bind _
      cases valued : trailerValue after with
      | some value =>
          rw [fleetTrailer_of (by decide) (by decide) valued, Option.bind_some]
          exact (if_pos rfl).symm
      | none =>
          cases found : fleetTrailer (js "Ashlr-" ++ (js "Grant" ++ 0x3A :: after)) with
          | none => rfl
          | some trailer =>
              obtain ⟨word, rest, same, _, _, named, other⟩ := fleetTrailer_some found
              have stops : isTrailerUnit 0x3A = false := rfl
              have words := congrArg (List.dropWhile isTrailerUnit) (List.append_cancel_left same)
              rw [dropWhile_all (by decide) stops, dropWhile_all named stops] at words
              rw [← (List.cons.inj words).2, valued] at other
              cases other
  | none =>
      cases found : fleetTrailer line with
      | none => rfl
      | some trailer =>
          obtain ⟨word, rest, same, named, _, _, _⟩ := fleetTrailer_some found
          rw [Option.bind_none, Option.bind_some, if_neg]
          intro isGrant
          rw [named] at isGrant
          have whole : line = js "Ashlr-Grant:" ++ rest := by
            rw [same, ← List.append_assoc, isGrant]
            rfl
          rw [afterPrefix_iff.mpr whole] at front
          cases front

/-- What `grantTrailers` finds is what the parser finds under the name. -/
theorem grantTrailers_eq (message : JsString) :
    grantTrailers message = (trailerPairs message).filterMap fun trailer =>
      if trailer.1 = js "Ashlr-Grant" then some trailer.2 else none := by
  unfold grantTrailers trailerPairs
  rw [List.filterMap_filterMap]
  exact List.filterMap_congr fun line _ => grantTrailer_eq line

def Good (value : JsString) : Prop :=
  value ≠ [] ∧ value.all (fun unit => isJsSpace unit = false) = true

theorem trailerLine_found (some_ : word ≠ []) (named : word.all isTrailerUnit = true)
    (good : Good value) :
    fleetTrailer (trailerLine (js "Ashlr-" ++ word, value)) =
      some (js "Ashlr-" ++ word, value) := by
  have solid : ∀ unit ∈ value, isJsSpace unit = false :=
    fun unit member => of_decide_eq_true (List.all_eq_true.mp good.2 unit member)
  unfold trailerLine
  rw [List.append_assoc]
  refine fleetTrailer_of some_ named ?_
  have blank : (0x20 :: value).dropWhile isBlank = value := by
    rw [List.dropWhile_cons_of_pos rfl]
    cases value with
    | nil => rfl
    | cons unit rest =>
        refine List.dropWhile_cons_of_neg fun isBlank => ?_
        have space := solid unit List.mem_cons_self
        unfold PostMerge.isBlank at isBlank
        simp only [Bool.or_eq_true, decide_eq_true_eq] at isBlank
        obtain rfl | rfl := isBlank
        · cases space
        · cases space
  have dropped : value.dropWhile (fun unit => isJsSpace unit = false) = [] :=
    List.dropWhile_eq_nil_iff.mpr fun unit member => decide_eq_true (solid unit member)
  have taken : value.takeWhile (fun unit => isJsSpace unit = false) ++
      value.dropWhile (fun unit => isJsSpace unit = false) = value :=
    List.takeWhile_append_dropWhile
  rw [dropped, List.append_nil] at taken
  unfold trailerValue
  rw [show ((0x20 :: (js "Ashlr-" ++ word, value).2 : JsString).dropWhile isBlank) = value
    from blank]
  dsimp only
  rw [taken, dropped, if_pos ⟨good.1, rfl⟩]

/-! The message as a whole. -/

theorem trailerPairs_append (front back : JsString) :
    trailerPairs (front ++ 0x0A :: back) = trailerPairs front ++ trailerPairs back := by
  unfold trailerPairs
  rw [List.splitOnP_append_cons front back (show isLineEnd 0x0A = true from rfl),
    List.filterMap_append]

theorem trailerPairs_clean (scrub : JsString → JsString) (body : JsString) :
    trailerPairs (cleanBody scrub body) = [] := by
  refine List.filterMap_eq_nil_iff.mpr fun line member => ?_
  obtain ⟨space, more, allSpace, there⟩ := line_of_trim member
  cases found : fleetTrailer line with
  | none => rfl
  | some trailer =>
      have safe := (cut_safe _ (untrustedText scrub body 4000 false) (Nat.le_refl _)).1
      exact absurd ((like_of_trailer found).around more allSpace) (safe _ there)

theorem trailerPairs_intercalate : (lines : List JsString) →
    trailerPairs (List.intercalate [0x0A] lines ++ [0x0A]) = lines.flatMap trailerPairs
  | [] => rfl
  | [line] => by
      rw [List.intercalate_singleton, trailerPairs_append, List.flatMap_singleton]
      exact List.append_nil _
  | line :: next :: lines => by
      rw [List.intercalate_cons_cons, List.append_assoc, List.append_assoc, List.singleton_append,
        trailerPairs_append, trailerPairs_intercalate (next :: lines), ← List.flatMap_cons]

theorem trailerPairs_squash (scrub : JsString → JsString) (title body : JsString)
    (trailers : FleetTrailers) :
    trailerPairs (squashMessage title (fleetMergeCommitMessage scrub body trailers)) =
      trailerPairs title ++ trailers.given.flatMap fun trailer =>
        trailerPairs (trailerLine trailer) := by
  have empty : trailerPairs [] = [] := rfl
  unfold squashMessage fleetMergeCommitMessage
  rw [trailerPairs_append, ← List.nil_append (0x0A :: _), trailerPairs_append, empty,
    List.nil_append]
  refine congrArg (trailerPairs title ++ ·) ?_
  split
  · rw [show ∀ rest : JsString, cleanBody scrub body ++ [0x0A, 0x0A] ++ rest =
        cleanBody scrub body ++ 0x0A :: ([] ++ 0x0A :: rest) from fun rest => List.append_assoc ..,
      trailerPairs_append, trailerPairs_append, trailerPairs_clean, empty,
      trailerPairs_intercalate, List.flatMap_map]
    rfl
  · rw [List.nil_append, trailerPairs_intercalate, List.flatMap_map]

theorem get?_group (name : JsString) : (pairs : List (JsString × JsString)) →
    (out : JsMap JsString (List JsString)) →
    ((pairs.foldl (fun out trailer =>
      out.set trailer.1 ((out.get? trailer.1).getD [] ++ [trailer.2])) out).get? name).getD [] =
      (out.get? name).getD [] ++ (pairs.filter fun trailer => trailer.1 = name).map Prod.snd
  | [], _ => (List.append_nil _).symm
  | trailer :: pairs, out => by
      rw [List.foldl_cons, get?_group name pairs, JsMap.get?_set]
      by_cases same : trailer.1 = name
      · rw [if_pos same.symm, List.filter_cons, if_pos (decide_eq_true same), same,
          Option.getD_some, List.map_cons, List.append_assoc]
        rfl
      · rw [if_neg (Ne.symm same), List.filter_cons, if_neg fun is => same (of_decide_eq_true is)]

/-- What the parser answers under a name; `[]` where the record has no such member. -/
def valuesOf (message name : JsString) : List JsString :=
  ((parseFleetTrailers message).get? name).getD []

theorem valuesOf_eq (message name : JsString) : valuesOf message name =
    ((trailerPairs message).filter fun trailer => trailer.1 = name).map Prod.snd :=
  (get?_group name (trailerPairs message) []).trans (List.nil_append _)

theorem given_name {trailers : FleetTrailers} (member : trailer ∈ trailers.given) :
    ∃ word, trailer.1 = js "Ashlr-" ++ word ∧ word ≠ [] ∧ word.all isTrailerUnit = true := by
  have optional : ∀ (name : JsString) value, trailer ∈ optionalTrailer name value →
      trailer.1 = name := by
    intro name value there
    cases value with
    | none => cases there
    | some value =>
        unfold optionalTrailer at there
        dsimp only at there
        split at there
        · cases there
        · exact congrArg Prod.fst (List.mem_singleton.mp there)
  rcases List.mem_append.mp member with member | member
  · rcases List.mem_append.mp member with member | member
    · simp only [List.mem_cons, List.not_mem_nil, or_false] at member
      rcases member with rfl | rfl | rfl | rfl
      · exact ⟨js "Grant", rfl, by decide, by decide⟩
      · exact ⟨js "Gates", rfl, by decide, by decide⟩
      · exact ⟨js "Ledger-Head", rfl, by decide, by decide⟩
      · exact ⟨js "Stage", rfl, by decide, by decide⟩
    · exact ⟨js "Proposal", optional _ _ member, by decide, by decide⟩
  · exact ⟨js "Reverts", optional _ _ member, by decide, by decide⟩

theorem trailerLine_pairs {trailers : FleetTrailers} (member : trailer ∈ trailers.given)
    (good : Good trailer.2) :
    trailerPairs (trailerLine trailer) = [trailer] := by
  obtain ⟨name, value⟩ := trailer
  obtain ⟨word, rfl, some_, named⟩ := given_name member
  have found := trailerLine_found some_ named good
  have one : (trailerLine (js "Ashlr-" ++ word, value)).splitOnP isLineEnd =
      [trailerLine (js "Ashlr-" ++ word, value)] := by
    refine List.splitOnP_eq_singleton fun unit there => Bool.eq_false_iff.mpr fun ends => ?_
    have space := isJsSpace_of_isLineEnd ends
    have inWord : ∀ text : JsString, text.all isTrailerUnit = true → unit ∉ text := by
      intro text all member
      have trailer := List.all_eq_true.mp all unit member
      rw [not_trailerUnit_of_space space] at trailer
      cases trailer
    rcases List.mem_append.mp there with there | there
    · rcases List.mem_append.mp there with there | there
      · exact inWord (js "Ashlr-") (by decide) there
      · exact inWord word named there
    · rcases List.mem_cons.mp there with rfl | there
      · cases ends
      · rcases List.mem_cons.mp there with rfl | there
        · cases ends
        · have solid := of_decide_eq_true (List.all_eq_true.mp good.2 unit there)
          rw [space] at solid
          cases solid
  unfold trailerPairs
  rw [one, List.filterMap_cons, found]
  rfl

theorem given_grant (trailers : FleetTrailers) : (trailers.given.filterMap fun trailer =>
    if trailer.1 = js "Ashlr-Grant" then some trailer.2 else none) = [trailers.grantId] := by
  have optional : ∀ (name : JsString) value, name ≠ js "Ashlr-Grant" →
      ((optionalTrailer name value).filterMap fun trailer : JsString × JsString =>
        if trailer.1 = js "Ashlr-Grant" then some trailer.2 else none) = [] := by
    intro name value other
    cases value with
    | none => rfl
    | some value =>
        unfold optionalTrailer
        dsimp only
        split
        · rfl
        · rw [List.filterMap_cons, if_neg other]
          rfl
  unfold FleetTrailers.given
  rw [List.filterMap_append, List.filterMap_append, optional _ _ (by decide),
    optional _ _ (by decide), List.append_nil, List.append_nil]
  rfl

/-! The title is one line but for U+2028 and U+2029. -/

def isSeparator (unit : CodeUnit) : Bool :=
  unit = 0x2028 || unit = 0x2029

theorem mem_joinLines {inBreak : Bool} (member : unit ∈ joinLines inBreak text) :
    isLineEnd unit = isSeparator unit := by
  induction text generalizing inBreak with
  | nil => cases member
  | cons first rest ih =>
      unfold joinLines at member
      split_ifs at member with breaks
      · exact ih member
      · rcases List.mem_cons.mp member with rfl | later
        · rfl
        · exact ih later
      · rcases List.mem_cons.mp member with rfl | later
        · simp_all [isLineEnd, isSeparator]
        · exact ih later

theorem mem_defuse (member : unit ∈ defuse text) : unit ∈ text ∨ unit = 0x200B := by
  induction text with
  | nil => cases member
  | cons first rest ih =>
      unfold defuse at member
      split_ifs at member <;> grind

theorem mem_untrustedText {scrub : JsString → JsString} {maxChars : ℕ}
    (member : unit ∈ untrustedText scrub text maxChars true) :
    isLineEnd unit = isSeparator unit := by
  unfold untrustedText at member
  dsimp only at member
  rw [if_pos rfl] at member
  generalize (scrub text).map _ = plain at member
  have line : unit ∈ defuse (trim (joinLines false plain)) →
      isLineEnd unit = isSeparator unit := by
    intro inside
    rcases mem_defuse inside with inside | rfl
    · have front := (List.dropWhile_sublist _).subset (List.mem_reverse.mp inside)
      exact mem_joinLines ((List.dropWhile_sublist _).subset (List.mem_reverse.mp front))
    · rfl
  split_ifs at member
  · exact line member
  · rcases List.mem_append.mp member with front | last
    · exact line (List.mem_of_mem_take front)
    · rw [List.mem_singleton.mp last]
      rfl

theorem title_lines (scrub : JsString → JsString) (title : JsString) (number : ℕ) :
    (commitTitle scrub title number).splitOnP isLineEnd =
      (commitTitle scrub title number).splitOnP isSeparator := by
  have same : ∀ unit ∈ commitTitle scrub title number, isLineEnd unit = isSeparator unit :=
    fun _ => mem_untrustedText
  generalize commitTitle scrub title number = text at same
  induction text with
  | nil => rfl
  | cons unit rest ih =>
      rw [List.splitOnP_cons_eq_if_modifyHead, List.splitOnP_cons_eq_if_modifyHead,
        same unit List.mem_cons_self, ih fun other member => same other (.tail _ member)]

section

variable (scrub : JsString → JsString) (title summary headSha : JsString) (number : ℕ)
  (trailers : FleetTrailers)

def landedMessage : JsString :=
  squashMessage (commitTitle scrub title number)
    (fleetMergeCommitMessage scrub (landedBody scrub summary headSha) trailers)

/-- The commit says of every trailer what the fleet gave, once, and of no other. -/
def Exact : Prop :=
  (∀ name, valuesOf (landedMessage scrub title summary headSha number trailers) name =
    (trailers.given.filter fun trailer => trailer.1 = name).map Prod.snd) ∧
  grantTrailers (landedMessage scrub title summary headSha number trailers) = [trailers.grantId]

def Harmless : Prop :=
  (∀ line ∈ (commitTitle scrub title number).splitOnP isSeparator, fleetTrailer line = none) ∧
  ∀ trailer ∈ trailers.given, Good trailer.2

variable {scrub title summary headSha number trailers}

theorem landedMessage_pairs (good : ∀ trailer ∈ trailers.given, Good trailer.2) :
    trailerPairs (landedMessage scrub title summary headSha number trailers) =
      trailerPairs (commitTitle scrub title number) ++ trailers.given := by
  unfold landedMessage
  rw [trailerPairs_squash, List.flatMap_congr fun trailer member =>
    trailerLine_pairs member (good trailer member), List.flatMap_singleton']

theorem exact_of_harmless (harmless : Harmless scrub title number trailers) :
    Exact scrub title summary headSha number trailers := by
  have pairs : trailerPairs (landedMessage scrub title summary headSha number trailers) =
      trailers.given := by
    rw [landedMessage_pairs harmless.2,
      show trailerPairs (commitTitle scrub title number) = [] from
        List.filterMap_eq_nil_iff.mpr (title_lines scrub title number ▸ harmless.1),
      List.nil_append]
  refine ⟨fun name => ?_, ?_⟩
  · rw [valuesOf_eq, pairs]
  · rw [grantTrailers_eq, pairs, given_grant]

theorem good_of_exact (exact_ : Exact scrub title summary headSha number trailers)
    (member : trailer ∈ trailers.given) : Good trailer.2 := by
  have named := exact_.1 trailer.1
  rw [valuesOf_eq] at named
  have there : trailer.2 ∈ (trailers.given.filter fun other => other.1 = trailer.1).map Prod.snd :=
    List.mem_map_of_mem (List.mem_filter.mpr ⟨member, decide_eq_true rfl⟩)
  rw [← named] at there
  obtain ⟨⟨name, value⟩, found, same⟩ := List.mem_map.mp there
  obtain ⟨line, _, parsed⟩ := List.mem_filterMap.mp (List.mem_of_mem_filter found)
  obtain ⟨_, _, _, _, _, _, valued⟩ := fleetTrailer_some parsed
  exact same ▸ trailerValue_good valued

theorem harmless_of_exact (exact_ : Exact scrub title summary headSha number trailers) :
    Harmless scrub title number trailers := by
  have good : ∀ trailer ∈ trailers.given, Good trailer.2 :=
    fun _ member => good_of_exact exact_ member
  refine ⟨title_lines scrub title number ▸ fun line member => ?_, good⟩
  cases found : fleetTrailer line with
  | none => rfl
  | some trailer =>
      have extra : trailer ∈ trailerPairs (commitTitle scrub title number) :=
        List.mem_filterMap.mpr ⟨line, member, found⟩
      have named := exact_.1 trailer.1
      rw [valuesOf_eq, landedMessage_pairs good, List.filter_append, List.map_append] at named
      have lengths := congrArg List.length named
      rw [List.length_append, List.length_map, List.length_map] at lengths
      have some_ : 0 < ((trailerPairs (commitTitle scrub title number)).filter
          fun other => other.1 = trailer.1).length :=
        List.length_pos_of_mem (List.mem_filter.mpr ⟨extra, decide_eq_true rfl⟩)
      omega

end

/-- A landed commit carries the trailers of the fleet and no others exactly where the title hides
no trailer behind a line separator and the values are single words. -/
theorem trailers_exact_iff (scrub : JsString → JsString) (title summary headSha : JsString)
    (number : ℕ) (trailers : FleetTrailers) :
    Exact scrub title summary headSha number trailers ↔ Harmless scrub title number trailers :=
  ⟨harmless_of_exact, exact_of_harmless⟩

def plainTrailers : FleetTrailers :=
  ⟨js "g-1", js "d", js "h", some (js "p-1"), js "s", none⟩

/-- A title with U+2028 around a line of its own adds a grant. -/
theorem title_smuggles : ¬ Exact id
    (js "fix" ++ 0x2028 :: (js "Ashlr-Grant: g-2" ++ 0x2028 :: js "it")) (js "ok") (js "abc") 7
    plainTrailers := by
  rintro ⟨_, grants⟩
  revert grants
  decide

end AshlrHub.CommitTrailers
