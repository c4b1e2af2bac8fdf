import AshlrHub.Js.Text
import Mathlib.Computability.Language

namespace AshlrHub.Js

/-! Regular expressions as JavaScript reads and runs them without flags: one code unit
at a time, alternatives and repetitions tried in order. -/

abbrev UnitRange := CodeUnit × CodeUnit

inductive RegExp where
  | empty
  /-- `^` -/
  | start
  /-- `$` -/
  | finish
  /-- `\b` -/
  | boundary
  /-- One unit, in one of the ranges or, negated, in none. -/
  | cls (negated : Bool) (ranges : List UnitRange)
  | seq (first second : RegExp)
  | alt (first second : RegExp)
  /-- `?` -/
  | opt (body : RegExp)
  /-- `*` -/
  | star (body : RegExp)

namespace RegExp

def literal (unit : CodeUnit) : RegExp := .cls false [(unit, unit)]

/-- The line terminators, which `.` does not match. -/
def lineTerminators : List UnitRange :=
  [(0x0A, 0x0A), (0x0D, 0x0D), (0x2028, 0x2029)]

def dot : RegExp := .cls true lineTerminators

/-- The units of `\s`. -/
def spaceRanges : List UnitRange :=
  [(0x09, 0x0D), (0x20, 0x20), (0xA0, 0xA0), (0x1680, 0x1680), (0x2000, 0x200A),
    (0x2028, 0x2029), (0x202F, 0x202F), (0x205F, 0x205F), (0x3000, 0x3000), (0xFEFF, 0xFEFF)]

def inRanges (ranges : List UnitRange) (unit : CodeUnit) : Bool :=
  ranges.any fun range => range.1 ≤ unit && unit ≤ range.2

def inClass (negated : Bool) (ranges : List UnitRange) (unit : CodeUnit) : Bool :=
  negated != inRanges ranges unit

/-- A letter, a digit or an underscore: what `\b` tells from the rest. -/
def isWordUnit (unit : CodeUnit) : Bool :=
  inRanges [(0x30, 0x39), (0x41, 0x5A), (0x5F, 0x5F), (0x61, 0x7A)] unit

/-! Matching. -/

/-- A position in the input: what stands before it, last unit first, and after it. -/
structure Cursor where
  before : JsString
  rest : JsString
deriving DecidableEq

def atWord (unit : Option CodeUnit) : Bool :=
  unit.any isWordUnit

def repeatEnds (step : Cursor → List Cursor) : ℕ → Cursor → List Cursor
  | 0, cursor => [cursor]
  | fuel + 1, cursor =>
      ((step cursor).filter fun next => next.rest.length < cursor.rest.length).flatMap
        (repeatEnds step fuel) ++ [cursor]

def ends : RegExp → Cursor → List Cursor
  | .empty, cursor => [cursor]
  | .start, cursor => if cursor.before = [] then [cursor] else []
  | .finish, cursor => if cursor.rest = [] then [cursor] else []
  | .boundary, cursor =>
      if atWord cursor.before.head? ≠ atWord cursor.rest.head? then [cursor] else []
  | .cls negated ranges, ⟨before, unit :: rest⟩ =>
      if inClass negated ranges unit then [⟨unit :: before, rest⟩] else []
  | .cls _ _, ⟨_, []⟩ => []
  | .seq first second, cursor => (first.ends cursor).flatMap second.ends
  | .alt first second, cursor => first.ends cursor ++ second.ends cursor
  | .opt body, cursor =>
      ((body.ends cursor).filter fun next => next.rest.length < cursor.rest.length) ++ [cursor]
  -- a round that consumes nothing fails, so the rest of the input bounds the rounds
  | .star body, cursor => repeatEnds body.ends cursor.rest.length cursor

def cursorsFrom (before : JsString) : JsString → List Cursor
  | [] => [⟨before, []⟩]
  | unit :: rest => ⟨before, unit :: rest⟩ :: cursorsFrom (unit :: before) rest

/-- `re.test(input)` -/
def test (re : RegExp) (input : JsString) : Bool :=
  (cursorsFrom [] input).any fun cursor => !(re.ends cursor).isEmpty

/-! Reading the source text of a regular expression.  The syntax is the part the program
uses; anything else is refused. -/

def isSyntaxUnit (unit : CodeUnit) : Bool :=
  (js "^$\\.*+?()[]\x7b\x7d|").contains unit

def parseClass : JsString → Option (List UnitRange × JsString)
  | [] => none
  | 0x5D :: rest => some ([], rest)
  -- a hyphen before the closing bracket stands for itself
  | 0x2D :: 0x5D :: rest => some ([(0x2D, 0x2D)], rest)
  | first :: 0x2D :: 0x5D :: rest =>
      if first = 0x5C || first = 0x5B || first = 0x5E then none
      else some ([(first, first), (0x2D, 0x2D)], rest)
  | first :: 0x2D :: last :: rest =>
      if isSyntaxUnit first || isSyntaxUnit last || last < first then none
      else (parseClass rest).map fun (ranges, rest) => ((first, last) :: ranges, rest)
  | unit :: rest =>
      if unit = 0x5C || unit = 0x5B || unit = 0x5E || unit = 0x2D then none
      else (parseClass rest).map fun (ranges, rest) => ((unit, unit) :: ranges, rest)

def parseEscape : JsString → Option (RegExp × JsString)
  | [] => none
  | unit :: rest =>
      if isSyntaxUnit unit || unit = 0x2F then some (literal unit, rest)
      else if unit = 0x62 then some (.boundary, rest)
      else if unit = 0x64 then some (.cls false [(0x30, 0x39)], rest)
      else if unit = 0x73 then some (.cls false spaceRanges, rest)
      else none

def quantify (atom : RegExp) : JsString → Option (RegExp × JsString)
  | 0x2A :: rest => some (.star atom, rest)
  | 0x2B :: rest => some (.seq atom (.star atom), rest)
  | 0x3F :: rest => some (.opt atom, rest)
  | 0x7B :: _ => none
  | rest => some (atom, rest)

mutual

def parseDisjunction : ℕ → JsString → Option (RegExp × JsString)
  | 0, _ => none
  | fuel + 1, input =>
      match parseAlternative fuel input with
      | some (first, 0x7C :: rest) =>
          (parseDisjunction fuel rest).map fun (second, rest) => (.alt first second, rest)
      | result => result

def parseAlternative : ℕ → JsString → Option (RegExp × JsString)
  | 0, _ => none
  | _ + 1, [] => some (.empty, [])
  | fuel + 1, unit :: input =>
      if unit = 0x7C || unit = 0x29 then some (.empty, unit :: input)
      else
        match parseTerm fuel (unit :: input) with
        | some (first, rest) =>
            (parseAlternative fuel rest).map fun (second, rest) => (.seq first second, rest)
        | none => none

def parseTerm : ℕ → JsString → Option (RegExp × JsString)
  | 0, _ | _ + 1, [] => none
  | _ + 1, 0x5E :: rest => some (.start, rest)
  | _ + 1, 0x24 :: rest => some (.finish, rest)
  | fuel + 1, 0x28 :: rest =>
      match parseDisjunction fuel (if rest.take 2 = [0x3F, 0x3A] then rest.drop 2 else rest) with
      | some (body, 0x29 :: rest) => quantify body rest
      | _ => none
  | _ + 1, 0x2E :: rest => quantify dot rest
  | _ + 1, 0x5C :: rest => (parseEscape rest).bind fun (atom, rest) => quantify atom rest
  | _ + 1, 0x5B :: 0x5E :: rest =>
      (parseClass rest).bind fun (ranges, rest) => quantify (.cls true ranges) rest
  | _ + 1, 0x5B :: rest =>
      (parseClass rest).bind fun (ranges, rest) => quantify (.cls false ranges) rest
  | _ + 1, unit :: rest => if isSyntaxUnit unit then none else quantify (literal unit) rest

end

/-- `new RegExp(source)`; none where the source is refused. -/
def parse (source : JsString) : Option RegExp :=
  match parseDisjunction (3 * source.length + 3) source with
  | some (re, []) => some re
  | _ => none

example : ((parse (js "^(?:[^/]+/)*\\.git(?:hub|lab)$")).map fun re =>
    (re.test (js "a/b/.github"), re.test (js "a//.github"), re.test (js ".gitlab"))) =
      some (true, false, true) := by
  decide +kernel

/-! What an expression without assertions denotes. -/

def plain : RegExp → Bool
  | .start | .finish | .boundary => false
  | .empty | .cls _ _ => true
  | .seq first second | .alt first second => first.plain && second.plain
  | .opt body | .star body => body.plain

def language : RegExp → Language CodeUnit
  | .cls negated ranges => {text | ∃ unit, inClass negated ranges unit = true ∧ text = [unit]}
  | .seq first second => first.language * second.language
  | .alt first second => first.language + second.language
  | .opt body => 1 + body.language
  | .star body => KStar.kstar body.language
  | .empty | .start | .finish | .boundary => 1

def Cursor.Reads (cursor : Cursor) (text : JsString) (next : Cursor) : Prop :=
  cursor.rest = text ++ next.rest ∧ next.before = text.reverse ++ cursor.before

variable {fuel : ℕ} {cursor next : Cursor} {terms : List (JsString × RegExp)}

theorem Cursor.reads_nil : cursor.Reads [] next ↔ next = cursor := by
  obtain ⟨before, rest⟩ := cursor
  obtain ⟨nextBefore, nextRest⟩ := next
  simp only [Cursor.Reads, List.nil_append, List.reverse_nil, Cursor.mk.injEq]
  exact ⟨fun ⟨same, sameBefore⟩ => ⟨sameBefore, same.symm⟩,
    fun ⟨sameBefore, same⟩ => ⟨same.symm, sameBefore⟩⟩

theorem Cursor.reads_append {first second : JsString} :
    cursor.Reads (first ++ second) next ↔
      ∃ middle, cursor.Reads first middle ∧ middle.Reads second next := by
  constructor
  · rintro ⟨rest, before⟩
    refine ⟨⟨first.reverse ++ cursor.before, second ++ next.rest⟩, ⟨?_, rfl⟩, rfl, ?_⟩
    · rw [rest, List.append_assoc]
    · rw [before, List.reverse_append, List.append_assoc]
  · rintro ⟨middle, ⟨rest, before⟩, rest', before'⟩
    refine ⟨?_, ?_⟩
    · rw [rest, rest', List.append_assoc]
    · rw [before', before, List.reverse_append, List.append_assoc]

def Steps (step : Cursor → List Cursor) (texts : Language CodeUnit) : Prop :=
  ∀ cursor next, next ∈ step cursor ↔ ∃ text ∈ texts, cursor.Reads text next

variable {text : JsString}

theorem Cursor.Reads.length
    (reads : cursor.Reads text next) : cursor.rest.length = text.length + next.rest.length := by
  rw [reads.1, List.length_append]

section

variable {step : Cursor → List Cursor} {texts : Language CodeUnit} (steps : Steps step texts)
include steps

theorem mem_progress :
    (next ∈ (step cursor).filter fun next => next.rest.length < cursor.rest.length) ↔
      ∃ text ∈ texts, text ≠ [] ∧ cursor.Reads text next := by
  rw [List.mem_filter, steps, decide_eq_true_eq]
  constructor
  · rintro ⟨⟨text, member, reads⟩, shorter⟩
    refine ⟨text, member, ?_, reads⟩
    rintro rfl
    have same := reads.length
    simp only [List.length_nil] at same
    omega
  · rintro ⟨text, member, some, reads⟩
    have length := reads.length
    have positive := List.length_pos_iff.mpr some
    exact ⟨⟨text, member, reads⟩, by omega⟩

theorem mem_repeatEnds (enough : cursor.rest.length ≤ fuel) :
    next ∈ repeatEnds step fuel cursor ↔
      ∃ words : List JsString, (∀ word ∈ words, word ∈ texts ∧ word ≠ []) ∧
        cursor.Reads words.flatten next := by
  induction fuel generalizing cursor with
  | zero =>
      rw [repeatEnds, List.mem_singleton]
      constructor
      · rintro rfl
        exact ⟨[], by simp, Cursor.reads_nil.mpr rfl⟩
      · rintro ⟨words, members, reads⟩
        cases words with
        | nil => exact Cursor.reads_nil.mp reads
        | cons word words =>
            have length := reads.length
            have positive := List.length_pos_iff.mpr (members word List.mem_cons_self).2
            rw [List.flatten_cons, List.length_append] at length
            omega
  | succ fuel ih =>
      rw [repeatEnds, List.mem_append, List.mem_flatMap, List.mem_singleton]
      constructor
      · rintro (⟨middle, first, rest⟩ | rfl)
        · obtain ⟨word, member, some, reads⟩ := (mem_progress steps).mp first
          have length := reads.length
          have positive := List.length_pos_iff.mpr some
          obtain ⟨words, members, later⟩ := (ih (by omega)).mp rest
          refine ⟨word :: words, ?_, Cursor.reads_append.mpr ⟨middle, reads, later⟩⟩
          exact List.forall_mem_cons.mpr ⟨⟨member, some⟩, members⟩
        · exact ⟨[], by simp, Cursor.reads_nil.mpr rfl⟩
      · rintro ⟨words, members, reads⟩
        cases words with
        | nil => exact .inr (Cursor.reads_nil.mp reads)
        | cons word words =>
            obtain ⟨⟨member, some⟩, members⟩ := List.forall_mem_cons.mp members
            obtain ⟨middle, first, later⟩ := Cursor.reads_append.mp reads
            have length := first.length
            have positive := List.length_pos_iff.mpr some
            exact .inl ⟨middle, (mem_progress steps).mpr ⟨word, member, some, first⟩,
              (ih (by omega)).mpr ⟨words, members, later⟩⟩

end

theorem steps_ends : (re : RegExp) → re.plain = true → Steps re.ends re.language
  | .empty, _ => by
      intro cursor next
      simp only [ends, language, List.mem_singleton, Language.mem_one, exists_eq_left]
      exact Cursor.reads_nil.symm
  | .cls negated ranges, _ => by
      rintro ⟨before, _ | ⟨unit, rest⟩⟩ next
      · simp only [ends, List.not_mem_nil, language, false_iff, not_exists, not_and]
        rintro _ ⟨unit, -, rfl⟩ ⟨same, -⟩
        cases same
      · rw [ends]
        constructor
        · intro member
          split_ifs at member with inside
          · rw [List.mem_singleton.mp member]
            exact ⟨[unit], ⟨unit, inside, rfl⟩, rfl, rfl⟩
          · cases member
        · rintro ⟨_, ⟨other, inside, rfl⟩, same, reads⟩
          obtain ⟨nextBefore, nextRest⟩ := next
          obtain ⟨rfl, rfl⟩ := List.cons.inj same
          obtain rfl : nextBefore = unit :: before := reads
          rw [if_pos inside]
          exact List.mem_singleton_self _
  | .seq first second, isPlain => by
      rw [plain, Bool.and_eq_true] at isPlain
      intro cursor next
      rw [ends, List.mem_flatMap]
      constructor
      · rintro ⟨middle, member, later⟩
        obtain ⟨text, inFirst, reads⟩ := (steps_ends first isPlain.1 _ _).mp member
        obtain ⟨more, inSecond, readsMore⟩ := (steps_ends second isPlain.2 _ _).mp later
        exact ⟨text ++ more, Language.append_mem_mul inFirst inSecond,
          Cursor.reads_append.mpr ⟨middle, reads, readsMore⟩⟩
      · rintro ⟨_, member, reads⟩
        obtain ⟨text, inFirst, more, inSecond, rfl⟩ := Language.mem_mul.mp member
        obtain ⟨middle, reads, readsMore⟩ := Cursor.reads_append.mp reads
        exact ⟨middle, (steps_ends first isPlain.1 _ _).mpr ⟨text, inFirst, reads⟩,
          (steps_ends second isPlain.2 _ _).mpr ⟨more, inSecond, readsMore⟩⟩
  | .alt first second, isPlain => by
      rw [plain, Bool.and_eq_true] at isPlain
      intro cursor next
      rw [ends, List.mem_append, steps_ends first isPlain.1, steps_ends second isPlain.2]
      simp only [language, Language.mem_add, or_and_right, exists_or]
  | .opt body, isPlain => by
      intro cursor next
      rw [ends, List.mem_append, mem_progress (steps_ends body isPlain), List.mem_singleton]
      simp only [language, Language.mem_add, Language.mem_one, or_and_right, exists_or,
        exists_eq_left, Cursor.reads_nil]
      constructor
      · rintro (⟨text, member, -, reads⟩ | same)
        · exact .inr ⟨text, member, reads⟩
        · exact .inl same
      · rintro (same | ⟨text, member, reads⟩)
        · exact .inr same
        · by_cases none : text = []
          · rw [none, Cursor.reads_nil] at reads
            exact .inr reads
          · exact .inl ⟨text, member, none, reads⟩
  | .star body, isPlain => by
      intro cursor next
      rw [ends, mem_repeatEnds (steps_ends body isPlain) (Nat.le_refl _)]
      simp only [language, Language.mem_kstar_iff_exists_nonempty]
      constructor
      · rintro ⟨words, members, reads⟩
        exact ⟨words.flatten, ⟨words, rfl, members⟩, reads⟩
      · rintro ⟨_, ⟨words, rfl, members⟩, reads⟩
        exact ⟨words, members, reads⟩

theorem mem_language_star_cls {negated : Bool} {ranges : List UnitRange} :
    text ∈ (star (.cls negated ranges)).language ↔
      ∀ unit ∈ text, inClass negated ranges unit = true := by
  rw [language, Language.mem_kstar]
  constructor
  · rintro ⟨words, rfl, members⟩ unit member
    obtain ⟨word, inside, member⟩ := List.mem_flatten.mp member
    obtain ⟨other, allowed, rfl⟩ := members word inside
    rwa [List.mem_singleton.mp member]
  · intro allowed
    refine ⟨text.map ([·]), ?_, ?_⟩
    · rw [← List.flatMap_def, List.flatMap_singleton']
    · rintro word member
      obtain ⟨unit, inside, rfl⟩ := List.mem_map.mp member
      exact ⟨unit, allowed unit inside, rfl⟩

theorem mem_language_plus_cls {negated : Bool} {ranges : List UnitRange} :
    text ∈ (seq (.cls negated ranges) (star (.cls negated ranges))).language ↔
      text ≠ [] ∧ ∀ unit ∈ text, inClass negated ranges unit = true := by
  rw [language, Language.mem_mul]
  constructor
  · rintro ⟨_, ⟨unit, allowed, rfl⟩, rest, member, rfl⟩
    have restAllowed := mem_language_star_cls.mp member
    exact ⟨by simp, List.forall_mem_cons.mpr ⟨allowed, restAllowed⟩⟩
  · rintro ⟨some, allowed⟩
    cases text with
    | nil => exact absurd rfl some
    | cons unit rest =>
        obtain ⟨first, restAllowed⟩ := List.forall_mem_cons.mp allowed
        exact ⟨[unit], ⟨unit, first, rfl⟩, rest, mem_language_star_cls.mpr restAllowed, rfl⟩

theorem inRanges_single {unit other : CodeUnit} :
    inRanges [(other, other)] unit = true ↔ unit = other := by
  rw [inRanges, List.any_cons, List.any_nil, Bool.or_false, Bool.and_eq_true,
    decide_eq_true_eq, decide_eq_true_eq]
  constructor
  · rintro ⟨below, above⟩
    exact UInt16.le_antisymm above below
  · rintro rfl
    exact ⟨UInt16.le_refl _, UInt16.le_refl _⟩

theorem inClass_other {unit other : CodeUnit} :
    inClass true [(other, other)] unit = true ↔ unit ≠ other := by
  rw [inClass, Bool.true_bne, Bool.not_eq_true', ← Bool.not_eq_true, inRanges_single]

theorem mem_language_literal {unit : CodeUnit} :
    text ∈ (literal unit).language ↔ text = [unit] := by
  constructor
  · rintro ⟨other, inside, rfl⟩
    rw [inClass, Bool.false_bne, inRanges_single] at inside
    rw [inside]
  · rintro rfl
    refine ⟨unit, ?_, rfl⟩
    rw [inClass, Bool.false_bne]
    exact inRanges_single.mpr rfl

/-! Sequences of terms between anchors. -/

def chain (terms : List RegExp) : RegExp :=
  terms.foldr .seq .empty

theorem plain_chain {terms : List RegExp} (allPlain : ∀ term ∈ terms, term.plain = true) :
    (chain terms).plain = true := by
  induction terms with
  | nil => rfl
  | cons term terms ih =>
      obtain ⟨first, rest⟩ := List.forall_mem_cons.mp allPlain
      change (term.plain && (chain terms).plain) = true
      rw [first, ih rest]
      rfl

theorem language_chain (terms : List RegExp) :
    (chain terms).language = (terms.map language).prod := by
  induction terms with
  | nil => rfl
  | cons term terms ih =>
      rw [List.map_cons, List.prod_cons, ← ih]
      rfl

theorem ends_chain_append (terms more : List RegExp) (cursor : Cursor) :
    (chain (terms ++ more)).ends cursor =
      ((chain terms).ends cursor).flatMap (chain more).ends := by
  induction terms generalizing cursor with
  | nil =>
      change (chain more).ends cursor = [cursor].flatMap (chain more).ends
      rw [List.flatMap_singleton]
  | cons term terms ih =>
      change (term.ends cursor).flatMap (chain (terms ++ more)).ends =
        ((term.ends cursor).flatMap (chain terms).ends).flatMap (chain more).ends
      rw [List.flatMap_assoc]
      exact List.flatMap_congr fun next _ => ih next

theorem eq_of_mem_cursorsFrom {before input : JsString} {cursor : Cursor}
    (member : cursor ∈ cursorsFrom before input) (atStart : cursor.before = []) :
    cursor = ⟨[], input⟩ := by
  induction input generalizing before with
  | nil =>
      rw [cursorsFrom, List.mem_singleton] at member
      subst member
      rw [show before = [] from atStart]
  | cons unit input ih =>
      rw [cursorsFrom] at member
      rcases List.mem_cons.mp member with rfl | member
      · rw [show before = [] from atStart]
      · have later {before input : JsString} {cursor : Cursor}
            (member : cursor ∈ cursorsFrom before input) (some : before ≠ []) :
            cursor.before ≠ [] := by
          induction input generalizing before with
          | nil =>
              rw [cursorsFrom, List.mem_singleton] at member
              rwa [member]
          | cons unit input ih =>
              rw [cursorsFrom] at member
              rcases List.mem_cons.mp member with rfl | member
              · exact some
              · exact ih member (by simp)
        exact absurd atStart (later member (by simp))

theorem cursor_mem_cursorsFrom (before input : JsString) :
    ⟨before, input⟩ ∈ cursorsFrom before input := by
  cases input <;> simp [cursorsFrom]

theorem test_anchored {terms : List RegExp} (allPlain : ∀ term ∈ terms, term.plain = true)
    (input : JsString) :
    (chain (.start :: (terms ++ [.finish]))).test input = true ↔
      input ∈ (terms.map language).prod := by
  have finishes (cursor : Cursor) : ((chain (terms ++ [.finish])).ends cursor) ≠ [] ↔
      cursor.rest ∈ (chain terms).language := by
    have steps := steps_ends (chain terms) (plain_chain allPlain)
    rw [ends_chain_append, Ne, List.flatMap_eq_nil_iff]
    push Not
    constructor
    · rintro ⟨next, member, finished⟩
      obtain ⟨text, inside, reads⟩ := (steps cursor next).mp member
      have done : next.rest = [] := by
        by_contra unfinished
        apply finished
        change (ends .finish next).flatMap (ends .empty) = []
        rw [ends, if_neg unfinished]
        rfl
      rw [reads.1, done, List.append_nil]
      exact inside
    · intro inside
      refine ⟨⟨cursor.rest.reverse ++ cursor.before, []⟩,
        (steps _ _).mpr ⟨cursor.rest, inside, by rw [List.append_nil], rfl⟩, ?_⟩
      change (ends .finish _).flatMap (ends .empty) ≠ []
      rw [ends, if_pos rfl]
      simp [ends]
  rw [test, List.any_eq_true, ← language_chain]
  constructor
  · rintro ⟨cursor, member, matched⟩
    have begun : (chain (.start :: (terms ++ [.finish]))).ends cursor =
        (if cursor.before = [] then [cursor] else []).flatMap (chain (terms ++ [.finish])).ends :=
      rfl
    rw [begun] at matched
    split_ifs at matched with atStart
    · rw [List.flatMap_singleton, Bool.not_eq_true', List.isEmpty_eq_false_iff] at matched
      have inside := (finishes cursor).mp matched
      rwa [eq_of_mem_cursorsFrom member atStart] at inside
    · cases matched
  · intro inside
    refine ⟨⟨[], input⟩, cursor_mem_cursorsFrom [] input, ?_⟩
    have begun : (chain (.start :: (terms ++ [.finish]))).ends ⟨[], input⟩ =
        (chain (terms ++ [.finish])).ends ⟨[], input⟩ := List.flatMap_singleton ..
    rw [begun, Bool.not_eq_true', List.isEmpty_eq_false_iff]
    exact (finishes _).mpr inside

/-! Reading back terms that were written one after the other. -/

def NoQuantifier (text : JsString) : Prop :=
  ∀ unit ∈ text.head?, unit ≠ 0x2A ∧ unit ≠ 0x2B ∧ unit ≠ 0x3F ∧ unit ≠ 0x7B

theorem NoQuantifier.of_head {unit : CodeUnit} {text : JsString} (head : text.head? = some unit)
    (ordinary : unit ≠ 0x2A ∧ unit ≠ 0x2B ∧ unit ≠ 0x3F ∧ unit ≠ 0x7B) : NoQuantifier text := by
  intro other found
  rw [head] at found
  cases found
  exact ordinary

theorem quantify_none (atom : RegExp) {rest : JsString} (no : NoQuantifier rest) :
    quantify atom rest = some (atom, rest) := by
  unfold quantify
  split <;> first | rfl | (simpa using no _ rfl)

theorem parseTerm_unit {unit : CodeUnit} {rest : JsString}
    (ordinary : isSyntaxUnit unit = false) :
    parseTerm (fuel + 1) (unit :: rest) = quantify (literal unit) rest := by
  have differs {other : CodeUnit} (special : isSyntaxUnit other = true) : unit ≠ other := by
    rintro rfl
    rw [ordinary] at special
    cases special
  rw [parseTerm, ordinary, if_neg Bool.false_ne_true]
  · exact differs rfl
  · exact differs rfl
  · exact differs rfl
  · exact differs rfl
  · exact differs rfl
  · exact fun _ same _ => differs rfl same
  · exact differs rfl

structure ReadsAsTerm (fuel : ℕ) (source : JsString) (term : RegExp) : Prop where
  read : ∀ more rest, NoQuantifier rest →
    parseTerm (more + fuel) (source ++ rest) = some (term, rest)
  head : ∃ unit ∈ source.head?, unit ≠ 0x7C ∧ unit ≠ 0x29
  noQuantifier : NoQuantifier source

theorem ReadsAsTerm.unit {unit : CodeUnit} (ordinary : isSyntaxUnit unit = false) :
    ReadsAsTerm 1 [unit] (literal unit) where
  read fuel rest no := by
    rw [List.singleton_append, parseTerm_unit ordinary, quantify_none _ no]
  head := by
    refine ⟨unit, rfl, ?_, ?_⟩ <;> (rintro rfl; exact absurd ordinary (by decide))
  noQuantifier other found := by
    cases found
    refine ⟨?_, ?_, ?_, ?_⟩ <;> (rintro rfl; exact absurd ordinary (by decide))

theorem ReadsAsTerm.escape {unit : CodeUnit} (special : isSyntaxUnit unit = true ∨ unit = 0x2F) :
    ReadsAsTerm 1 [0x5C, unit] (literal unit) where
  read fuel rest no := by
    change (parseEscape (unit :: rest)).bind (fun result => quantify result.1 result.2) = _
    rw [parseEscape, if_pos (by simpa using special), Option.bind_some, quantify_none _ no]
  head := ⟨0x5C, rfl, by decide, by decide⟩
  noQuantifier := .of_head rfl (by decide)

theorem ReadsAsTerm.mono {source : JsString} {term : RegExp}
    (reads : ReadsAsTerm fuel source term) (more : ℕ) : ReadsAsTerm (more + fuel) source term where
  read extra rest no := by
    rw [← Nat.add_assoc]
    exact reads.read (extra + more) rest no
  head := reads.head
  noQuantifier := reads.noQuantifier

theorem parseAlternative_terms
    (reads : ∀ term ∈ terms, ReadsAsTerm fuel term.1 term.2) (more : ℕ) :
    parseAlternative (more + fuel + terms.length + 1) (terms.map Prod.fst).flatten =
      some (chain (terms.map Prod.snd), []) := by
  induction terms with
  | nil => rfl
  | cons term terms ih =>
      obtain ⟨first, rest⟩ := List.forall_mem_cons.mp reads
      have behind : NoQuantifier (terms.map Prod.fst).flatten := by
        cases terms with
        | nil => rintro unit ⟨⟩
        | cons next terms =>
            obtain ⟨unit, head, -⟩ := (rest next List.mem_cons_self).head
            intro other found
            rw [List.map_cons, List.flatten_cons, List.head?_append, head] at found
            cases found
            exact (rest next List.mem_cons_self).noQuantifier unit head
      obtain ⟨unit, head, notBar, notClose⟩ := first.head
      obtain ⟨tail, source⟩ : ∃ tail, term.1 = unit :: tail := by
        cases same : term.1 with
        | nil => rw [same] at head; cases head
        | cons other tail =>
            rw [same] at head
            cases head
            exact ⟨tail, rfl⟩
      have read := first.read (more + terms.length + 1) _ behind
      rw [show more + terms.length + 1 + fuel = more + fuel + terms.length + 1 by omega] at read
      rw [List.map_cons, List.flatten_cons, List.length_cons, ← Nat.add_assoc]
      rw [source, List.cons_append] at read ⊢
      rw [parseAlternative, if_neg (by simp [notBar, notClose]), read]
      dsimp only
      rw [ih rest]
      rfl

theorem ReadsAsTerm.length_pos {source : JsString} {term : RegExp}
    (reads : ReadsAsTerm fuel source term) : 0 < source.length := by
  obtain ⟨unit, head, -⟩ := reads.head
  exact List.length_pos_of_mem (List.mem_of_mem_head? head)

section

variable (reads : ∀ term ∈ terms, ReadsAsTerm fuel term.1 term.2)
include reads

theorem length_le_flatten :
    terms.length ≤ (terms.map Prod.fst).flatten.length := by
  induction terms with
  | nil => exact Nat.zero_le _
  | cons term terms ih =>
      obtain ⟨first, rest⟩ := List.forall_mem_cons.mp reads
      have positive := first.length_pos
      have shorter := ih rest
      rw [List.map_cons, List.flatten_cons, List.length_append, List.length_cons]
      omega

theorem parse_terms (enough : fuel ≤ 2 * (terms.map Prod.fst).flatten.length + 1) :
    parse (terms.map Prod.fst).flatten = some (chain (terms.map Prod.snd)) := by
  have shorter := length_le_flatten reads
  obtain ⟨more, budget⟩ : ∃ more, 3 * (terms.map Prod.fst).flatten.length + 2 =
      more + fuel + terms.length + 1 :=
    ⟨3 * (terms.map Prod.fst).flatten.length + 1 - fuel - terms.length, by omega⟩
  have read := parseAlternative_terms reads more
  rw [← budget] at read
  rw [parse, parseDisjunction, read]

end

theorem ReadsAsTerm.start : ReadsAsTerm 1 [0x5E] .start where
  read _ _ _ := rfl
  head := ⟨0x5E, rfl, by decide, by decide⟩
  noQuantifier := .of_head rfl (by decide)

theorem ReadsAsTerm.finish : ReadsAsTerm 1 [0x24] .finish where
  read _ _ _ := rfl
  head := ⟨0x24, rfl, by decide, by decide⟩
  noQuantifier := .of_head rfl (by decide)

theorem parse_anchored
    (reads : ∀ term ∈ terms, ReadsAsTerm 5 term.1 term.2) :
    parse (js "^" ++ (terms.map Prod.fst).flatten ++ js "$") =
      some (chain (.start :: (terms.map Prod.snd ++ [.finish]))) := by
  have allRead : ∀ term ∈ ([0x5E], RegExp.start) :: (terms ++ [([0x24], RegExp.finish)]),
      ReadsAsTerm 5 term.1 term.2 :=
    List.forall_mem_cons.mpr ⟨ReadsAsTerm.start.mono 4, List.forall_mem_append.mpr
      ⟨reads, List.forall_mem_singleton.mpr (ReadsAsTerm.finish.mono 4)⟩⟩
  have source : ((([0x5E], RegExp.start) :: (terms ++ [([0x24], RegExp.finish)])).map
      Prod.fst).flatten = js "^" ++ (terms.map Prod.fst).flatten ++ js "$" := by
    rw [List.map_cons, List.map_append, List.flatten_cons, List.flatten_append, List.append_assoc]
    rfl
  have read := parse_terms allRead (by
    rw [source, List.length_append, List.length_append]
    change 5 ≤ 2 * (1 + _ + 1) + 1
    omega)
  rw [source, List.map_cons, List.map_append] at read
  exact read

end RegExp

end AshlrHub.Js
