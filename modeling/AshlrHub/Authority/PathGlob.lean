import AshlrHub.Js.RegExp
import AshlrHub.Js.LowerCase

namespace AshlrHub.Authority

open Js

/-! How a protected-path glob becomes a regular expression, and what it says of a path. -/

def slash : CodeUnit := 0x2F

def escapeRegExp (text : JsString) : JsString :=
  text.flatMap fun unit =>
    if (js ".*+?^$\x7b\x7d()|[]\\/").contains unit then [0x5C, unit] else [unit]

def globSource : ℕ → JsString → JsString
  | 0, _ => []
  | fuel + 1, pattern =>
      match pattern with
      | [] => []
      | 0x2A :: 0x2A :: 0x2F :: rest => js "(?:[^/]+/)*" ++ globSource fuel rest
      | 0x2A :: 0x2A :: rest => js ".*" ++ globSource fuel rest
      | 0x2A :: rest => js "[^/]*" ++ globSource fuel rest
      | 0x3F :: rest => js "[^/]" ++ globSource fuel rest
      | unit :: rest =>
          if unit = 0x7B && rest.contains 0x7D then
            let alternatives := (rest.takeWhile (· != 0x7D)).splitOn 0x2C
            js "(?:" ++ [0x7C].intercalate (alternatives.map escapeRegExp) ++ js ")" ++
              globSource fuel (rest.dropWhile (· != 0x7D)).tail
          else escapeRegExp [unit] ++ globSource fuel rest

/-- The regular expression of a glob; none where the constructor would throw. -/
def compileGlob (pattern : JsString) : Option RegExp :=
  let p := toLowerCase pattern
  RegExp.parse (js "^" ++ globSource p.length p ++ js "$")

example : (compileGlob (js "Docs/**/*AUTHORITY*")).map
    (·.test (js "docs/a/b/the authority")) = some true := by
  decide +kernel

/-- A glob and a path it stands for.  What a trailing `**` may take is the parameter. -/
inductive GlobMatch (takes : JsString → Prop) : JsString → JsString → Prop
  | nil : GlobMatch takes [] []
  /-- `**/` is any number of whole directories. -/
  | dirs {directories : List JsString} {pattern path : JsString} :
      (∀ directory ∈ directories, directory ≠ [] ∧ slash ∉ directory) →
      GlobMatch takes pattern path →
      GlobMatch takes (js "**/" ++ pattern) (directories.flatMap (· ++ [slash]) ++ path)
  | rest {path : JsString} : takes path → GlobMatch takes (js "**") path
  /-- `*` is a run inside one segment. -/
  | star {run pattern path : JsString} :
      pattern.head? ≠ some 0x2A → slash ∉ run → GlobMatch takes pattern path →
      GlobMatch takes (0x2A :: pattern) (run ++ path)
  | unit {unit : CodeUnit} {pattern path : JsString} :
      unit ≠ 0x2A → GlobMatch takes pattern path → GlobMatch takes (unit :: pattern) (unit :: path)

/-- The glob stands for the path, upper and lower case being the same: a trailing `**` takes
any rest that is not empty. -/
def GlobMatches (pattern path : JsString) : Prop :=
  GlobMatch (· ≠ []) (toLowerCase pattern) (toLowerCase path)

def isLineTerminator (unit : CodeUnit) : Bool :=
  RegExp.inRanges RegExp.lineTerminators unit

/-- A lowered glob `dir/**` and a lowered path under the directory, in whose rest a line ends
wherever the directory's part is taken to end. -/
def Crossed (pattern path : JsString) : Prop :=
  ∃ dir, pattern = dir ++ js "**" ∧
    (∃ front rest, path = front ++ rest ∧ rest ≠ [] ∧ GlobMatch (· ≠ []) dir front) ∧
    ∀ front rest, path = front ++ rest → rest ≠ [] → GlobMatch (· ≠ []) dir front →
      ∃ unit ∈ rest, isLineTerminator unit = true

/-! Reading a glob match back. -/

section

variable {takes : JsString → Prop} {pattern path : JsString}

theorem globMatch_dirs : GlobMatch takes (js "**/" ++ pattern) path ↔
    ∃ (directories : List JsString) (rest : JsString),
      (∀ directory ∈ directories, directory ≠ [] ∧ slash ∉ directory) ∧
      GlobMatch takes pattern rest ∧ path = directories.flatMap (· ++ [slash]) ++ rest := by
  constructor
  · intro matched
    generalize same : js "**/" ++ pattern = whole at matched
    cases matched with
    | nil => cases same
    | dirs members matched =>
        obtain rfl := List.append_cancel_left same
        exact ⟨_, _, members, matched, rfl⟩
    | rest _ => cases same
    | star other _ _ | unit other _ =>
        cases same
        exact absurd rfl other
  · rintro ⟨directories, rest, members, matched, rfl⟩
    exact .dirs members matched

theorem globMatch_rest : GlobMatch takes (js "**") path ↔ takes path := by
  constructor
  · intro matched
    generalize same : js "**" = whole at matched
    cases matched with
    | nil => cases same
    | dirs _ _ => cases same
    | rest taken => exact taken
    | star other _ _ | unit other _ =>
        cases same
        exact absurd rfl other
  · exact .rest

theorem globMatch_star (single : pattern.head? ≠ some 0x2A) :
    GlobMatch takes (0x2A :: pattern) path ↔
      ∃ run rest, slash ∉ run ∧ GlobMatch takes pattern rest ∧ path = run ++ rest := by
  constructor
  · intro matched
    generalize same : 0x2A :: pattern = whole at matched
    cases matched with
    | nil => cases same
    | dirs _ _ | rest _ =>
        cases same
        exact absurd rfl single
    | star _ run matched =>
        cases same
        exact ⟨_, _, run, matched, rfl⟩
    | unit other _ =>
        cases same
        exact absurd rfl other
  · rintro ⟨run, rest, inside, matched, rfl⟩
    exact .star single inside matched

theorem globMatch_unit {unit : CodeUnit} (other : unit ≠ 0x2A) :
    GlobMatch takes (unit :: pattern) path ↔
      ∃ rest, GlobMatch takes pattern rest ∧ path = unit :: rest := by
  constructor
  · intro matched
    generalize same : unit :: pattern = whole at matched
    cases matched with
    | nil => cases same
    | dirs _ _ | rest _ | star _ _ _ =>
        cases same
        exact absurd rfl other
    | unit _ matched =>
        cases same
        exact ⟨_, matched, rfl⟩
  · rintro ⟨rest, matched, rfl⟩
    exact .unit other matched

end

variable {text : JsString}

variable {pattern : JsString} {takes : JsString → Prop}

theorem GlobMatch.literal (plain : 0x2A ∉ text) :
    GlobMatch takes text text := by
  induction text with
  | nil => exact .nil
  | cons unit text ih =>
      rw [List.mem_cons, not_or] at plain
      exact .unit (Ne.symm plain.1) (ih plain.2)

/-! The globs of the rules, and the terms that stand for them. -/

/-- A glob without `?` and braces in which `**` has a slash or the end behind it. -/
inductive RuleGlob : JsString → Prop
  | nil : RuleGlob []
  | dirs {pattern : JsString} : RuleGlob pattern → RuleGlob (js "**/" ++ pattern)
  | rest : RuleGlob (js "**")
  | star {pattern : JsString} :
      pattern.head? ≠ some 0x2A → RuleGlob pattern → RuleGlob (0x2A :: pattern)
  | unit {unit : CodeUnit} {pattern : JsString} :
      unit ≠ 0x2A → unit ≠ 0x3F → unit ≠ 0x7B → RuleGlob pattern → RuleGlob (unit :: pattern)

def ruleGlob : JsString → Bool
  | 0x2A :: 0x2A :: 0x2F :: pattern => ruleGlob pattern
  | [0x2A, 0x2A] => true
  | 0x2A :: 0x2A :: _ => false
  | 0x2A :: pattern => ruleGlob pattern
  | unit :: pattern => unit != 0x3F && unit != 0x7B && ruleGlob pattern
  | [] => true

theorem ruleGlob_sound (holds : ruleGlob pattern = true) :
    RuleGlob pattern := by
  fun_induction ruleGlob pattern with
  | case1 pattern ih => exact .dirs (ih holds)
  | case2 => exact .rest
  | case3 => cases holds
  | case4 pattern _ _ none ih =>
      refine .star ?_ (ih holds)
      intro next
      obtain ⟨rest, rfl⟩ : ∃ rest, pattern = 0x2A :: rest := by
        cases pattern with
        | nil => cases next
        | cons unit rest => cases next; exact ⟨rest, rfl⟩
      exact none rest rfl
  | case5 unit pattern _ _ _ other ih =>
      rw [Bool.and_eq_true, Bool.and_eq_true, bne_iff_ne, bne_iff_ne] at holds
      exact .unit other holds.1.1 holds.1.2 (ih holds.2)
  | case6 => exact .nil

open RegExp (ReadsAsTerm)

/-- What `[^/]` reads as. -/
def segmentUnit : RegExp := .cls true [(slash, slash)]

/-- What `(?:[^/]+/)*` reads as. -/
def directoriesTerm : RegExp :=
  .star (.seq (.seq segmentUnit (.star segmentUnit)) (.seq (.literal slash) .empty))

theorem js_directories : js "(?:[^/]+/)*" =
    [0x28, 0x3F, 0x3A, 0x5B, 0x5E, 0x2F, 0x5D, 0x2B, 0x2F, 0x29, 0x2A] := by
  decide +kernel

theorem readsAsTerm_directories : ReadsAsTerm 5 (js "(?:[^/]+/)*") directoriesTerm where
  read fuel rest _ := by
    rw [js_directories]
    rfl
  head := ⟨0x28, rfl, by decide, by decide⟩
  noQuantifier := @RegExp.NoQuantifier.of_head 0x28 _ rfl (by decide)

theorem readsAsTerm_run : ReadsAsTerm 5 (js "[^/]*") (.star segmentUnit) where
  read _ _ _ := rfl
  head := ⟨0x5B, rfl, by decide, by decide⟩
  noQuantifier := @RegExp.NoQuantifier.of_head 0x5B _ rfl (by decide)

theorem readsAsTerm_rest : ReadsAsTerm 5 (js ".*") (.star .dot) where
  read _ _ _ := rfl
  head := ⟨0x2E, rfl, by decide, by decide⟩
  noQuantifier := @RegExp.NoQuantifier.of_head 0x2E _ rfl (by decide)

theorem readsAsTerm_unit (unit : CodeUnit) :
    ReadsAsTerm 5 (escapeRegExp [unit]) (.literal unit) := by
  rw [escapeRegExp, List.flatMap_singleton]
  have perm : (js ".*+?^$\x7b\x7d()|[]\\/").Perm (0x2F :: js "^$\\.*+?()[]\x7b\x7d|") := by
    decide +kernel
  have same : (js ".*+?^$\x7b\x7d()|[]\\/").contains unit = true ↔
      RegExp.isSyntaxUnit unit = true ∨ unit = 0x2F := by
    rw [RegExp.isSyntaxUnit, List.contains_iff_mem, List.contains_iff_mem, perm.mem_iff,
      List.mem_cons, or_comm]
  split_ifs with special
  · exact (ReadsAsTerm.escape (same.mp special)).mono 4
  · refine (ReadsAsTerm.unit ?_).mono 4
    by_contra syntaxUnit
    exact special (same.mpr (.inl (Bool.of_not_eq_false syntaxUnit)))

theorem mem_run :
    text ∈ (RegExp.star segmentUnit).language ↔ slash ∉ text := by
  rw [segmentUnit, RegExp.mem_language_star_cls]
  constructor
  · intro allowed inside
    exact RegExp.inClass_other.mp (allowed slash inside) rfl
  · intro outside unit member
    apply RegExp.inClass_other.mpr
    rintro rfl
    exact outside member

theorem mem_directory :
    text ∈ (RegExp.seq (.seq segmentUnit (.star segmentUnit))
        (.seq (.literal slash) .empty)).language ↔
      ∃ directory : JsString, (directory ≠ [] ∧ slash ∉ directory) ∧
        text = directory ++ [slash] := by
  have ending : (RegExp.seq (.literal slash) .empty).language = {[slash]} := by
    ext text
    rw [RegExp.language, RegExp.language, mul_one]
    exact RegExp.mem_language_literal
  rw [RegExp.language, ending, Language.mem_mul]
  constructor
  · rintro ⟨directory, member, _, rfl, rfl⟩
    obtain ⟨some, allowed⟩ := RegExp.mem_language_plus_cls.mp member
    exact ⟨directory, ⟨some, mem_run.mp (RegExp.mem_language_star_cls.mpr allowed)⟩, rfl⟩
  · rintro ⟨directory, ⟨some, outside⟩, rfl⟩
    have allowed := RegExp.mem_language_star_cls.mp (mem_run.mpr outside)
    exact ⟨directory, RegExp.mem_language_plus_cls.mpr ⟨some, allowed⟩, [slash], rfl, rfl⟩

theorem mem_directories :
    text ∈ directoriesTerm.language ↔
      ∃ directories : List JsString,
        (∀ directory ∈ directories, directory ≠ [] ∧ slash ∉ directory) ∧
          text = directories.flatMap (· ++ [slash]) := by
  rw [directoriesTerm, RegExp.language, Language.mem_kstar]
  constructor
  · rintro ⟨words, rfl, members⟩
    induction words with
    | nil => exact ⟨[], by simp, rfl⟩
    | cons word words ih =>
        obtain ⟨first, rest⟩ := List.forall_mem_cons.mp members
        obtain ⟨directory, good, rfl⟩ := mem_directory.mp first
        obtain ⟨directories, allGood, same⟩ := ih rest
        refine ⟨directory :: directories, List.forall_mem_cons.mpr ⟨good, allGood⟩, ?_⟩
        rw [List.flatten_cons, same, List.flatMap_cons]
  · rintro ⟨directories, allGood, rfl⟩
    refine ⟨directories.map (· ++ [slash]), List.flatMap_def .., ?_⟩
    intro word member
    obtain ⟨directory, inside, rfl⟩ := List.mem_map.mp member
    exact mem_directory.mpr ⟨directory, allGood directory inside, rfl⟩

def OneLine (text : JsString) : Prop :=
  ∀ unit ∈ text, isLineTerminator unit = false

theorem mem_rest : text ∈ (RegExp.star .dot).language ↔ OneLine text := by
  rw [RegExp.dot, RegExp.mem_language_star_cls]
  apply forall₂_congr
  intro unit _
  rw [RegExp.inClass, Bool.true_bne, Bool.not_eq_true']
  rfl

structure Spells (source : JsString) (terms : List (JsString × RegExp))
    (stands : JsString → Prop) : Prop where
  source : source = (terms.map Prod.fst).flatten
  reads : ∀ term ∈ terms, ReadsAsTerm 5 term.1 term.2
  plain : ∀ term ∈ terms, term.2.plain = true
  language : ∀ path, path ∈ ((terms.map Prod.snd).map RegExp.language).prod ↔ stands path

theorem Spells.cons {source : JsString} {terms : List (JsString × RegExp)} {term : RegExp}
    {stands more : JsString → Prop} (spells : Spells source terms stands)
    (reads : ReadsAsTerm 5 text term) (plain : term.plain = true)
    (splits : ∀ path, more path ↔
      ∃ front ∈ term.language, ∃ rest, stands rest ∧ front ++ rest = path) :
    Spells (text ++ source) ((text, term) :: terms) more where
  source := by
    rw [List.map_cons, List.flatten_cons, spells.source]
  reads := List.forall_mem_cons.mpr ⟨reads, spells.reads⟩
  plain := List.forall_mem_cons.mpr ⟨plain, spells.plain⟩
  language path := by
    rw [List.map_cons, List.map_cons, List.prod_cons, Language.mem_mul, splits]
    simp only [spells.language]

theorem globSource_star (single : pattern.head? ≠ some 0x2A) (fuel : ℕ) :
    globSource (fuel + 1) (0x2A :: pattern) = js "[^/]*" ++ globSource fuel pattern := by
  rw [globSource]
  · rintro rest rfl
    exact single rfl
  · rintro rest rfl
    exact single rfl

theorem globSource_unit {unit : CodeUnit} (other : unit ≠ 0x2A)
    (notAny : unit ≠ 0x3F) (notBrace : unit ≠ 0x7B) (fuel : ℕ) :
    globSource (fuel + 1) (unit :: pattern) = escapeRegExp [unit] ++ globSource fuel pattern := by
  rw [globSource, if_neg]
  · rw [decide_eq_false notBrace, Bool.false_and]
    exact Bool.false_ne_true
  · rintro rest rfl
    exact absurd rfl other
  · rintro rest rfl
    exact absurd rfl other
  · exact fun same => absurd same other
  · exact fun same => absurd same notAny

/-- A rule's glob is written as terms that stand for the paths it matches, but that the rest
a trailing `**` takes is one line. -/
theorem RuleGlob.spells (rule : RuleGlob pattern) {fuel : ℕ} (enough : pattern.length ≤ fuel) :
    ∃ terms, Spells (globSource fuel pattern) terms (GlobMatch OneLine pattern) := by
  induction rule generalizing fuel with
  | nil =>
      refine ⟨[], ?_, by simp, by simp, ?_⟩
      · cases fuel <;> rfl
      · intro path
        rw [List.map_nil, List.map_nil, List.prod_nil, Language.mem_one]
        constructor
        · rintro rfl
          exact .nil
        · rintro ⟨⟩
          rfl
  | dirs _ ih =>
      cases fuel with
      | zero => cases enough
      | succ fuel =>
          rw [List.length_append] at enough
          change 3 + _ ≤ _ at enough
          obtain ⟨terms, spells⟩ := @ih fuel (by omega)
          refine ⟨_, spells.cons readsAsTerm_directories rfl fun path => ?_⟩
          rw [globMatch_dirs]
          simp only [mem_directories]
          constructor
          · rintro ⟨directories, rest, members, matched, rfl⟩
            exact ⟨_, ⟨directories, members, rfl⟩, rest, matched, rfl⟩
          · rintro ⟨_, ⟨directories, members, rfl⟩, rest, matched, rfl⟩
            exact ⟨directories, rest, members, matched, rfl⟩
  | rest =>
      obtain ⟨fuel, rfl⟩ := Nat.exists_eq_add_of_le' enough
      refine ⟨_, Spells.cons (?_ : Spells [] [] (· = [])) readsAsTerm_rest rfl fun path => ?_⟩
      · exact ⟨rfl, by simp, by simp, fun path => Language.mem_one path⟩
      · rw [globMatch_rest]
        simp only [mem_rest, exists_eq_left, List.append_nil, exists_eq_right]
  | star single _ ih =>
      cases fuel with
      | zero => cases enough
      | succ fuel =>
          obtain ⟨terms, spells⟩ := ih (Nat.le_of_succ_le_succ enough)
          rw [globSource_star single]
          refine ⟨_, spells.cons readsAsTerm_run rfl fun path => ?_⟩
          rw [globMatch_star single]
          simp only [mem_run]
          constructor
          · rintro ⟨run, rest, inside, matched, rfl⟩
            exact ⟨run, inside, rest, matched, rfl⟩
          · rintro ⟨run, inside, rest, matched, rfl⟩
            exact ⟨run, rest, inside, matched, rfl⟩
  | unit other notAny notBrace _ ih =>
      cases fuel with
      | zero => cases enough
      | succ fuel =>
          obtain ⟨terms, spells⟩ := ih (Nat.le_of_succ_le_succ enough)
          rw [globSource_unit other notAny notBrace]
          refine ⟨_, spells.cons (readsAsTerm_unit _) rfl fun path => ?_⟩
          rw [globMatch_unit other]
          simp only [RegExp.mem_language_literal, exists_eq_left]
          constructor
          · rintro ⟨rest, matched, rfl⟩
            exact ⟨rest, matched, rfl⟩
          · rintro ⟨rest, matched, rfl⟩
            exact ⟨rest, matched, rfl⟩

theorem RuleGlob.parse_test (rule : RuleGlob pattern) :
    ∃ re, RegExp.parse (js "^" ++ globSource pattern.length pattern ++ js "$") = some re ∧
      ∀ path, re.test path = true ↔ GlobMatch OneLine pattern path := by
  obtain ⟨terms, spells⟩ := rule.spells (Nat.le_refl _)
  refine ⟨_, by rw [spells.source, RegExp.parse_anchored spells.reads], fun path => ?_⟩
  rw [← spells.language path]
  refine RegExp.test_anchored (fun term member => ?_) path
  obtain ⟨entry, inside, rfl⟩ := List.mem_map.mp member
  exact spells.plain entry inside

/-! What a trailing `**` takes, apart from the directory before it. -/

/-- A trailing `**` has a slash of its own before it. -/
def wholeDirectory (pattern : JsString) : Bool :=
  !(js "**").isSuffixOf pattern ||
    ((js "/**").isSuffixOf pattern && !(js "**/**").isSuffixOf pattern)

variable {pattern path : JsString}

theorem GlobMatch.mem
    (matched : GlobMatch takes pattern path) {unit : CodeUnit} (letter : unit ∉ js "*/")
    (inside : unit ∈ pattern) : unit ∈ path := by
  induction matched with
  | nil => exact inside
  | dirs members _ ih =>
      cases List.mem_append.mp inside with
      | inl own =>
          have both : unit ∈ js "*/" := by
            cases own with
            | head => exact List.mem_cons_self
            | tail _ own => exact own
          exact absurd both letter
      | inr later => exact List.mem_append_right _ (ih later)
  | rest _ =>
      have star : unit ∈ js "*/" := by
        cases inside with
        | head => exact List.mem_cons_self
        | tail _ own =>
            cases own with
            | head => exact List.mem_cons_self
            | tail _ own => cases own
      exact absurd star letter
  | star _ _ _ ih =>
      cases inside with
      | head => exact absurd List.mem_cons_self letter
      | tail _ later => exact List.mem_append_right _ (ih later)
  | unit _ _ ih =>
      cases inside with
      | head => exact List.mem_cons_self
      | tail _ later => exact List.mem_cons_of_mem _ (ih later)

theorem GlobMatch.free {takes others : JsString → Prop}
    (matched : GlobMatch takes pattern path) (noRest : ¬ js "**" <:+ pattern) :
    GlobMatch others pattern path := by
  induction matched with
  | nil => exact .nil
  | dirs members _ ih =>
      exact .dirs members (ih fun suffix => noRest (suffix.trans (List.suffix_append _ _)))
  | rest _ => exact absurd (List.suffix_refl _) noRest
  | star single inside _ ih =>
      exact .star single inside (ih fun suffix => noRest (suffix.trans (List.suffix_cons _ _)))
  | unit other _ ih =>
      exact .unit other (ih fun suffix => noRest (suffix.trans (List.suffix_cons _ _)))

variable {dir : JsString}

theorem GlobMatch.appendRest {front rest : JsString}
    (matched : GlobMatch takes dir front) (last : dir.getLast? ≠ some 0x2A) (taken : takes rest) :
    GlobMatch takes (dir ++ js "**") (front ++ rest) := by
  induction matched with
  | nil => exact .rest taken
  | @dirs directories pattern path members _ ih =>
      rw [List.append_assoc, List.append_assoc]
      refine .dirs members (ih ?_)
      cases pattern with
      | nil => simp
      | cons unit pattern => rwa [List.getLast?_append_of_ne_nil _ (by simp)] at last
  | rest _ => exact absurd rfl last
  | @star run pattern path single inside _ ih =>
      cases pattern with
      | nil => exact absurd rfl last
      | cons unit pattern =>
          rw [List.getLast?_cons_cons] at last
          rw [List.append_assoc]
          exact .star single inside (ih last)
  | @unit unit pattern path other _ ih =>
      refine .unit other (ih ?_)
      cases pattern with
      | nil => simp
      | cons unit pattern => rwa [List.getLast?_cons_cons] at last

theorem GlobMatch.splitRest {path : JsString} (matched : GlobMatch takes (dir ++ js "**") path) :
    ∃ front rest, path = front ++ rest ∧ takes rest ∧ GlobMatch takes dir front := by
  generalize same : dir ++ js "**" = whole at matched
  induction matched generalizing dir with
  | nil => cases dir <;> cases same
  | @dirs directories pattern path members _ ih =>
      have spelled : js "**/" ++ pattern = 0x2A :: 0x2A :: 0x2F :: pattern := rfl
      rw [spelled] at same
      match dir, same with
      | first :: second :: third :: dir, same =>
          obtain ⟨rfl, rfl, rfl, tail⟩ : first = 0x2A ∧ second = 0x2A ∧ third = 0x2F ∧
              dir ++ js "**" = pattern := by simpa using same
          obtain ⟨front, rest, rfl, taken, matched⟩ := ih tail
          exact ⟨_, rest, (List.append_assoc ..).symm, taken, .dirs members matched⟩
  | rest taken =>
      obtain rfl : dir = [] := by
        have length := congrArg List.length same
        rw [List.length_append] at length
        exact List.length_eq_zero_iff.mp (Nat.add_eq_right.mp length)
      exact ⟨[], _, rfl, taken, .nil⟩
  | @star run pattern path single inside _ ih =>
      cases dir with
      | nil =>
          cases same
          exact absurd rfl single
      | cons unit dir =>
          rw [List.cons_append] at same
          obtain ⟨rfl, tail⟩ := List.cons.inj same
          obtain ⟨front, rest, rfl, taken, matched⟩ := ih tail
          refine ⟨_, rest, (List.append_assoc ..).symm, taken, .star ?_ inside matched⟩
          rintro next
          apply single
          rw [← tail, List.head?_append, next]
          rfl
  | unit other _ ih =>
      cases dir with
      | nil =>
          cases same
          exact absurd rfl other
      | cons unit dir =>
          rw [List.cons_append] at same
          obtain ⟨rfl, tail⟩ := List.cons.inj same
          obtain ⟨front, rest, rfl, taken, matched⟩ := ih tail
          exact ⟨_, rest, rfl, taken, .unit other matched⟩

theorem GlobMatch.ends_in_slash {front : JsString}
    (matched : GlobMatch takes dir front) (last : dir.getLast? = some slash)
    (own : ¬ js "**/" <:+ dir) : front.getLast? = some slash := by
  induction matched with
  | nil => cases last
  | @dirs directories pattern path members _ ih =>
      cases pattern with
      | nil => exact absurd (List.suffix_refl _) own
      | cons unit pattern =>
          rw [List.getLast?_append_of_ne_nil _ (by simp)] at last
          have ended := ih last fun suffix => own (suffix.trans (List.suffix_append _ _))
          rw [List.getLast?_append, ended]
          rfl
  | rest _ => cases last
  | @star run pattern path _ _ _ ih =>
      cases pattern with
      | nil => cases last
      | cons unit pattern =>
          rw [List.getLast?_cons_cons] at last
          have ended := ih last fun suffix => own (suffix.trans (List.suffix_cons _ _))
          rw [List.getLast?_append, ended]
          rfl
  | @unit unit pattern path _ matched ih =>
      cases pattern with
      | nil =>
          cases matched
          exact last
      | cons next pattern =>
          rw [List.getLast?_cons_cons] at last
          have ended := ih last fun suffix => own (suffix.trans (List.suffix_cons _ _))
          rw [List.getLast?_cons, ended]
          rfl

theorem not_suffix_of_last (last : pattern.getLast? = some slash) :
    ¬ js "**" <:+ pattern := by
  rintro ⟨front, rfl⟩
  rw [List.getLast?_append_of_ne_nil _ (by decide)] at last
  cases last

theorem wholeDirectory_append (whole : wholeDirectory (dir ++ js "**") = true) :
    dir.getLast? = some slash ∧ ¬ js "**/" <:+ dir := by
  have ends : (js "**").isSuffixOf (dir ++ js "**") = true :=
    List.isSuffixOf_iff_suffix.mpr (List.suffix_append _ _)
  rw [wholeDirectory, ends, Bool.not_true, Bool.false_or, Bool.and_eq_true,
    List.isSuffixOf_iff_suffix, Bool.not_eq_true', ← Bool.not_eq_true,
    List.isSuffixOf_iff_suffix] at whole
  obtain ⟨⟨front, split⟩, own⟩ := whole
  constructor
  · have spelled : js "/**" = [slash] ++ js "**" := rfl
    rw [spelled, ← List.append_assoc] at split
    rw [← List.append_cancel_right split, List.getLast?_concat]
  · rintro ⟨front, rfl⟩
    apply own
    refine ⟨front, ?_⟩
    rw [List.append_assoc]
    rfl

theorem Crossed.globMatch (crossed : Crossed pattern path)
    (whole : wholeDirectory pattern = true) : GlobMatch (· ≠ []) pattern path := by
  obtain ⟨dir, rfl, ⟨front, rest, rfl, some, matched⟩, -⟩ := crossed
  refine matched.appendRest ?_ some
  rw [(wholeDirectory_append whole).1]
  decide

/-- Where a rule's glob ends in a `**` of its own, one line and any rest that is not empty are
told apart by a directory's paths that cross a line, and by no others. -/
theorem globMatch_lines (whole : wholeDirectory pattern = true)
    (last : path.getLast? ≠ some slash) :
    (GlobMatch OneLine pattern path ↔ GlobMatch (· ≠ []) pattern path) ↔ ¬ Crossed pattern
    path := by
  by_cases ends : js "**" <:+ pattern
  · obtain ⟨dir, rfl⟩ := ends
    obtain ⟨slashed, own⟩ := wholeDirectory_append whole
    have noRest := not_suffix_of_last slashed
    have notStar : dir.getLast? ≠ some 0x2A := by
      rw [slashed]
      decide
    have same {takes others : JsString → Prop} {front : JsString}
        (matched : GlobMatch takes dir front) : GlobMatch others dir front :=
      matched.free noRest
    constructor
    · intro agree crossed
      obtain ⟨front, rest, split, oneLine, matched⟩ :=
        (agree.mpr (crossed.globMatch whole)).splitRest
      obtain ⟨other, spelled, -, crosses⟩ := crossed
      obtain rfl := List.append_cancel_right spelled
      have some : rest ≠ [] := by
        rintro rfl
        rw [List.append_nil] at split
        rw [split] at last
        exact last (matched.ends_in_slash slashed own)
      obtain ⟨unit, member, terminator⟩ := crosses front rest split some (same matched)
      rw [oneLine unit member] at terminator
      cases terminator
    · intro notCrossed
      constructor
      · intro matched
        obtain ⟨front, rest, rfl, -, under⟩ := matched.splitRest
        refine (same under).appendRest notStar ?_
        rintro rfl
        rw [List.append_nil] at last
        exact last (under.ends_in_slash slashed own)
      · intro matched
        obtain ⟨front, rest, split, some, matched⟩ := matched.splitRest
        by_contra crossing
        apply notCrossed
        refine ⟨dir, rfl, ⟨front, rest, split, some, matched⟩, ?_⟩
        intro front rest split _ matched
        by_contra none
        push Not at none
        apply crossing
        rw [split]
        exact (same matched).appendRest notStar fun unit member =>
          Bool.of_not_eq_true (none unit member)
  · constructor
    · rintro - ⟨dir, rfl, -⟩
      exact ends (List.suffix_append _ _)
    · intro _
      exact ⟨fun matched => matched.free ends, fun matched => matched.free ends⟩

end AshlrHub.Authority
