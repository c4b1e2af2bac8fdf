import AshlrHub.Fleet.RepoHoldsKept

namespace AshlrHub.RepoHolds

open Js Authority Lib

/-! What every run of calls keeps. -/

section

variable {parseDate : JsString → Option ℤ} {scrub : JsString → JsString}

/-! A request to set. -/

structure RepoHoldSpec.Checked (parseDate : JsString → Option ℤ) (nowMs : ℤ)
    (spec : RepoHoldSpec) : Prop where
  reason : spec.reason.length ≤ maxReasonChars
  iso : ∀ text ∈ spec.until', isIso parseDate text = true
  later : ∀ text ∈ spec.until', ∀ time ∈ parseDate text, nowMs < time
  landingId : ∀ text ∈ spec.landingId, text.length ≤ maxLandingIdChars

theorem length_cleanReason_holds {reason text : JsString}
    (cleaned : cleanReason scrub reason = some text) : text.length ≤ maxReasonChars := by
  unfold cleanReason at cleaned
  dsimp only at cleaned
  split_ifs at cleaned with empty long
  · obtain rfl := Option.some.inj cleaned
    rw [List.length_append, List.length_take, List.length_singleton, maxReasonChars]
    omega
  · obtain rfl := Option.some.inj cleaned
    exact Nat.not_lt.mp long

variable {holds : List RepoHold} {records : Records} {turn : Turn} {nowMs : ℤ}
  {req : SetRepoHoldRequest}

theorem checkSpec_ok {spec checked : RepoHoldSpec}
    (passed : checkSpec parseDate scrub nowMs req spec = .ok checked) :
    checked.Checked parseDate nowMs := by
  unfold checkSpec at passed
  cases cleaned : cleanReason scrub spec.reason with
  | none =>
      rw [cleaned] at passed
      cases passed
  | some reason =>
      simp only [cleaned] at passed
      split_ifs at passed with iso past landing may
      obtain rfl := Except.ok.inj passed
      refine ⟨length_cleanReason_holds cleaned, ?_, ?_, ?_⟩
      · rw [Bool.not_eq_false, Option.all_eq_true] at iso
        exact fun text present => iso text present
      · intro text present time parsed
        refine lt_of_not_ge fun early => past ?_
        rw [Option.mem_def.mp present, Option.any_some, Option.mem_def.mp parsed, Option.any_some]
        exact decide_eq_true early
      · rw [Bool.not_eq_false, Option.all_eq_true] at landing
        intro text present
        exact of_decide_eq_true (Bool.and_eq_true _ _ ▸ landing text present).1

theorem isIso_toISOString {since : JsString}
    (reads : parseDate since = some nowMs) (formatted : toISOString nowMs = some since) :
    isIso parseDate since = true := by
  rw [isIso, reads, Option.isSome_some, Bool.and_true]
  exact decide_eq_true ((length_toISOString_le formatted).trans (by decide))

variable {hold : RepoHold} {spec : RepoHoldSpec} {weather : Weather}

theorem active_of_later (checked : spec.Checked parseDate nowMs)
    (same : hold.until' = spec.until') : isHoldActive parseDate hold nowMs = true := by
  rw [isHoldActive, same]
  cases expires : spec.until' with
  | none => rfl
  | some text =>
      have iso := checked.iso text expires
      rw [isIso, Bool.and_eq_true] at iso
      obtain ⟨time, parsed⟩ := Option.isSome_iff_exists.mp iso.2
      simp only [parsed, Option.any_some]
      exact decide_eq_true (checked.later text expires time parsed)

theorem active_laterUntil {nowMs time : ℤ}
    (checked : spec.Checked parseDate nowMs) {hold after : RepoHold}
    (later : after.until' = laterUntil parseDate hold.until' spec.until')
    (active : isHoldActive parseDate hold time = true) :
    isHoldActive parseDate after time = true := by
  rw [isHoldActive] at active ⊢
  rw [later]
  cases held : hold.until' with
  | none => rfl
  | some first =>
      cases asked : spec.until' with
      | none => rfl
      | some second =>
          rw [held] at active
          dsimp only at active
          have iso := checked.iso second asked
          rw [isIso, Bool.and_eq_true] at iso
          obtain ⟨latest, parsed⟩ := Option.isSome_iff_exists.mp iso.2
          cases former : parseDate first with
          | none =>
              rw [former] at active
              cases active
          | some ends =>
              rw [former, Option.any_some, decide_eq_true_eq] at active
              simp only [laterUntil, former, parsed]
              by_cases sooner : latest ≤ ends
              · simp only [if_pos sooner, former, Option.any_some]
                exact decide_eq_true active
              · simp only [if_neg sooner, parsed, Option.any_some]
                exact decide_eq_true (active.trans (lt_of_not_ge sooner))

theorem mem_laterUntil {first second : Option JsString} {text : JsString}
    (chosen : text ∈ laterUntil parseDate first second) : text ∈ first ∨ text ∈ second := by
  cases first with
  | none => cases chosen
  | some a =>
      cases second with
      | none => cases chosen
      | some b =>
          dsimp only [laterUntil] at chosen
          cases one : parseDate a with
          | none =>
              rw [one] at chosen
              exact .inr chosen
          | some ends =>
              cases other : parseDate b with
              | none =>
                  rw [one, other] at chosen
                  exact .inr chosen
              | some latest =>
                  simp only [one, other] at chosen
                  split_ifs at chosen
                  · exact .inl chosen
                  · exact .inr chosen

structure ChangedHold (parseDate : JsString → Option ℤ) (nowMs : ℤ) (req : SetRepoHoldRequest)
    (before : Option RepoHold) (after : RepoHold) : Prop where
  valid : after.Valid parseDate
  named : after.isFor req.repo req.kind = true
  active : isHoldActive parseDate after nowMs = true
  guarded : req.actor ∉ (holdPermissions req.kind).mayClear → ∀ hold ∈ before, ∀ time,
    isHoldActive parseDate hold time = true → isHoldActive parseDate after time = true

theorem changedHold_some {before : Option RepoHold} {after : RepoHold}
    (readsBack : ∀ time text, toISOString time = some text → parseDate text = some time)
    (checked : spec.Checked parseDate nowMs) (repo : nameWithOwnerPattern req.repo = true)
    (found : ∀ hold ∈ before, hold.Valid parseDate ∧ hold.isFor req.repo req.kind = true ∧
      isHoldActive parseDate hold nowMs = true)
    (changed : changedHold parseDate nowMs req spec before = some after) :
    ChangedHold parseDate nowMs req before after := by
  have fresh : ∀ name since : JsString, nameWithOwnerPattern name = true →
      toLowerCase name = toLowerCase req.repo → toISOString nowMs = some since →
      (⟨name, req.kind, spec.reason, since, spec.until', req.actor, spec.landingId⟩ :
        RepoHold).Valid parseDate ∧
      (⟨name, req.kind, spec.reason, since, spec.until', req.actor, spec.landingId⟩ :
        RepoHold).isFor req.repo req.kind = true ∧
      isHoldActive parseDate
        ⟨name, req.kind, spec.reason, since, spec.until', req.actor, spec.landingId⟩ nowMs =
          true := by
    intro name since pattern same formatted
    have reason : spec.reason.length ≤ maxReasonChars * 2 :=
      checked.reason.trans (by decide)
    exact ⟨⟨pattern, reason, isIso_toISOString (readsBack nowMs since formatted) formatted,
      checked.iso, checked.landingId⟩, isFor_iff.mpr (Prod.ext same rfl),
      active_of_later checked rfl⟩
  cases before with
  | none =>
      obtain ⟨since, formatted, rfl⟩ := Option.map_eq_some_iff.mp changed
      obtain ⟨valid, named, active⟩ := fresh req.repo since repo rfl formatted
      exact ⟨valid, named, active, fun _ _ absent => nomatch absent⟩
  | some hold =>
      obtain ⟨held, named, running⟩ := found hold rfl
      unfold changedHold at changed
      dsimp only at changed
      split_ifs at changed with may
      · obtain rfl := Option.some.inj changed
        have reason : spec.reason.length ≤ maxReasonChars * 2 :=
          checked.reason.trans (by decide)
        have landing : ∀ text ∈ spec.landingId.or hold.landingId,
            text.length ≤ maxLandingIdChars := by
          cases asked : spec.landingId with
          | none => exact held.landingId
          | some text => simpa [asked] using checked.landingId text asked
        have iso : ∀ text ∈ laterUntil parseDate hold.until' spec.until',
            isIso parseDate text = true :=
          fun text chosen => (mem_laterUntil chosen).elim (held.until' text) (checked.iso text)
        refine ⟨⟨held.repo, reason, held.since, iso, landing⟩, named,
          active_laterUntil checked rfl running, ?_⟩
        intro _ other same time active
        obtain rfl := Option.some.inj same
        exact active_laterUntil checked rfl active
      · obtain ⟨since, formatted, rfl⟩ := Option.map_eq_some_iff.mp changed
        obtain ⟨valid, ours, active⟩ := fresh hold.repo since held.repo
          (congrArg Prod.fst (isFor_iff.mp named)) formatted
        refine ⟨valid, ours, active, fun barred => absurd ?_ barred⟩
        exact List.contains_iff_mem.mp (Bool.not_eq_false _ ▸ may)

/-! The effects of a call on the files. -/

theorem applyAll_file (effects : List Effect) (records : Records) :
    (records.applyAll effects).file = records.file ∨
      ∃ file, Effect.install file ∈ effects ∧ (records.applyAll effects).file = some file := by
  induction effects generalizing records with
  | nil => exact .inl rfl
  | cons effect effects ih =>
      rcases ih (records.apply effect) with same | ⟨file, member, installed⟩
      · cases effect with
        | append row => exact .inl same
        | install file => exact .inr ⟨file, List.mem_cons_self, same⟩
      · exact .inr ⟨file, List.mem_cons_of_mem _ member, installed⟩

theorem front_of_install {rows front back : List Effect} {last file : JsValue}
    (only : ∀ other, Effect.install other ∉ rows)
    (split : rows ++ [.install last] = front ++ .install file :: back) :
    front = rows ∧ file = last := by
  rcases snoc_split split with ⟨first, same, -⟩ | ⟨rest, -, earlier⟩
  · exact ⟨first, Effect.install.inj same⟩
  · exact absurd (earlier ▸ by simp) (only file)

structure Keeps (parseDate : JsString → Option ℤ) (call : HoldCall) (nowMs : ℤ)
    (holds kept : List RepoHold) : Prop where
  accepted : Accepted parseDate kept
  guarded : ∀ hold ∈ holds, isHoldActive parseDate hold nowMs = true →
    call.actor ∉ (holdPermissions hold.kind).mayClear →
    ∃ other ∈ kept, other.isFor hold.repo hold.kind = true ∧
      ∀ time, isHoldActive parseDate hold time = true → isHoldActive parseDate other time = true
  owners : ∀ hold ∈ holds, isHoldActive parseDate hold nowMs = true → hold.kind = .ownerHold →
    (∃ other ∈ kept, other.isFor hold.repo hold.kind = true ∧
      isHoldActive parseDate other nowMs = true) ∨
    ∃ req, call = .setRepoHold req ∧ req.hold = none ∧ req.actor = .mason ∧
      hold.isFor req.repo req.kind = true

/-- The holds that a `setRepoHold` works on. -/
def liveHolds (parseDate : JsString → Option ℤ) (nowMs : ℤ) (holds : List RepoHold) :
    List RepoHold :=
  holds.filter fun hold => isHoldActive parseDate hold nowMs

theorem mem_liveHolds :
    hold ∈ liveHolds parseDate nowMs holds ↔
      hold ∈ holds ∧ isHoldActive parseDate hold nowMs = true :=
  List.mem_filter

theorem distinct_liveHolds
    (distinct : (holds.map RepoHold.key).Nodup) :
    ((liveHolds parseDate nowMs holds).map RepoHold.key).Nodup :=
  ((List.filter_sublist (l := holds)).map RepoHold.key).nodup distinct

theorem isFor_congr {first second : RepoHold} {repo : JsString} {kind : RepoHoldKind}
    (one : first.isFor repo kind = true) (other : second.isFor repo kind = true) :
    first.isFor second.repo second.kind = true :=
  isFor_iff.mpr ((isFor_iff.mp one).trans (isFor_iff.mp other).symm)

theorem clear_keeps {req : SetRepoHoldRequest} {nowMs : ℤ} {holds : List RepoHold}
    (accepted : Accepted parseDate holds) (clears : req.hold = none)
    (may : req.actor ∈ (holdPermissions req.kind).mayClear) :
    Keeps parseDate (.setRepoHold req) nowMs holds
      ((liveHolds parseDate nowMs holds).eraseP (·.isFor req.repo req.kind)) where
  accepted := accepted.sublist (List.eraseP_sublist.trans List.filter_sublist)
  guarded hold present active barred := by
    have other : hold.isFor req.repo req.kind = false := by
      refine Bool.eq_false_iff.mpr fun named => barred ?_
      rw [show hold.kind = req.kind from congrArg Prod.snd (isFor_iff.mp named)]
      exact may
    refine ⟨hold, ?_, isFor_self hold, fun _ => id⟩
    exact (mem_erase (distinct_liveHolds accepted.distinct)).mpr
      ⟨mem_liveHolds.mpr ⟨present, active⟩, other⟩
  owners hold present active owner := by
    cases named : hold.isFor req.repo req.kind with
    | false =>
        refine .inl ⟨hold, ?_, isFor_self hold, active⟩
        exact (mem_erase (distinct_liveHolds accepted.distinct)).mpr
          ⟨mem_liveHolds.mpr ⟨present, active⟩, named⟩
    | true =>
        have kind : hold.kind = req.kind := congrArg Prod.snd (isFor_iff.mp named)
        rw [← kind, owner] at may
        exact .inr ⟨req, rfl, clears, List.mem_singleton.mp may, named⟩

theorem set_keeps {holds kept : List RepoHold}
    {after : RepoHold} (distinct : (holds.map RepoHold.key).Nodup)
    (valid : ∀ hold ∈ holds, hold.Valid parseDate)
    (changed : ChangedHold parseDate nowMs req
      ((liveHolds parseDate nowMs holds).find? (·.isFor req.repo req.kind)) after)
    (placed : Placed (liveHolds parseDate nowMs holds) kept after)
    (bytes : storeBytes (storeValue kept) ≤ maxStoreBytes) :
    Keeps parseDate (.setRepoHold req) nowMs holds kept := by
  -- An active hold is kept as it is, or it is the one that is changed.
  have either : ∀ hold ∈ holds, isHoldActive parseDate hold nowMs = true →
      hold ∈ kept ∨ (after ∈ kept ∧ after.isFor hold.repo hold.kind = true ∧
        hold.kind = req.kind ∧
        (liveHolds parseDate nowMs holds).find? (·.isFor req.repo req.kind) = some hold) := by
    intro hold present active
    have live := mem_liveHolds.mpr ⟨present, active⟩
    by_cases same : hold.key = after.key
    · have named : hold.isFor req.repo req.kind = true :=
        isFor_iff.mpr (same.trans (isFor_iff.mp changed.named))
      refine .inr ⟨(placed.mem after).mpr (.inl rfl), isFor_congr changed.named named,
        congrArg Prod.snd (isFor_iff.mp named), ?_⟩
      cases found : (liveHolds parseDate nowMs holds).find? (·.isFor req.repo req.kind) with
      | none => exact absurd named (List.find?_eq_none.mp found hold live)
      | some first =>
          have matched := List.find?_some found
          rw [eq_of_key_eq (distinct_liveHolds distinct) (List.mem_of_find?_eq_some found) live
            ((isFor_iff.mp matched).trans (isFor_iff.mp named).symm)]
    · exact .inl ((placed.mem hold).mpr (.inr ⟨live, same⟩))
  refine ⟨⟨fun hold present => ?_, placed.length, placed.distinct, bytes⟩, ?_, ?_⟩
  · rcases (placed.mem hold).mp present with rfl | ⟨live, -⟩
    · exact changed.valid
    · exact valid hold (mem_liveHolds.mp live).1
  · intro hold present active barred
    rcases either hold present active with same | ⟨placedAfter, named, kind, found⟩
    · exact ⟨hold, same, isFor_self hold, fun _ => id⟩
    · rw [kind] at barred
      exact ⟨after, placedAfter, named, changed.guarded barred hold found⟩
  · intro hold present active _
    rcases either hold present active with same | ⟨placedAfter, named, -, -⟩
    · exact .inl ⟨hold, same, isFor_self hold, active⟩
    · exact .inl ⟨after, placedAfter, named, changed.active⟩

/-! A sweep. -/

def expiredHolds (parseDate : JsString → Option ℤ) (nowMs : ℤ) (holds : List RepoHold) :
    List RepoHold :=
  holds.filter fun hold => isHoldActive parseDate hold nowMs = false

def sweepRows (weather : Weather) (expired : List RepoHold) : List Effect :=
  expired.flatMap fun hold => (ledgerHold weather (expiredRow hold)).1

def sweptHolds (weather : Weather) (expired : List RepoHold) : List RepoHold :=
  expired.filter fun hold => (ledgerHold weather (expiredRow hold)).2

theorem install_notMem_sweepRows (weather : Weather) (expired : List RepoHold)
    (file : JsValue) : Effect.install file ∉ sweepRows weather expired := by
  intro member
  obtain ⟨hold, -, inside⟩ := List.mem_flatMap.mp member
  rcases ledgerHold_cases weather (expiredRow hold) with ⟨appended, -⟩ | ⟨appended, -⟩
  · rw [appended, List.mem_singleton] at inside
    cases inside
  · rw [appended] at inside
    cases inside

theorem append_mem_sweepRows {expired : List RepoHold} (swept : hold ∈ sweptHolds weather expired) :
    Effect.append (expiredRow hold) ∈ sweepRows weather expired := by
  obtain ⟨present, accepted⟩ := List.mem_filter.mp swept
  refine List.mem_flatMap.mpr ⟨hold, present, ?_⟩
  rcases ledgerHold_cases weather (expiredRow hold) with ⟨appended, -⟩ | ⟨-, refused, -⟩
  · rw [appended]
    exact List.mem_cons_self
  · rw [refused] at accepted
    cases accepted

theorem sweep_cases {records : Records} {weather : Weather} {nowMs : ℤ} {holds : List RepoHold}
    (found : readStoreUnlocked parseDate weather.look records.file = .ok holds) :
    ((sweepExpiredRepoHolds parseDate records weather nowMs).1 =
        sweepRows weather (expiredHolds parseDate nowMs holds) ∧
      (weather.write = .done → sweptHolds weather (expiredHolds parseDate nowMs holds) ≠ [] →
        maxStoreBytes < storeBytes (storeValue (holds.filter fun hold =>
          hold ∉ sweptHolds weather (expiredHolds parseDate nowMs holds))))) ∨
    (sweepExpiredRepoHolds parseDate records weather nowMs).1 = [] ∧ weather.locked = false ∨
    ((sweepExpiredRepoHolds parseDate records weather nowMs).1 =
        sweepRows weather (expiredHolds parseDate nowMs holds) ++
          [.install (storeValue (holds.filter fun hold =>
            hold ∉ sweptHolds weather (expiredHolds parseDate nowMs holds)))] ∧
      storeBytes (storeValue (holds.filter fun hold =>
        hold ∉ sweptHolds weather (expiredHolds parseDate nowMs holds))) ≤ maxStoreBytes) := by
  unfold sweepExpiredRepoHolds
  by_cases locked : weather.locked = false
  · simp only [if_pos locked]
    exact .inr (.inl ⟨trivial, locked⟩)
  · simp only [if_neg locked, found]
    by_cases none : sweptHolds weather (expiredHolds parseDate nowMs holds) = []
    · have empty := none
      unfold sweptHolds expiredHolds at empty
      rw [if_pos empty]
      exact .inl ⟨rfl, fun _ some => absurd none some⟩
    · have filled := none
      unfold sweptHolds expiredHolds at filled
      rw [if_neg filled]
      rcases writeStoreUnlocked_cases weather.write (holds.filter fun hold =>
          hold ∉ sweptHolds weather (expiredHolds parseDate nowMs holds)) with
        ⟨nothing, -, size⟩ | ⟨installed, size, -⟩
      · refine .inl ⟨?_, fun done _ => size done⟩
        change _ ++ (writeStoreUnlocked weather.write (holds.filter fun hold =>
          hold ∉ sweptHolds weather (expiredHolds parseDate nowMs holds))).1 = _
        rw [nothing, List.append_nil]
        rfl
      · refine .inr (.inr ⟨?_, size⟩)
        change _ ++ (writeStoreUnlocked weather.write (holds.filter fun hold =>
          hold ∉ sweptHolds weather (expiredHolds parseDate nowMs holds))).1 = _
        rw [installed]
        rfl

theorem active_unswept (active : isHoldActive parseDate hold nowMs = true) :
    hold ∉ sweptHolds weather (expiredHolds parseDate nowMs holds) := by
  intro swept
  have expired := (List.mem_filter.mp (List.mem_of_mem_filter swept)).2
  rw [decide_eq_true_eq, active] at expired
  cases expired

theorem sweep_keeps {weather : Weather} {nowMs : ℤ} {holds : List RepoHold}
    (accepted : Accepted parseDate holds) :
    Keeps parseDate .sweepExpiredRepoHolds nowMs holds (holds.filter fun hold =>
      hold ∉ sweptHolds weather (expiredHolds parseDate nowMs holds)) where
  accepted := accepted.sublist List.filter_sublist
  guarded hold present active _ :=
    ⟨hold, List.mem_filter.mpr ⟨present, decide_eq_true (active_unswept active)⟩,
      isFor_self hold, fun _ => id⟩
  owners hold present active _ :=
    .inl ⟨hold, List.mem_filter.mpr ⟨present, decide_eq_true (active_unswept active)⟩,
      isFor_self hold, active⟩

/-! The rows of a sweep. -/

theorem Mirrors.sweep {holds gone : List RepoHold} (part : gone.Sublist holds)
    (distinct : (holds.map RepoHold.key).Nodup) {rows : List HoldRow}
    (mirrors : Mirrors rows holds) :
    Mirrors (rows ++ gone.map expiredRow) (holds.filter fun hold => hold ∉ gone) := by
  induction gone using List.reverseRecOn with
  | nil => simpa using mirrors
  | append_singleton gone last ih =>
      have former := ih ((List.sublist_append_left gone [last]).trans part)
      rw [List.map_append, ← List.append_assoc]
      refine former.clear fun hold => ?_
      have inside : last ∈ holds := part.subset (by simp)
      simp only [List.mem_filter, decide_eq_true_eq, List.mem_append, List.mem_singleton, not_or]
      constructor
      · rintro ⟨present, kept, other⟩
        exact ⟨⟨present, kept⟩, fun same => other (eq_of_key_eq distinct present inside same)⟩
      · rintro ⟨⟨present, kept⟩, other⟩
        exact ⟨present, kept, fun same => other (congrArg RepoHold.key same)⟩

/-! A call as a whole. -/

structure Does (parseDate : JsString → Option ℤ) (turn : Turn) (records : Records)
    (holds : List RepoHold) (effects : List Effect) (reported : Bool) : Prop where
  keeps : ∀ file, Effect.install file ∈ effects →
    ∃ kept, file = storeValue kept ∧ Keeps parseDate turn.call turn.nowMs holds kept
  rowFirst : ∀ front kept back, effects = front ++ .install (storeValue kept) :: back →
    Accepted parseDate kept → ∀ hold ∈ holds,
    (∀ other ∈ kept, other.isFor hold.repo hold.kind = false) →
    ∃ reason actor, Effect.append (.cleared hold.repo hold.kind reason actor) ∈ front
  failing : reported = false → ∀ kept, Effect.install (storeValue kept) ∈ effects →
    Accepted parseDate kept →
    liveHolds parseDate turn.nowMs kept = liveHolds parseDate turn.nowMs holds
  mirrors : turn.Calm → Mirrors records.rows holds →
    Mirrors (records.applyAll effects).rows (storedHolds parseDate (records.applyAll effects).file)

variable {reported : Bool}

theorem Does.idle
    (reads : Reads parseDate records.file holds) :
    Does parseDate turn records holds [] reported where
  keeps _ member := by cases member
  rowFirst front _ _ split := by simp at split
  failing _ _ member := by cases member
  mirrors _ mirrors := by
    rw [← reads.stored] at mirrors
    exact mirrors

theorem storeValue_inj {first second : List RepoHold} (one : Accepted parseDate first)
    (other : Accepted parseDate second) (same : storeValue first = storeValue second) :
    first = second := by
  have parsed := parseStore_storeValue one
  rw [same, parseStore_storeValue other] at parsed
  exact (Except.ok.inj parsed).symm

structure Spared (parseDate : JsString → Option ℤ) (turn : Turn) (req : SetRepoHoldRequest)
    (holds : List RepoHold) : Prop where
  written : turn.weather.write ≠ .failed true
  live : ∀ hold ∈ holds, isHoldActive parseDate hold turn.nowMs = true ∨
    hold.isFor req.repo req.kind = true

theorem clear_does
    (called : turn.call = .setRepoHold req) (clears : req.hold = none)
    (reads : Reads parseDate records.file holds)
    (spared : (∃ file, Effect.install file ∈
      (clearHold turn.weather req (liveHolds parseDate turn.nowMs holds)).1) →
      Spared parseDate turn req holds) :
    Does parseDate turn records holds
      (clearHold turn.weather req (liveHolds parseDate turn.nowMs holds)).1
      (clearHold turn.weather req (liveHolds parseDate turn.nowMs holds)).2.ok := by
  rcases clearHold_cases turn.weather req (liveHolds parseDate turn.nowMs holds) with
    none | ⟨before, live, named, may, rest⟩
  · rw [none]
    exact .idle reads
  have present := (mem_liveHolds.mp live).1
  have accepted : Accepted parseDate holds := reads.accepted.resolve_left fun empty => by
    rw [empty] at present
    cases present
  have keeps := @clear_keeps parseDate req turn.nowMs holds accepted clears may
  have kind : before.kind = req.kind := congrArg Prod.snd (isFor_iff.mp named)
  have fewer : ∀ hold, hold ∈ (liveHolds parseDate turn.nowMs holds).eraseP
      (·.isFor req.repo req.kind) ↔
      (hold ∈ holds ∧ isHoldActive parseDate hold turn.nowMs = true) ∧
        hold.isFor req.repo req.kind = false := fun hold => by
    rw [mem_erase (distinct_liveHolds accepted.distinct), mem_liveHolds]
  rcases rest with ⟨effects, size⟩ | ⟨effects, size, threw⟩
  · rw [effects]
    refine ⟨fun _ member => ?_, fun front kept back split => ?_, fun _ kept member => ?_,
      fun calm => ?_⟩
    · rw [List.mem_singleton] at member
      cases member
    · have member : Effect.install (storeValue kept) ∈
          [Effect.append (clearedRow before.repo req.kind req.actor)] := split ▸ by simp
      rw [List.mem_singleton] at member
      cases member
    · rw [List.mem_singleton] at member
      cases member
    · exact absurd (size (calm.append _) calm.write) (Nat.not_lt.mpr keeps.accepted.bytes)
  · obtain ⟨written, alive⟩ := spared
      ⟨_, effects ▸ List.mem_cons_of_mem _ List.mem_cons_self⟩
    rw [effects]
    refine ⟨fun file member => ?_, ?_, fun failed => absurd (threw failed) written,
      fun calm mirrors => ?_⟩
    · rw [called]
      simp only [List.mem_cons, List.not_mem_nil, or_false, reduceCtorEq, false_or] at member
      exact ⟨_, Effect.install.inj member, keeps⟩
    · intro front kept back split accepts hold inside lacking
      obtain ⟨rfl, same⟩ := @front_of_install
        [.append (clearedRow before.repo req.kind req.actor)] _ _ _ _ (by simp) split
      have erased := storeValue_inj accepts keeps.accepted same
      subst erased
      by_cases ours : hold.isFor req.repo req.kind = true
      · have equal := eq_of_key_eq accepted.distinct present inside
          ((isFor_iff.mp named).trans (isFor_iff.mp ours).symm)
        subst equal
        refine ⟨js "cleared by " ++ JsEnum.text req.actor, req.actor, ?_⟩
        rw [kind]
        exact List.mem_cons_self
      · have stays := (fewer hold).mpr ⟨⟨inside, (alive hold inside).resolve_right ours⟩,
          Bool.eq_false_iff.mpr ours⟩
        have self := lacking hold stays
        rw [isFor_self] at self
        cases self
    · change Mirrors (records.rows ++ [clearedRow before.repo req.kind req.actor])
        (storedHolds parseDate (some (storeValue _)))
      rw [(Reads.found keeps.accepted).stored, clearedRow, ← kind]
      refine mirrors.clear fun hold => ?_
      rw [kind, fewer]
      constructor
      · rintro ⟨⟨inside, -⟩, other⟩
        refine ⟨inside, fun same => Bool.eq_false_iff.mp other ?_⟩
        exact isFor_iff.mpr (same.trans (isFor_iff.mp named))
      · rintro ⟨inside, other⟩
        have apart : hold.isFor req.repo req.kind = false := Bool.eq_false_iff.mpr fun ours =>
          other ((isFor_iff.mp ours).trans (isFor_iff.mp named).symm)
        refine ⟨⟨inside, (alive hold inside).resolve_right fun ours => ?_⟩, apart⟩
        rw [apart] at ours
        cases ours

theorem set_does (called : turn.call = .setRepoHold req)
    (readsBack : ∀ time text, toISOString time = some text → parseDate text = some time)
    (checked : spec.Checked parseDate turn.nowMs) (repo : nameWithOwnerPattern req.repo = true)
    (reads : Reads parseDate records.file holds)
    (spared : (∃ file, Effect.install file ∈ (setHold parseDate turn.weather turn.nowMs req spec
      (liveHolds parseDate turn.nowMs holds)).1) → Spared parseDate turn req holds) :
    Does parseDate turn records holds
      (setHold parseDate turn.weather turn.nowMs req spec (liveHolds parseDate turn.nowMs holds)).1
      ((setHold parseDate turn.weather turn.nowMs req spec
        (liveHolds parseDate turn.nowMs holds)).2.any (·.ok)) := by
  rcases setHold_cases turn.weather turn.nowMs req spec
      (liveHolds parseDate turn.nowMs holds) with
    none | ⟨after, kept, changed, placing, bytes, threw, effects⟩
  · rw [none]
    exact .idle reads
  have valid : ∀ hold ∈ holds, hold.Valid parseDate := by
    rcases reads.accepted with rfl | accepted
    · exact fun _ present => nomatch present
    · exact accepted.valid
  have room : (liveHolds parseDate turn.nowMs holds).length ≤ maxHolds := by
    refine (List.length_filter_le _ _).trans ?_
    rcases reads.accepted with rfl | accepted
    · exact Nat.zero_le _
    · exact accepted.length
  have found := changedHold_some readsBack checked repo (fun hold first => by
    have live := mem_liveHolds.mp (List.mem_of_find?_eq_some first)
    have named := List.find?_some first
    exact ⟨valid hold live.1, named, live.2⟩) changed
  have placed := placeHold_placed (distinct_liveHolds reads.distinct) room found.named placing
  have keeps := set_keeps reads.distinct valid found placed bytes
  have installs : ∃ rows, (setHold parseDate turn.weather turn.nowMs req spec
      (liveHolds parseDate turn.nowMs holds)).1 = .install (storeValue kept) :: rows ∧
      (∀ file, Effect.install file ∉ rows) ∧
      (turn.Calm → rows = [.append (.set after req.actor)]) := by
    rcases effects with both | ⟨alone, uncalm⟩
    · exact ⟨_, both, by simp, fun _ => rfl⟩
    · exact ⟨[], alone, by simp, fun calm => absurd calm.write (uncalm (calm.append _))⟩
  obtain ⟨rows, whole, bare, calmly⟩ := installs
  obtain ⟨written, alive⟩ := spared ⟨_, by rw [whole]; exact List.mem_cons_self⟩
  have mem : ∀ hold, hold ∈ kept ↔ hold = after ∨ (hold ∈ holds ∧ hold.key ≠ after.key) := by
    intro hold
    rw [placed.mem, mem_liveHolds]
    refine or_congr_right ⟨fun both => ⟨both.1.1, both.2⟩, fun both => ⟨⟨both.1, ?_⟩, both.2⟩⟩
    exact (alive hold both.1).resolve_right fun ours =>
      both.2 ((isFor_iff.mp ours).trans (isFor_iff.mp found.named).symm)
  rw [whole]
  refine ⟨fun file member => ?_, ?_, fun failed => absurd (threw failed) written,
    fun calm mirrors => ?_⟩
  · rw [called]
    rcases List.mem_cons.mp member with same | member
    · exact ⟨kept, Effect.install.inj same, keeps⟩
    · exact absurd member (bare file)
  · intro front other back split accepts hold inside lacking
    exfalso
    have same : storeValue other = storeValue kept := by
      have member : Effect.install (storeValue other) ∈
          Effect.install (storeValue kept) :: rows := split ▸ by simp
      rcases List.mem_cons.mp member with same | member
      · exact Effect.install.inj same
      · exact absurd member (bare _)
    obtain rfl := storeValue_inj accepts keeps.accepted same
    by_cases equal : hold.key = after.key
    · have missed := lacking after ((mem after).mpr (.inl rfl))
      rw [isFor_iff.mpr equal.symm] at missed
      cases missed
    · have missed := lacking hold ((mem hold).mpr (.inr ⟨inside, equal⟩))
      rw [isFor_self] at missed
      cases missed
  · rw [calmly calm]
    change Mirrors (records.rows ++ [.set after req.actor])
      (storedHolds parseDate (some (storeValue kept)))
    rw [(Reads.found keeps.accepted).stored]
    exact mirrors.set mem

theorem sweepRows_calm
    (recorded : ∀ row, weather.append row = .recorded) (expired : List RepoHold) :
    sweepRows weather expired = (expired.map expiredRow).map .append ∧
      sweptHolds weather expired = expired := by
  have each : ∀ row, ledgerHold weather row = ([.append row], true) := fun row => by
    rw [ledgerHold, recorded]
  constructor
  · rw [sweepRows, List.map_map]
    simp only [each]
    exact List.map_eq_flatMap.symm
  · rw [sweptHolds]
    simp only [each, List.filter_true]

theorem applyAll_rows (rows : List HoldRow) (records : Records) :
    records.applyAll (rows.map .append) = { records with rows := records.rows ++ rows } := by
  induction rows generalizing records with
  | nil => rw [List.append_nil]; rfl
  | cons row rows ih =>
      rw [List.map_cons]
      change (records.apply (.append row)).applyAll _ = _
      rw [ih]
      change ({ records with rows := (records.rows ++ [row]) ++ rows } : Records) = _
      rw [List.append_assoc]
      rfl

theorem sweep_unread
    (unread : ∀ read, readStoreUnlocked parseDate weather.look records.file = .ok read →
      read = []) : (sweepExpiredRepoHolds parseDate records weather nowMs).1 = [] := by
  unfold sweepExpiredRepoHolds
  by_cases locked : weather.locked = false
  · simp only [if_pos locked]
  · simp only [if_neg locked]
    cases found : readStoreUnlocked parseDate weather.look records.file with
    | error fault => rfl
    | ok read =>
        rw [unread read found]
        rfl

theorem sweep_does
    (called : turn.call = .sweepExpiredRepoHolds) (reads : Reads parseDate records.file holds)
    :
    Does parseDate turn records holds
      (sweepExpiredRepoHolds parseDate records turn.weather turn.nowMs).1 reported := by
  by_cases found : readStoreUnlocked parseDate turn.weather.look records.file = .ok holds
  swap
  · rw [sweep_unread fun read other => ?_]
    · exact .idle reads
    · rcases reads.look other with rfl | ⟨-, empty⟩
      · exact absurd other found
      · exact empty
  rcases reads.accepted with rfl | accepted
  · rw [sweep_unread fun read other => (Except.ok.inj (found.symm.trans other)).symm]
    exact .idle reads
  have keeps := @sweep_keeps parseDate turn.weather turn.nowMs holds accepted
  have bare := install_notMem_sweepRows turn.weather (expiredHolds parseDate turn.nowMs holds)
  have calmly : turn.Calm → _ := fun calm =>
    sweepRows_calm calm.append (expiredHolds parseDate turn.nowMs holds)
  have mirrored : ∀ rows, Mirrors rows holds →
      Mirrors (rows ++ (expiredHolds parseDate turn.nowMs holds).map expiredRow)
        (holds.filter fun hold => hold ∉ expiredHolds parseDate turn.nowMs holds) :=
    fun rows mirrors => mirrors.sweep List.filter_sublist accepted.distinct
  rcases @sweep_cases parseDate records turn.weather turn.nowMs holds found with
    ⟨effects, size⟩ | ⟨effects, -⟩ | ⟨effects, size⟩
  · rw [effects]
    refine ⟨fun file member => absurd member (bare file), fun front kept back split => ?_,
      fun _ kept member => absurd member (bare _), fun calm mirrors => ?_⟩
    · exact absurd (split ▸ by simp) (bare (storeValue kept))
    · obtain ⟨rows, swept⟩ := calmly calm
      rw [swept] at size keeps
      have none : expiredHolds parseDate turn.nowMs holds = [] := by
        by_contra some
        exact absurd (size calm.write some) (Nat.not_lt.mpr keeps.accepted.bytes)
      rw [none]
      change Mirrors records.rows (storedHolds parseDate records.file)
      rwa [reads.stored]
  · rw [effects]
    exact .idle reads
  · rw [effects]
    refine ⟨fun file member => ?_, ?_, fun _ kept member accepts => ?_, fun calm mirrors => ?_⟩
    · rcases List.mem_append.mp member with inside | last
      · exact absurd inside (bare file)
      · rw [called]
        exact ⟨_, Effect.install.inj (List.mem_singleton.mp last), keeps⟩
    · intro front kept back split accepts hold inside lacking
      obtain ⟨rfl, same⟩ := front_of_install bare split
      obtain rfl := storeValue_inj accepts keeps.accepted same
      have swept : hold ∈ sweptHolds turn.weather (expiredHolds parseDate turn.nowMs holds) := by
        by_contra stays
        have self := lacking hold (List.mem_filter.mpr ⟨inside, decide_eq_true stays⟩)
        rw [isFor_self] at self
        cases self
      exact ⟨_, _, append_mem_sweepRows swept⟩
    · rcases List.mem_append.mp member with inside | last
      · exact absurd inside (bare _)
      · obtain rfl := storeValue_inj accepts keeps.accepted
          (Effect.install.inj (List.mem_singleton.mp last))
        rw [liveHolds, liveHolds, List.filter_filter]
        refine List.filter_congr fun hold _ => ?_
        cases active : isHoldActive parseDate hold turn.nowMs with
        | false => rfl
        | true => exact decide_eq_true (active_unswept active)
    · obtain ⟨rows, swept⟩ := calmly calm
      have whole : ∀ effects : List Effect, ∀ file, records.applyAll (effects ++ [.install file]) =
          { records.applyAll effects with file := some file } := fun effects file => by
        rw [Records.applyAll, List.foldl_append]
        rfl
      rw [whole, rows, applyAll_rows, swept]
      rw [swept] at keeps
      change Mirrors (records.rows ++ _) (storedHolds parseDate (some (storeValue _)))
      rw [(Reads.found keeps.accepted).stored]
      exact mirrored records.rows mirrors

theorem setRepoHold_cases (records : Records) (weather : Weather) (nowMs : ℤ)
    (req : SetRepoHoldRequest) :
    (setRepoHold parseDate scrub records weather nowMs req).1 = [] ∨
    ∃ read, readStoreUnlocked parseDate weather.look records.file = .ok read ∧
      nameWithOwnerPattern req.repo = true ∧
      ((req.hold = none ∧ setRepoHold parseDate scrub records weather nowMs req =
          ((clearHold weather req (liveHolds parseDate nowMs read)).1,
            some (clearHold weather req (liveHolds parseDate nowMs read)).2)) ∨
        ∃ spec : RepoHoldSpec, spec.Checked parseDate nowMs ∧
          setRepoHold parseDate scrub records weather nowMs req =
            setHold parseDate weather nowMs req spec (liveHolds parseDate nowMs read)) := by
  unfold setRepoHold
  dsimp only
  by_cases repo : nameWithOwnerPattern req.repo = false
  · rw [if_pos repo]
    exact .inl rfl
  rw [if_neg repo]
  cases asked : req.hold with
  | none =>
      by_cases locked : weather.locked = false
      · simp only [if_pos locked]
        exact .inl trivial
      · simp only [if_neg locked]
        cases found : readStoreUnlocked parseDate weather.look records.file with
        | error fault => exact .inl rfl
        | ok read => exact .inr ⟨read, rfl, Bool.not_eq_false _ ▸ repo, .inl ⟨trivial, rfl⟩⟩
  | some spec =>
      dsimp only
      cases passed : checkSpec parseDate scrub nowMs req spec with
      | error refusal => exact .inl rfl
      | ok checked =>
          by_cases locked : weather.locked = false
          · simp only [if_pos locked]
            exact .inl trivial
          · simp only [if_neg locked]
            cases found : readStoreUnlocked parseDate weather.look records.file with
            | error fault => exact .inl rfl
            | ok read =>
                exact .inr ⟨read, rfl, Bool.not_eq_false _ ▸ repo,
                  .inr ⟨checked, checkSpec_ok passed, rfl⟩⟩

theorem turn_does
    (readsBack : ∀ time text, toISOString time = some text → parseDate text = some time)
    (reads : Reads parseDate records.file holds)
    (spares : turn.Spares parseDate scrub records) :
    Does parseDate turn records holds (turn.outcome parseDate scrub records).1
      (turn.outcome parseDate scrub records).2 := by
  rw [Turn.Spares, reads.stored] at spares
  cases called : turn.call with
  | sweepExpiredRepoHolds =>
      simp only [Turn.outcome, called]
      exact sweep_does called reads
  | setRepoHold req =>
      have rewrites : (∃ file, Effect.install file ∈
          (setRepoHold parseDate scrub records turn.weather turn.nowMs req).1) →
          turn.Rewrites parseDate scrub records req := by
        rintro ⟨file, member⟩
        refine ⟨called, file, ?_⟩
        simp only [Turn.outcome, called]
        exact member
      simp only [Turn.outcome, called]
      rcases @setRepoHold_cases parseDate scrub records turn.weather turn.nowMs req with
        none | ⟨read, found, repo, rest⟩
      · rw [none]
        exact .idle reads
      -- Where the store is overlooked, a call that rewrites it has nothing to lose.
      have seen : (∃ file, Effect.install file ∈
          (setRepoHold parseDate scrub records turn.weather turn.nowMs req).1) →
          read = holds ∧ Spared parseDate turn req holds := by
        intro installs
        obtain ⟨empty, written, alive⟩ := spares req (rewrites installs)
        refine ⟨?_, written, alive⟩
        rcases reads.look found with same | ⟨overlooked, none⟩
        · exact same
        · rw [none, empty overlooked]
      rcases rest with ⟨clears, does⟩ | ⟨spec, checked, does⟩
      · rw [does] at seen ⊢
        by_cases installs : ∃ file, Effect.install file ∈
            (clearHold turn.weather req (liveHolds parseDate turn.nowMs read)).1
        · obtain ⟨rfl, spared⟩ := seen installs
          exact clear_does called clears reads fun _ => spared
        · rcases reads.look found with rfl | ⟨-, rfl⟩
          · exact clear_does called clears reads fun other => absurd other installs
          · exact .idle reads
      · rw [does] at seen ⊢
        by_cases installs : ∃ file, Effect.install file ∈ (setHold parseDate turn.weather
            turn.nowMs req spec (liveHolds parseDate turn.nowMs read)).1
        · obtain ⟨rfl, spared⟩ := seen installs
          exact set_does called readsBack checked repo reads fun _ => spared
        · rcases @setHold_cases parseDate turn.weather turn.nowMs req spec
              (liveHolds parseDate turn.nowMs read) with
            none | ⟨after, kept, -, -, -, -, both | ⟨alone, -⟩⟩
          · rw [none]
            exact .idle reads
          · exact absurd ⟨_, both ▸ List.mem_cons_self⟩ installs
          · exact absurd ⟨_, alone ▸ List.mem_cons_self⟩ installs

/-! Runs. -/

def SparedStep (parseDate : JsString → Option ℤ) (scrub : JsString → JsString) (world : World)
    (turn : Turn) (next : World) : Prop :=
  Step parseDate scrub world turn next ∧ turn.Spares parseDate scrub world.records

theorem effects_split (turn : Turn) (records : Records) :
    ∃ rest, (turn.outcome parseDate scrub records).1 =
      turn.effects parseDate scrub records ++ rest := by
  unfold Turn.effects
  cases turn.crashed with
  | none => exact ⟨[], (List.append_nil _).symm⟩
  | some count => exact ⟨_, (List.take_append_drop count _).symm⟩

theorem install_outcome {file : JsValue}
    (member : Effect.install file ∈ turn.effects parseDate scrub records) :
    Effect.install file ∈ (turn.outcome parseDate scrub records).1 := by
  obtain ⟨rest, whole⟩ := @effects_split parseDate scrub turn records
  rw [whole]
  exact List.mem_append_left rest member

theorem Does.next
    (does : Does parseDate turn records holds (turn.outcome parseDate scrub records).1 reported) :
    (records.applyAll (turn.effects parseDate scrub records)).file = records.file ∨
    ∃ kept, Effect.install (storeValue kept) ∈ turn.effects parseDate scrub records ∧
      Keeps parseDate turn.call turn.nowMs holds kept ∧
      (records.applyAll (turn.effects parseDate scrub records)).file = some (storeValue kept) := by
  rcases applyAll_file (turn.effects parseDate scrub records) records with
    same | ⟨file, member, installed⟩
  · exact .inl same
  · obtain ⟨kept, rfl, keeps⟩ := does.keeps file (install_outcome member)
    exact .inr ⟨kept, member, keeps, installed⟩

section

variable (readsBack : ∀ time text, toISOString time = some text → parseDate text = some time)
include readsBack

section

variable (reads : Reads parseDate records.file holds) (spares : turn.Spares parseDate scrub records)
include reads spares

theorem turn_reads :
    ∃ kept, Reads parseDate
      (records.applyAll (turn.effects parseDate scrub records)).file kept := by
  rcases (turn_does readsBack reads spares).next with same | ⟨kept, -, keeps, installed⟩
  · exact ⟨holds, same ▸ reads⟩
  · exact ⟨kept, installed ▸ .found keeps.accepted⟩

theorem turn_faithful :
    turn.Faithful parseDate scrub records
      (records.applyAll (turn.effects parseDate scrub records)) := by
  have does := turn_does readsBack reads spares
  have stored := reads.stored
  refine ⟨?_, ?_, ?_, ?_⟩
  · intro hold present active barred
    rcases does.next with same | ⟨kept, -, keeps, installed⟩
    · rw [same]
      exact ⟨hold, present, isFor_self hold, fun _ => id⟩
    · rw [installed, (Reads.found keeps.accepted).stored]
      exact keeps.guarded hold (stored ▸ present) active barred
  · intro hold present active owner
    rcases does.next with same | ⟨kept, -, keeps, installed⟩
    · rw [same]
      exact .inl ⟨hold, present, isFor_self hold, active⟩
    · rw [installed, (Reads.found keeps.accepted).stored]
      exact keeps.owners hold (stored ▸ present) active owner
  · intro front file back split hold present lacking
    obtain ⟨rest, whole⟩ := @effects_split parseDate scrub turn records
    rw [split, List.append_assoc, List.cons_append] at whole
    obtain ⟨kept, rfl, keeps⟩ := does.keeps file (whole ▸ by simp)
    rw [(Reads.found keeps.accepted).stored] at lacking
    exact does.rowFirst front kept _ whole keeps.accepted hold (stored ▸ present) lacking
  · intro runs refused
    rcases does.next with same | ⟨kept, member, keeps, installed⟩
    · rw [same]
    · have active := does.failing refused kept (install_outcome member) keeps.accepted
      rw [installed, listRepoHolds, listRepoHolds, (Reads.found keeps.accepted).fine, reads.fine]
      exact congrArg Except.ok active

theorem turn_mirrors (calm : turn.Calm)
    (mirrors : Mirrors records.rows (storedHolds parseDate records.file)) :
    Mirrors (records.applyAll (turn.effects parseDate scrub records)).rows (storedHolds parseDate
      (records.applyAll (turn.effects parseDate scrub records)).file) := by
  rw [Turn.effects, calm.runs]
  rw [reads.stored] at mirrors
  exact (turn_does readsBack reads spares).mirrors calm mirrors

end

section

variable {start world : World} (reads : Reads parseDate start.records.file holds)
include reads

theorem run_reads {turns : List Turn}
    (run : Run (SparedStep parseDate scrub) start turns world) :
    ∃ kept, Reads parseDate world.records.file kept := by
  induction run with
  | nil => exact ⟨holds, reads⟩
  | snoc _ taken ih =>
      obtain ⟨kept, reads⟩ := ih
      obtain ⟨⟨-, rfl⟩, spares⟩ := taken
      exact turn_reads readsBack reads spares

theorem run_mirrors {turns : List Turn}
    (mirrors : Mirrors start.records.rows holds)
    (run : Run (SparedStep parseDate scrub) start turns world)
    (calm : ∀ turn ∈ turns, turn.Calm) :
    Mirrors world.records.rows (storedHolds parseDate world.records.file) := by
  induction run with
  | nil => rwa [reads.stored]
  | snoc run taken ih =>
      have former := ih fun turn member => calm turn (List.mem_append_left _ member)
      obtain ⟨kept, reads⟩ := run_reads readsBack reads run
      obtain ⟨⟨-, rfl⟩, spares⟩ := taken
      exact turn_mirrors readsBack reads spares (calm _ (by simp)) former

end

end

/-- In every run of spared calls from a store that its rows mirror, the store is accepted with one
hold a repository and kind, the calls keep the active holds, and without failures the rows go on
mirroring the store. -/
theorem holds_kept {start world : World} {turns : List Turn} {holds : List RepoHold}
    (readsBack : ∀ time text, toISOString time = some text → parseDate text = some time)
    (reads : Reads parseDate start.records.file holds)
    (mirrors : Mirrors start.records.rows holds)
    (run : Run (SparedStep parseDate scrub) start turns world) :
    (∃ kept, readStoreUnlocked parseDate .fine world.records.file = .ok kept ∧
      kept.Pairwise fun first second => second.isFor first.repo first.kind = false) ∧
    ((∀ turn ∈ turns, turn.Calm) →
      Mirrors world.records.rows (storedHolds parseDate world.records.file)) ∧
    ∀ turn next, SparedStep parseDate scrub world turn next →
      turn.Faithful parseDate scrub world.records next.records := by
  obtain ⟨kept, stored⟩ := run_reads readsBack reads run
  refine ⟨⟨kept, stored.fine, ?_⟩, run_mirrors readsBack reads mirrors run, ?_⟩
  · refine (List.pairwise_map.mp stored.distinct).imp fun apart => ?_
    exact Bool.eq_false_iff.mpr fun same => apart (isFor_iff.mp same).symm
  · rintro turn _ ⟨⟨-, rfl⟩, spares⟩
    exact turn_faithful readsBack stored spares

end

/-! A hold that is set and cleared, and one that expires unseen by the ledger. -/

def calmWeather : Weather := ⟨true, .fine, fun _ => .recorded, .done⟩

def calmTurn (nowMs : ℤ) (req : SetRepoHoldRequest) : Turn :=
  ⟨.setRepoHold req, nowMs, calmWeather, none⟩

theorem calm_calmTurn (nowMs : ℤ) (req : SetRepoHoldRequest) : (calmTurn nowMs req).Calm :=
  ⟨rfl, fun _ => rfl, rfl, rfl⟩

def emptyRecords : Records := ⟨none, []⟩

def following (records : Records) (turn : Turn) : Records :=
  records.applyAll (turn.effects dateParse id records)

def quarantineRed : SetRepoHoldRequest where
  repo := js "a/b"
  kind := .quarantine
  hold := some ⟨js "red", some (js "1970-01-01T06:00:00.000Z"), none⟩
  actor := .daemon

def releaseRed : SetRepoHoldRequest := { quarantineRed with hold := none }

def pauseOther : SetRepoHoldRequest where
  repo := js "a/c"
  kind := .cooldown
  hold := some ⟨js "slow", none, none⟩
  actor := .backpressure

def redHold : RepoHold where
  repo := js "a/b"
  kind := .quarantine
  reason := js "red"
  since := js "1970-01-01T00:00:00.000Z"
  until' := some (js "1970-01-01T06:00:00.000Z")
  setBy := .daemon
  landingId := none

theorem quarantined : storedHolds dateParse
    (following emptyRecords (calmTurn 0 quarantineRed)).file = [redHold] := by
  decide +kernel

theorem taken (clock : ℤ) (records : Records) (turn : Turn) (later : clock ≤ turn.nowMs) :
    Step dateParse id ⟨clock, records⟩ turn ⟨turn.nowMs, following records turn⟩ :=
  ⟨later, rfl⟩

theorem fresh_mirrors : Mirrors [] [] := by
  intro repo kind hold
  constructor
  · intro absent
    cases absent
  · rintro ⟨present, -⟩
    cases present

theorem spares_fresh (req : SetRepoHoldRequest) :
    (calmTurn 0 req).Spares dateParse id emptyRecords :=
  fun _ _ => ⟨fun _ => rfl, nofun, fun _ present => nomatch present⟩

def released : Records :=
  following (following emptyRecords (calmTurn 0 quarantineRed)) (calmTurn 1 releaseRed)

def paused : Records :=
  following (following emptyRecords (calmTurn 0 quarantineRed)) (calmTurn 21600001 pauseOther)

theorem sample_holds :
    storedHolds dateParse released.file = [] ∧ released.rows.length = 2 ∧
      replay redHold.repo redHold.kind paused.rows = some redHold ∧
      redHold ∉ storedHolds dateParse paused.file := by
  decide +kernel

theorem holds_kept_released :
    storedHolds dateParse released.file = [] ∧ released.rows.length = 2 ∧
      Mirrors released.rows (storedHolds dateParse released.file) := by
  have spares : (calmTurn 1 releaseRed).Spares dateParse id
      (following emptyRecords (calmTurn 0 quarantineRed)) := by
    rintro req ⟨called, -⟩
    obtain rfl := HoldCall.setRepoHold.inj called
    refine ⟨nofun, nofun, ?_⟩
    rw [quarantined]
    decide +kernel
  have run : Run (SparedStep dateParse id) ⟨0, emptyRecords⟩
      [calmTurn 0 quarantineRed, calmTurn 1 releaseRed] ⟨1, released⟩ :=
    (Run.single ⟨taken 0 emptyRecords _ (by decide), spares_fresh quarantineRed⟩).snoc
      ⟨taken 0 _ (calmTurn 1 releaseRed) (by decide), spares⟩
  have calm : ∀ turn ∈ [calmTurn 0 quarantineRed, calmTurn 1 releaseRed], turn.Calm := by
    simp [calm_calmTurn]
  exact ⟨sample_holds.1, sample_holds.2.1,
    (holds_kept (fun _ _ => dateParse_toISOString) .missing fresh_mirrors run).2.1 calm⟩

/-- After the quarantine's end a hold on another repository drops it from the store, and no row
says so. -/
theorem set_drops_expired :
    ∃ turns world, Run (Step dateParse id) ⟨0, emptyRecords⟩ turns world ∧
      (∀ turn ∈ turns, turn.Calm) ∧ replay redHold.repo redHold.kind world.records.rows =
        some redHold ∧ redHold ∉ storedHolds dateParse world.records.file ∧
      ¬ Mirrors world.records.rows (storedHolds dateParse world.records.file) := by
  obtain ⟨-, -, replayed, dropped⟩ := sample_holds
  refine ⟨[calmTurn 0 quarantineRed, calmTurn 21600001 pauseOther], ⟨21600001, paused⟩,
    (Run.single (taken 0 emptyRecords _ (by decide))).snoc
      (taken 0 _ (calmTurn 21600001 pauseOther) (by decide)), by simp [calm_calmTurn],
    replayed, dropped, fun mirrors => dropped ?_⟩
  exact ((mirrors redHold.repo redHold.kind redHold).mp replayed).1

end AshlrHub.RepoHolds
