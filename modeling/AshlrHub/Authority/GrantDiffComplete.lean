import AshlrHub.Authority.GrantDiffNamed

namespace AshlrHub.Grant

open Js Authority Routing

/-! The accounts' lines, and the whole: the exact pairs of grants whose diff is complete. -/

def AccountPermits (seat : Option StandingGrantSeat) (permission : SeatPermission) : Prop :=
  ∃ listed, seat = some listed ∧ SeatPermits listed permission

variable {permission : SeatPermission}

theorem accountPermits_some {seat : StandingGrantSeat} :
    AccountPermits (some seat) permission ↔ SeatPermits seat permission := by
  simp [AccountPermits]

theorem not_accountPermits_none :
    ¬ AccountPermits none permission := by
  simp [AccountPermits]

theorem session_eq_iff {a b : Option ℕ} :
    (∀ n, (∀ ceiling, a = some ceiling → n ≤ ceiling) ↔ ∀ ceiling, b = some ceiling → n ≤ ceiling) ↔
      a = b := by
  constructor
  · intro same
    cases a with
    | none =>
        cases b with
        | none => rfl
        | some b =>
            have high := (same (b + 1)).mp (fun _ absent => by cases absent) b rfl
            omega
    | some a =>
        cases b with
        | none =>
            have high := (same (a + 1)).mpr (fun _ absent => by cases absent) a rfl
            omega
        | some b =>
            have up := (same a).mp (fun _ equal => le_of_eq (Option.some.inj equal)) b rfl
            have down := (same b).mpr (fun _ equal => le_of_eq (Option.some.inj equal)) a rfl
            rw [le_antisymm up down]
  · rintro rfl n
    exact Iff.rfl

theorem sessionRaised_iff {a b : Option ℕ} : sessionRaised a b ↔
    ∃ n, (∀ ceiling, b = some ceiling → n ≤ ceiling) ∧ ¬ ∀ ceiling, a = some ceiling → n ≤
      ceiling := by
  cases a with
  | none =>
      refine iff_of_false id ?_
      rintro ⟨n, _, refused⟩
      exact refused fun _ absent => by cases absent
  | some a =>
      cases b with
      | none =>
          refine iff_of_true trivial ⟨a + 1, (fun _ absent => by cases absent), fun low => ?_⟩
          have := low a rfl
          omega
      | some b =>
          constructor
          · intro less
            exact ⟨b, fun _ equal => le_of_eq (Option.some.inj equal), fun low =>
              absurd (low a rfl) (not_le.mpr less)⟩
          · rintro ⟨n, low, high⟩
            by_contra none
            refine high fun ceiling equal => ?_
            rw [← Option.some.inj equal]
            exact (low b rfl).trans (not_lt.mp none)

theorem reserve_eq_iff {a b : ℕ} : (∀ n, a ≤ n ↔ b ≤ n) ↔ a = b := by
  constructor
  · intro same
    exact le_antisymm ((same b).mpr le_rfl) ((same a).mp le_rfl)
  · rintro rfl n
    exact Iff.rfl

variable {id : SeatId}

theorem seatLines_eq_nil {before after : StandingGrantSeat} :
    seatLines id (some before) (some after) = [] ↔
      ∀ permission, SeatPermits before permission ↔ SeatPermits after permission := by
  simp only [seatLines, List.append_eq_nil_iff, lineIf_eq_nil, not_not]
  simp only [bothAlike, sameRoles, addedTo_texts]
  constructor
  · rintro ⟨enabled, ⟨fewer, more⟩, floor, ceiling⟩ permission
    cases permission with
    | enabled => simp only [SeatPermits, enabled]
    | role role => exact ⟨more role, fewer role⟩
    | reserve percent => simp only [SeatPermits, floor]
    | session percent => simp only [SeatPermits, ceiling]
  · intro same
    refine ⟨Bool.eq_iff_iff.mpr (same .enabled), ⟨?_, ?_⟩, ?_, ?_⟩
    · exact fun role => (same (.role role)).mpr
    · exact fun role => (same (.role role)).mp
    · exact reserve_eq_iff.mp fun percent => same (.reserve percent)
    · exact session_eq_iff.mp fun percent => same (.session percent)

theorem seatLines_ne_nil {before after : Option StandingGrantSeat}
    (apart : ¬ (before.isSome ↔ after.isSome)) : seatLines id before after ≠ [] := by
  intro empty
  simp only [seatLines, List.append_eq_nil_iff, lineIf_eq_nil, not_not] at empty
  cases before <;> cases after
  · exact apart Iff.rfl
  · exact empty.1
  · exact empty.1
  · exact apart Iff.rfl

theorem raises_seatLines {before after : Option StandingGrantSeat} :
    Raises (seatLines id before after) ↔
      ∃ permission, AccountPermits after permission ∧ ¬ AccountPermits before permission := by
  simp only [seatLines, raises_append, raises_lineIf, widerIf_eq_wider]
  cases after with
  | none =>
      refine iff_of_false ?_ fun wider => not_accountPermits_none wider.choose_spec.1
      cases before <;> simp [isEnabled, raisedFrom]
  | some after =>
      cases before with
      | none =>
          refine iff_of_true ?_ ⟨.reserve after.reserveFloorPercent,
            accountPermits_some.mpr le_rfl, not_accountPermits_none⟩
          exact .inr (.inl ⟨not_false, trivial⟩)
      | some before =>
          simp only [accountPermits_some, bothAlike, raisedFrom, isEnabled]
          constructor
          · rintro (⟨apart, enabled⟩ | ⟨_, role, more, fewer⟩ | ⟨_, lower⟩ | ⟨_, raised⟩)
            · exact ⟨.enabled, enabled, fun was => apart (Eq.trans was enabled.symm)⟩
            · exact ⟨.role role, more, fewer⟩
            · exact ⟨.reserve after.reserveFloorPercent, le_rfl, not_le.mpr lower⟩
            · obtain ⟨percent, given, refused⟩ := sessionRaised_iff.mp raised
              exact ⟨.session percent, given, refused⟩
          · rintro ⟨permission, given, refused⟩
            cases permission with
            | enabled => exact .inl ⟨fun same => refused (Eq.trans same given), given⟩
            | role role =>
                refine .inr (.inl ⟨fun same => ?_, role, given, refused⟩)
                exact refused (addedTo_texts.mp same.1 role given)
            | reserve percent =>
                have lower := lt_of_le_of_lt given (not_le.mp refused)
                exact .inr (.inr (.inl ⟨fun same => absurd lower (by rw [same]; exact lt_irrefl _),
                  lower⟩))
            | session percent =>
                have raised := sessionRaised_iff.mpr ⟨percent, given, refused⟩
                refine .inr (.inr (.inr ⟨fun same => ?_, raised⟩))
                rw [SeatPermits, same] at refused
                exact refused given

variable {current next : StandingGrantV1}

variable {seats : JsMap SeatId StandingGrantSeat}

theorem isSome_get?_iff :
    (seats.get? id).isSome = true ↔ id ∈ seats.keys := by
  constructor
  · intro held
    obtain ⟨seat, found⟩ := Option.isSome_iff_exists.mp held
    exact List.mem_map_of_mem (JsMap.mem_of_get? found)
  · intro listed
    by_contra absent
    have missing : ∀ {seats : JsMap SeatId StandingGrantSeat}, seats.get? id = none →
        id ∉ seats.keys := by
      intro seats
      induction seats with
      | nil => exact fun _ => List.not_mem_nil
      | cons entry seats ih =>
          intro none
          rw [JsMap.get?_cons] at none
          split_ifs at none with same
          rw [JsMap.keys, List.map_cons, List.mem_cons, not_or]
          exact ⟨Ne.symm same, ih none⟩
    exact missing (Option.not_isSome_iff_eq_none.mp absent) listed

theorem mem_seatIds {before after : JsMap SeatId StandingGrantSeat} :
    id ∈ seatIds before after ↔ id ∈ before.keys ∨ id ∈ after.keys := by
  simp only [seatIds, List.mem_append, List.mem_filter, decide_eq_true_eq]
  tauto

theorem seatAt_of (own : id ∈ seats.keys ∨ id.text ∉ inheritedNames) :
    seatAt seats id = some (seats.get? id) := by
  unfold seatAt
  cases found : seats.get? id with
  | some seat => rfl
  | none =>
      have absent : id ∉ seats.keys := by
        rw [← isSome_get?_iff, found]
        exact Bool.false_ne_true
      exact if_neg (own.resolve_left absent)

theorem seatAt_eq_none {id : SeatId} (absent : id ∉ seats.keys)
    (inherited : id.text ∈ inheritedNames) : seatAt seats id = none := by
  unfold seatAt
  cases found : seats.get? id with
  | some seat =>
      rw [← isSome_get?_iff, found] at absent
      exact absurd rfl absent
  | none => exact if_pos inherited

theorem mapM_eq_some_map {α β : Type} {step : α → Option β} {result : α → β} :
    {items : List α} → (∀ item ∈ items, step item = some (result item)) →
    items.mapM step = some (items.map result)
  | [], _ => rfl
  | item :: items, each => by
      rw [List.mapM_cons, each item List.mem_cons_self,
        mapM_eq_some_map fun item member => each item (List.mem_cons_of_mem _ member)]
      rfl

theorem mapM_eq_none {α β : Type} {step : α → Option β} {bad : α} (fails : step bad = none) :
    {items : List α} → bad ∈ items → items.mapM step = none
  | item :: items, member => by
      rw [List.mapM_cons]
      rcases List.mem_cons.mp member with rfl | later
      · rw [fails]
        rfl
      · rw [mapM_eq_none fails later]
        cases step item <;> rfl

theorem seatPolicyDiff_eq_some (own : ¬ InheritedSeat current next) :
    seatPolicyDiff (some current) next =
      some ((seatIds current.spend.seats next.spend.seats).flatMap fun id =>
        seatLines id (current.spend.seats.get? id) (next.spend.seats.get? id)) := by
  have each : ∀ id ∈ seatIds current.spend.seats next.spend.seats,
      accountLines current.spend.seats next.spend.seats id =
      some (seatLines id (current.spend.seats.get? id) (next.spend.seats.get? id)) := by
    intro id member
    have plain : id.text ∈ inheritedNames → (id ∈ current.spend.seats.keys ↔
        id ∈ next.spend.seats.keys) := fun inherited => not_not.mp fun apart =>
      own ⟨id, inherited, apart⟩
    have listed := mem_seatIds.mp member
    rw [accountLines, seatAt_of (by tauto), seatAt_of (by tauto)]
    rfl
  rw [seatPolicyDiff, Option.map_some, Option.getD_some, mapM_eq_some_map each, Option.map_some,
    List.flatMap]

theorem seatPolicyDiff_eq_none (inherited : InheritedSeat current next) :
    seatPolicyDiff (some current) next = none := by
  obtain ⟨id, shared, apart⟩ := inherited
  have fails : accountLines current.spend.seats next.spend.seats id = none := by
    unfold accountLines
    by_cases listed : id ∈ current.spend.seats.keys
    · rw [@seatAt_eq_none next.spend.seats id (fun also => apart (iff_of_true listed also)) shared]
      cases seatAt current.spend.seats id <;> rfl
    · rw [seatAt_eq_none listed shared]
      rfl
  have member : id ∈ seatIds current.spend.seats next.spend.seats := by
    rw [mem_seatIds]
    tauto
  rw [seatPolicyDiff, Option.map_some, Option.getD_some, mapM_eq_none fails member, Option.map_none]

theorem permits_seat :
    Permits current (.seat id permission) ↔
      AccountPermits (current.spend.seats.get? id) permission :=
  Iff.rfl

theorem listed_iff_of_alike
    (alike : ∀ permission, Permits current (.seat id permission) ↔ Permits next
      (.seat id permission)) :
    id ∈ current.spend.seats.keys ↔ id ∈ next.spend.seats.keys := by
  rw [← isSome_get?_iff, ← isSome_get?_iff]
  constructor
  · intro held
    obtain ⟨seat, found⟩ := Option.isSome_iff_exists.mp held
    obtain ⟨other, also, _⟩ := (alike (.reserve seat.reserveFloorPercent)).mp ⟨seat, found, le_rfl⟩
    exact Option.isSome_iff_exists.mpr ⟨other, also⟩
  · intro held
    obtain ⟨seat, found⟩ := Option.isSome_iff_exists.mp held
    obtain ⟨other, also, _⟩ := (alike (.reserve seat.reserveFloorPercent)).mpr ⟨seat, found, le_rfl⟩
    exact Option.isSome_iff_exists.mpr ⟨other, also⟩

theorem accounts_eq_nil :
    ((seatIds current.spend.seats next.spend.seats).flatMap fun id =>
      seatLines id (current.spend.seats.get? id) (next.spend.seats.get? id)) = [] ↔
      ∀ id permission, Permits current (.seat id permission) ↔ Permits next
        (.seat id permission) := by
  rw [List.flatMap_eq_nil_iff]
  constructor
  · intro empty id permission
    rw [permits_seat, permits_seat]
    by_cases listed : id ∈ seatIds current.spend.seats next.spend.seats
    · have none := empty id listed
      have both : (current.spend.seats.get? id).isSome ↔ (next.spend.seats.get? id).isSome :=
        not_not.mp fun apart => seatLines_ne_nil apart none
      cases before : current.spend.seats.get? id with
      | none =>
          cases after : next.spend.seats.get? id with
          | none => exact Iff.rfl
          | some seat =>
              rw [before, after] at both
              exact absurd (both.mpr rfl) Bool.false_ne_true
      | some seat =>
          cases after : next.spend.seats.get? id with
          | none =>
              rw [before, after] at both
              exact absurd (both.mp rfl) Bool.false_ne_true
          | some other =>
              rw [before, after] at none
              rw [accountPermits_some, accountPermits_some]
              exact seatLines_eq_nil.mp none permission
    · rw [mem_seatIds, not_or] at listed
      rw [JsMap.get?_eq_none listed.1, JsMap.get?_eq_none listed.2]
  · intro alike id member
    have both := listed_iff_of_alike (alike id)
    have held : id ∈ current.spend.seats.keys :=
      (mem_seatIds.mp member).elim (fun held => held) both.mpr
    obtain ⟨seat, before⟩ := Option.isSome_iff_exists.mp (isSome_get?_iff.mpr held)
    obtain ⟨other, after⟩ := Option.isSome_iff_exists.mp (isSome_get?_iff.mpr (both.mp held))
    rw [before, after, seatLines_eq_nil]
    intro permission
    have same := alike id permission
    rw [permits_seat, permits_seat, before, after, accountPermits_some, accountPermits_some] at same
    exact same

theorem raises_accounts :
    Raises ((seatIds current.spend.seats next.spend.seats).flatMap fun id =>
      seatLines id (current.spend.seats.get? id) (next.spend.seats.get? id)) ↔
      ∃ id permission, Gains current next (.seat id permission) := by
  simp only [raises_flatMap, raises_seatLines]
  constructor
  · rintro ⟨id, _, permission, gained⟩
    exact ⟨id, permission, gained⟩
  · rintro ⟨id, permission, ⟨seat, found, given⟩, refused⟩
    refine ⟨id, mem_seatIds.mpr (.inr ?_), permission, ⟨seat, found, given⟩, refused⟩
    exact isSome_get?_iff.mp (Option.isSome_iff_exists.mpr ⟨seat, found⟩)

section

variable (named : WellNamed current)
include named

theorem replacedGrantLines_eq_nil (others : WellNamed next)
    (accounts : ∀ id permission, Permits current (.seat id permission) ↔
      Permits next (.seat id permission)) :
    replacedGrantLines current next = [] ↔ Alike current next := by
  simp only [replacedGrantLines, List.flatten_eq_nil_iff, List.forall_mem_cons, List.not_mem_nil,
    false_implies, implies_true, and_true, engineLines_eq_nil, leaderLines_eq_nil,
    spendModeLines_eq_nil, meteredLines_eq_nil, mergeCapsLines_eq_nil, volumePolicyLines_eq_nil,
    conductorLines_eq_nil, ladderLines_eq_nil named others, expiryLines_eq_nil]
  constructor
  · rintro ⟨listed, staged, engines, leader, mode, metered, ⟨files, lines⟩, volumes, counted,
      goals, rungs, ladder, expiry⟩
    refine ⟨fun permission shown => ?_, ladder, expiry⟩
    cases permission with
    | repo name permission =>
        exact (repoLines_eq_nil named others).mp ⟨listed, staged, counted⟩ name permission shown
    | seat id permission => exact accounts id permission
    | stage id permission =>
        exact (stageLines_eq_nil named others ladder).mp rungs id permission shown
    | files count => exact files count
    | lines count => exact lines count
    | operatorVolumes => exact volumes
    | mode choice => exact mode choice
    | metered dollars => exact metered dollars
    | engine engine => exact engines engine
    | leaderClass cls => exact leader cls
    | goals => exact goals
    | selfMerge | veto | publish | start | follows => cases shown
  · rintro ⟨shown, ladder, expiry⟩
    obtain ⟨listed, staged, counted⟩ := (repoLines_eq_nil named others).mpr
      fun name permission => shown (.repo name permission)
    exact ⟨listed, staged, fun engine => shown (.engine engine) trivial,
      fun cls => shown (.leaderClass cls) trivial, fun mode => shown (.mode mode) trivial,
      fun dollars => shown (.metered dollars) trivial,
      ⟨fun count => shown (.files count) trivial, fun count => shown (.lines count) trivial⟩,
      shown .operatorVolumes trivial, counted, shown .goals trivial,
      (stageLines_eq_nil named others ladder).mpr fun id permission => shown (.stage id permission),
      ladder, expiry⟩

theorem raises_replacedGrantLines :
    Raises (replacedGrantLines current next) ∨ (∃ id permission,
      Gains current next (.seat id permission)) ↔
      ∃ permission, permission.Shown current ∧ Gains current next permission := by
  have groups : Raises (replacedGrantLines current next) ↔
      (Raises (repoListLines current next) ∨ Raises (repoStageLines current next) ∨
        Raises (mergeFrequencyLines current next)) ∨ Raises (engineLines current next) ∨
      Raises (leaderLines current next) ∨ Raises (spendModeLines current next) ∨
      Raises (meteredLines current next) ∨ Raises (mergeCapsLines current next) ∨
      Raises (volumePolicyLines current next) ∨ Raises (conductorLines current next) ∨
      Raises (stageLines current next) := by
    have none : ¬ Raises [] := fun ⟨_, absent, _⟩ => by cases absent
    simp only [replacedGrantLines, List.flatten_cons, List.flatten_nil, raises_append,
      not_raises_ladderLines, not_raises_expiryLines, none, or_false]
    exact iff_of_eq (by ac_rfl)
  rw [groups, raises_repoLines named, raises_engineLines, raises_leaderLines,
    raises_spendModeLines, raises_meteredLines, raises_mergeCapsLines, raises_volumePolicyLines,
    raises_conductorLines, raises_stageLines named]
  constructor
  · rintro ((⟨name, permission, shown, gained⟩ | ⟨engine, gained⟩ | ⟨cls, gained⟩ |
      ⟨mode, gained⟩ | ⟨dollars, gained⟩ | (⟨count, gained⟩ | ⟨count, gained⟩) | gained | gained |
      ⟨id, permission, shown, gained⟩) | ⟨id, permission, gained⟩)
    · exact ⟨_, shown, gained⟩
    · exact ⟨.engine engine, trivial, gained⟩
    · exact ⟨.leaderClass cls, trivial, gained⟩
    · exact ⟨.mode mode, trivial, gained⟩
    · exact ⟨.metered dollars, trivial, gained⟩
    · exact ⟨.files count, trivial, gained⟩
    · exact ⟨.lines count, trivial, gained⟩
    · exact ⟨.operatorVolumes, trivial, gained⟩
    · exact ⟨.goals, trivial, gained⟩
    · exact ⟨_, shown, gained⟩
    · exact ⟨.seat id permission, trivial, gained⟩
  · rintro ⟨permission, shown, gained⟩
    cases permission with
    | repo name permission => exact .inl (.inl ⟨name, permission, shown, gained⟩)
    | seat id permission => exact .inr ⟨id, permission, gained⟩
    | engine engine => exact .inl (.inr (.inl ⟨engine, gained⟩))
    | leaderClass cls => exact .inl (.inr (.inr (.inl ⟨cls, gained⟩)))
    | mode mode => exact .inl (.inr (.inr (.inr (.inl ⟨mode, gained⟩))))
    | metered dollars => exact .inl (.inr (.inr (.inr (.inr (.inl ⟨dollars, gained⟩)))))
    | files count => exact .inl (.inr (.inr (.inr (.inr (.inr (.inl (.inl ⟨count, gained⟩)))))))
    | lines count => exact .inl (.inr (.inr (.inr (.inr (.inr (.inl (.inr ⟨count, gained⟩)))))))
    | operatorVolumes => exact .inl (.inr (.inr (.inr (.inr (.inr (.inr (.inl gained)))))))
    | goals => exact .inl (.inr (.inr (.inr (.inr (.inr (.inr (.inr (.inl gained))))))))
    | stage id permission =>
        exact .inl (.inr (.inr (.inr (.inr (.inr (.inr (.inr (.inr
          ⟨id, permission, shown, gained⟩))))))))
    | selfMerge | veto | publish | start | follows => cases shown

theorem grantScopeDiff_eq_nil (others : WellNamed next) :
    grantScopeDiff (some current) next = some [] ↔ Alike current next := by
  by_cases inherited : InheritedSeat current next
  · rw [grantScopeDiff, seatPolicyDiff_eq_none inherited, Option.map_none]
    refine iff_of_false (fun none => by cases none) fun alike => ?_
    obtain ⟨id, _, apart⟩ := inherited
    exact apart (listed_iff_of_alike fun permission => alike.shown (.seat id permission) trivial)
  · rw [grantScopeDiff, seatPolicyDiff_eq_some inherited, Option.map_some]
    simp only [Option.some.injEq, List.append_eq_nil_iff, accounts_eq_nil]
    constructor
    · rintro ⟨accounts, rest⟩
      exact (replacedGrantLines_eq_nil named others accounts).mp rest
    · intro alike
      have accounts := fun id permission => alike.shown (.seat id permission) trivial
      exact ⟨accounts, (replacedGrantLines_eq_nil named others accounts).mpr alike⟩

theorem grantScopeDiff_raises :
    (∃ lines, grantScopeDiff (some current) next = some lines ∧ Raises lines) ↔
      ¬ InheritedSeat current next ∧
        ∃ permission, permission.Shown current ∧ Gains current next permission := by
  by_cases inherited : InheritedSeat current next
  · rw [grantScopeDiff, seatPolicyDiff_eq_none inherited, Option.map_none]
    refine iff_of_false ?_ fun both => both.1 inherited
    rintro ⟨_, none, _⟩
    cases none
  · rw [grantScopeDiff, seatPolicyDiff_eq_some inherited, Option.map_some, and_iff_right inherited,
      ← raises_replacedGrantLines named, ← raises_accounts, or_comm, ← raises_append]
    constructor
    · rintro ⟨_, same, raised⟩
      exact Option.some.inj same ▸ raised
    · intro raised
      exact ⟨_, rfl, raised⟩

end

def DiffComplete (current next : StandingGrantV1) : Prop :=
  (grantScopeDiff (some current) next = some [] → SameScope current next) ∧
    ((∃ permission, Gains current next permission) →
      ∃ lines, grantScopeDiff (some current) next = some lines ∧ Raises lines)

/-- The diff is complete for exactly the grants that never differ, and gain nothing, in the
fields it leaves out alone, and list no account it takes for an inherited one. -/
theorem diffComplete_iff {currentValue nextValue : JsValue}
    (inForce : parseStandingGrantPayload currentValue = .ok current)
    (proposed : parseStandingGrantPayload nextValue = .ok next) :
    DiffComplete current next ↔
      (Alike current next → HiddenAlike current next) ∧
        ((∃ permission, ¬ permission.Shown current ∧ Gains current next permission) →
          ∃ permission, permission.Shown current ∧ Gains current next permission) ∧
        ((∃ permission, Gains current next permission) → ¬ InheritedSeat current next) := by
  have named := wellNamed_of_parsePayload inForce
  have others := wellNamed_of_parsePayload proposed
  rw [DiffComplete, grantScopeDiff_eq_nil named others, grantScopeDiff_raises named]
  refine and_congr ?_ ?_
  · constructor
    · exact fun same alike permission _ => same alike permission
    · intro hidden alike permission
      by_cases shown : permission.Shown current
      · exact alike.shown permission shown
      · exact hidden alike permission shown
  · constructor
    · intro seen
      refine ⟨fun ⟨permission, _, gained⟩ => (seen ⟨permission, gained⟩).2, fun gained => ?_⟩
      exact (seen gained).1
    · rintro ⟨hidden, own⟩ ⟨permission, gained⟩
      refine ⟨own ⟨permission, gained⟩, ?_⟩
      by_cases shown : permission.Shown current
      · exact ⟨permission, shown, gained⟩
      · exact hidden ⟨permission, shown, gained⟩

/-- The edit takes an engine away, and gives nothing. -/
theorem diffComplete_iff_sample : DiffComplete sampleGrant oneEngineGrant := by
  have kept : ∀ permission, ¬ Gains sampleGrant oneEngineGrant permission := by
    rintro permission ⟨permitted, refused⟩
    refine refused ?_
    cases permission with
    | stage id permission =>
        obtain ⟨_, member, named, given⟩ := permitted
        obtain ⟨stage, listed, rfl⟩ := List.mem_map.mp member
        refine ⟨stage, listed, named, ?_⟩
        cases permission with
        | engine engine =>
            have shared : ∀ stage ∈ sampleGrant.stages, .codex ∈ stage.engines := by decide
            exact List.mem_singleton.mp given ▸ shared stage listed
        | _ => exact given
    | engine engine =>
        obtain rfl := List.mem_singleton.mp permitted
        exact (by decide : GrantEngine.codex ∈ sampleGrant.engines)
    | _ => exact permitted
  refine (diffComplete_iff sample_grants.1 sample_grants.2.2).mpr ⟨fun alike => ?_, ?_, ?_⟩
  · have engine := (alike.shown (.engine .local) trivial).mp
    exact absurd (engine (by decide : GrantEngine.local ∈ sampleGrant.engines))
      (by decide : GrantEngine.local ∉ oneEngineGrant.engines)
  · rintro ⟨permission, _, gained⟩
    exact absurd gained (kept permission)
  · rintro ⟨permission, gained⟩
    exact absurd gained (kept permission)

def hastyGrant : StandingGrantV1 :=
  { sampleGrant with leader := ⟨[.a], 30⟩ }

theorem hasty_diff_incomplete :
    ¬ ∀ currentValue nextValue current next,
      parseStandingGrantPayload currentValue = .ok current →
        parseStandingGrantPayload nextValue = .ok next → DiffComplete current next := by
  intro complete
  have hasty : parseStandingGrantPayload (grantValue hastyGrant) = .ok hastyGrant ∧
      grantScopeDiff (some sampleGrant) hastyGrant = some [] := by
    decide +kernel
  have same := (complete _ _ _ _ sample_grants.1 hasty.1).1 hasty.2 (.veto 30)
  have refused : ¬ Permits sampleGrant (.veto 30) := by
    change ¬ 60 ≤ 30
    decide
  exact refused (same.mpr (show 30 ≤ 30 from le_rfl))

end AshlrHub.Grant
