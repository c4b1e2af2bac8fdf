import AshlrHub.Authority.GrantParse

namespace AshlrHub.Grant

open Js Authority Routing Lib

/-! A grant as the object the source holds, and what the parser makes of that object: the
parser refuses or gives the grant back, it changes nothing. -/

def flagValue : Bool → JsValue :=
  .bool

def natValue (n : ℕ) : JsValue :=
  jsInt n

def enumValue {α : Type} [JsEnum α] (item : α) : JsValue :=
  .str (JsEnum.text item)

def listValue {α : Type} (entry : α → JsValue) (items : List α) : JsValue :=
  .arr (items.map entry)

def repoValue (repo : StandingGrantRepo) : JsValue :=
  .obj [(js "nameWithOwner", .str repo.nameWithOwner), (js "stage", enumValue repo.stage),
    (js "enforcement", enumValue repo.enforcement), (js "maxRisk", enumValue repo.maxRisk),
    (js "maxMergesPerDay", natValue repo.maxMergesPerDay)]

def mergeMembers (merge : StandingGrantMerge) : Members :=
  [(js "maxFiles", natValue merge.maxFiles), (js "maxLines", natValue merge.maxLines)] ++
    (if merge.volumePolicy then [(js "volumePolicy", .str (js "operator-signed"))] else []) ++
    [(js "selfRepo", enumValue merge.selfRepo)]

def seatValue (seat : StandingGrantSeat) : JsValue :=
  .obj ([(js "enabled", flagValue seat.enabled),
    (js "reserveFloorPercent", natValue seat.reserveFloorPercent),
    (js "roles", listValue enumValue seat.roles)] ++
    match seat.maxSessionWindowPercent with
    | some percent => [(js "maxSessionWindowPercent", natValue percent)]
    | none => [])

def seatMembers (seats : JsMap SeatId StandingGrantSeat) : Members :=
  seats.map fun entry => (entry.1.text, seatValue entry.2)

def spendValue (spend : StandingGrantSpend) : JsValue :=
  .obj [(js "maxMode", enumValue spend.maxMode),
    (js "meteredUsdPerDay", natValue spend.meteredUsdPerDay),
    (js "seats", .obj (seatMembers spend.seats))]

def leaderValue (leader : StandingGrantLeader) : JsValue :=
  .obj [(js "classes", listValue enumValue leader.classes),
    (js "vetoMinutes", natValue leader.vetoMinutes)]

def criteriaValue (criteria : RolloutCriteria) : JsValue :=
  .obj [(js "minMerges", natValue criteria.minMerges),
    (js "minPostMergeGreenPct", natValue criteria.minPostMergeGreenPct),
    (js "maxRevertRatePct", natValue criteria.maxRevertRatePct),
    (js "minHours", natValue criteria.minHours), (js "maxSandboxViolations", natValue 0),
    (js "reserveBreaches", natValue 0)]

def stageRepoValue (repo : RolloutStageRepo) : JsValue :=
  .obj [(js "nameWithOwner", .str repo.nameWithOwner), (js "stage", enumValue repo.stage)]

def stageValue (stage : RolloutStage) : JsValue :=
  .obj [(js "id", .str stage.id), (js "repos", listValue stageRepoValue stage.repos),
    (js "engines", listValue enumValue stage.engines), (js "maxRisk", enumValue stage.maxRisk),
    (js "maxFiles", natValue stage.maxFiles), (js "maxLines", natValue stage.maxLines),
    (js "maxMergesPerRepoPerDay", natValue stage.maxMergesPerRepoPerDay),
    (js "leaderClasses", listValue enumValue stage.leaderClasses),
    (js "criteria", criteriaValue stage.criteria)]

def websitePublicationValue (web : StandingWebsitePublication) : JsValue :=
  .obj [(js "profile", .str (js "phantom-public-web")),
    (js "profileDigest", .str web.profileDigest), (js "mode", .str (js "automatic"))]

def grantMembers (grant : StandingGrantV1) : Members :=
  [(js "v", natValue 1), (js "grantId", .str grant.grantId),
    (js "grantSeq", natValue grant.grantSeq), (js "keyId", .str grant.keyId),
    (js "issuedAt", .str grant.issuedAt), (js "expiresAt", .str grant.expiresAt),
    (js "hostBinding", .str grant.hostBinding),
    (js "authoritySurfaceDigest", .str grant.authoritySurfaceDigest),
    (js "repos", listValue repoValue grant.repos), (js "merge", .obj (mergeMembers grant.merge)),
    (js "spend", spendValue grant.spend), (js "engines", listValue enumValue grant.engines),
    (js "leader", leaderValue grant.leader),
    (js "conductorGoals", flagValue grant.conductorGoals),
    (js "rollout", .obj [(js "stages", listValue stageValue grant.stages),
      (js "autoAdvance", flagValue true)])] ++
    match grant.websitePublication with
    | some web => [(js "websitePublication", websitePublicationValue web)]
    | none => []

def grantValue (grant : StandingGrantV1) : JsValue :=
  .obj (grantMembers grant)

/-! What each check gives back. -/

theorem refuseIf_eq_ok {refused : Prop} [Decidable refused] {reason : JsString} {mark : Unit} :
    refuseIf refused reason = .ok mark ↔ ¬ refused := by
  unfold refuseIf
  by_cases met : refused
  · rw [if_pos met]
    exact iff_of_false (fun answered => by cases answered) fun unmet => unmet met
  · rw [if_neg met]
    exact iff_of_true rfl met

variable {place : JsString}

theorem eq_of_intIn {n m min max : ℕ} (read : intIn (natValue n) min max place = .ok m) :
    m = n := by
  unfold intIn at read
  cases whole : (natValue n).asSafeInteger with
  | none =>
      rw [whole] at read
      cases read
  | some k =>
      have same : (n : ℤ) = k := JsNumber.eq_of_safeInteger?_ofRat whole
      rw [whole] at read
      simp only at read
      split_ifs at read
      rw [← Except.ok.inj read, ← same, Int.toNat_natCast]

variable {read : JsString}

theorem eq_of_matching {text : JsString} {pattern : JsString → Bool}
    (matched : matching (.str text) pattern place = .ok read) : read = text := by
  unfold matching at matched
  simp only at matched
  split_ifs at matched
  exact (Except.ok.inj matched).symm

theorem eq_of_oneOf {α : Type} [JsEnum α] {item read : α}
    (found : oneOf α (enumValue item) place = .ok read) : read = item := by
  unfold oneOf enumValue at found
  rw [JsEnum.ofValue_str] at found
  exact (Except.ok.inj found).symm

theorem eq_of_distinctItems {α : Type} [JsEnum α] [DecidableEq α] :
    {items seen read : List α} →
    distinctItems α place seen (items.map enumValue) = .ok read → read = seen ++ items
  | [], seen, read, found => by
      rw [List.append_nil]
      exact (Except.ok.inj found).symm
  | item :: items, seen, read, found => by
      rw [List.map_cons, distinctItems] at found
      obtain ⟨one, named, found⟩ := bind_eq_ok.mp found
      obtain ⟨_, _, found⟩ := bind_eq_ok.mp found
      rw [eq_of_oneOf named] at found
      rw [eq_of_distinctItems found, List.append_assoc, List.singleton_append]

theorem eq_of_uniqueList {α : Type} [JsEnum α] [DecidableEq α] {items read : List α} {min max : ℕ}
    (found : uniqueList α (listValue enumValue items) min max place = .ok read) :
    read = items := by
  unfold uniqueList listValue at found
  simp only at found
  split_ifs at found
  exact eq_of_distinctItems found

theorem eq_of_isoInstant {text : JsString} (found : isoInstant (.str text) place = .ok read) :
    read = text := by
  unfold isoInstant at found
  obtain ⟨one, matched, found⟩ := bind_eq_ok.mp found
  obtain ⟨_, _, found⟩ := bind_eq_ok.mp found
  rw [← pure_eq_ok.mp found, eq_of_matching matched]

theorem eq_of_isTrueOrFalse {flag read : Bool}
    (found : isTrueOrFalse (flagValue flag) place = .ok read) : read = flag :=
  (Except.ok.inj found).symm

theorem rest_of_record {α β : Type} {members : Members} {check : Members → Except JsString α}
    {rest : Members → α → Except JsString β} {read : β}
    (found : (record (.obj members) place >>= fun own => check own >>= rest own) = .ok read) :
    ∃ checked, rest members checked = .ok read := by
  obtain ⟨own, held, found⟩ := bind_eq_ok.mp found
  obtain rfl := Except.ok.inj held
  obtain ⟨checked, -, found⟩ := bind_eq_ok.mp found
  exact ⟨checked, found⟩

theorem eq_of_listOf {α : Type} {entry : α → JsValue} {items : List α} {max : ℕ}
    {place what : JsString} {read : List JsValue}
    (found : listOf (listValue entry items) max place what = .ok read) :
    read = items.map entry := by
  unfold listOf listValue at found
  simp only at found
  split_ifs at found
  exact (Except.ok.inj found).symm

theorem eq_of_eachAt {α : Type} {parse : JsValue → ℕ → Except JsString α} {entry : α → JsValue}
    (back : ∀ item i read, parse (entry item) i = .ok read → read = item) :
    {items read : List α} → {i : ℕ} → eachAt parse i (items.map entry) = .ok read → read = items
  | [], read, _, found => (Except.ok.inj found).symm
  | item :: items, read, i, found => by
      rw [List.map_cons, eachAt] at found
      obtain ⟨one, parsed, found⟩ := bind_eq_ok.mp found
      obtain ⟨others, rest, found⟩ := bind_eq_ok.mp found
      rw [← pure_eq_ok.mp found, back item i one parsed, eq_of_eachAt back rest]

theorem eq_of_whenOwn {α : Type} {members : Members} {key : JsString}
    {parse : JsValue → Except JsString α} {entry : α → JsValue} {item read : Option α}
    (back : ∀ item read, parse (entry item) = .ok read → read = item)
    (absent : item = none → hasMember members key = false)
    (present : ∀ value, item = some value →
      hasMember members key = true ∧ getMember members key = entry value)
    (found : whenOwn members key parse = .ok read) : read = item := by
  unfold whenOwn at found
  cases item with
  | none =>
      rw [if_neg (by rw [absent rfl]; exact Bool.false_ne_true)] at found
      exact (Except.ok.inj found).symm
  | some value =>
      rw [if_pos (present value rfl).1, (present value rfl).2] at found
      obtain ⟨_, parsed, rfl⟩ := map_eq_ok.mp found
      rw [back value _ parsed]

variable {i : ℕ}

theorem eq_of_parseRepo {operatorVolumes : Bool} {repo read : StandingGrantRepo}
    (found : parseRepo operatorVolumes (repoValue repo) i = .ok read) : read = repo := by
  unfold parseRepo at found
  obtain ⟨_, found⟩ := rest_of_record found
  obtain ⟨nameWithOwner, named, found⟩ := bind_eq_ok.mp found
  obtain ⟨stage, staged, found⟩ := bind_eq_ok.mp found
  obtain ⟨enforcement, enforced, found⟩ := bind_eq_ok.mp found
  obtain ⟨maxRisk, risked, found⟩ := bind_eq_ok.mp found
  obtain ⟨maxMergesPerDay, capped, found⟩ := bind_eq_ok.mp found
  obtain ⟨_, _, found⟩ := bind_eq_ok.mp found
  obtain ⟨_, _, found⟩ := bind_eq_ok.mp found
  obtain rfl := eq_of_matching named
  obtain rfl := eq_of_oneOf staged
  obtain rfl := eq_of_oneOf enforced
  obtain rfl := eq_of_oneOf risked
  obtain rfl := eq_of_intIn capped
  exact (pure_eq_ok.mp found).symm

theorem eq_of_parseSeat {seatId : SeatId} {seat read : StandingGrantSeat}
    (found : parseSeat seatId (seatValue seat) = .ok read) : read = seat := by
  unfold parseSeat at found
  obtain ⟨_, found⟩ := rest_of_record found
  obtain ⟨_, switched, found⟩ := bind_eq_ok.mp found
  obtain rfl := eq_of_isTrueOrFalse switched
  obtain ⟨_, reserved, found⟩ := bind_eq_ok.mp found
  obtain rfl := eq_of_intIn reserved
  obtain ⟨_, played, found⟩ := bind_eq_ok.mp found
  obtain rfl := eq_of_uniqueList played
  obtain ⟨ceiling, limited, found⟩ := bind_eq_ok.mp found
  obtain ⟨_, _, found⟩ := bind_eq_ok.mp found
  have same : ceiling = seat.maxSessionWindowPercent := by
    obtain ⟨_, _, percent, _⟩ := seat
    refine eq_of_whenOwn (fun _ _ => eq_of_intIn) ?_ ?_ limited
    · rintro rfl
      rfl
    · rintro value rfl
      exact ⟨rfl, rfl⟩
  rw [← pure_eq_ok.mp found, same]

theorem eq_of_parseSeats : {seats before read : JsMap SeatId StandingGrantSeat} →
    ((before ++ seats).map Prod.fst).Nodup →
    parseSeats before (seatMembers seats) = .ok read → read = before ++ seats
  | [], before, read, _, found => by
      rw [List.append_nil]
      exact (Except.ok.inj found).symm
  | (seatId, seat) :: seats, before, read, once, found => by
      rw [seatMembers, List.map_cons, parseSeats, dif_pos seatId.spelled] at found
      obtain ⟨one, parsed, found⟩ := bind_eq_ok.mp found
      obtain rfl := eq_of_parseSeat parsed
      have apart : seatId ∉ JsMap.keys before := by
        rw [List.map_append, List.map_cons, List.nodup_append] at once
        exact fun member => once.2.2 _ member _ List.mem_cons_self rfl
      change parseSeats (before.set seatId one) (seatMembers seats) = .ok read at found
      rw [JsMap.set_of_not_mem one apart] at found
      have rest := eq_of_parseSeats (by simpa using once) found
      rw [rest, List.append_assoc, List.singleton_append]

theorem eq_of_parseSpend {spend read : StandingGrantSpend} (once : spend.seats.keys.Nodup)
    (found : parseSpend (spendValue spend) = .ok read) : read = spend := by
  unfold parseSpend at found
  obtain ⟨_, found⟩ := rest_of_record found
  obtain ⟨_, found⟩ := rest_of_record found
  obtain ⟨seats, seated, found⟩ := bind_eq_ok.mp found
  obtain ⟨_, mode, found⟩ := bind_eq_ok.mp found
  obtain ⟨_, metered, found⟩ := bind_eq_ok.mp found
  obtain rfl := eq_of_oneOf mode
  obtain rfl := eq_of_intIn metered
  have same : seats = spend.seats := @eq_of_parseSeats spend.seats [] seats once seated
  rw [← pure_eq_ok.mp found, same]

theorem eq_of_parseLeader {leader read : StandingGrantLeader}
    (found : parseLeader (leaderValue leader) = .ok read) : read = leader := by
  unfold parseLeader at found
  obtain ⟨_, found⟩ := rest_of_record found
  obtain ⟨_, listed, found⟩ := bind_eq_ok.mp found
  obtain ⟨_, waited, found⟩ := bind_eq_ok.mp found
  obtain rfl := eq_of_uniqueList listed
  obtain rfl := eq_of_intIn waited
  exact (pure_eq_ok.mp found).symm

theorem eq_of_parseCriteria {criteria read : RolloutCriteria}
    (found : parseCriteria (criteriaValue criteria) place = .ok read) : read = criteria := by
  unfold parseCriteria at found
  obtain ⟨_, found⟩ := rest_of_record found
  iterate 2 obtain ⟨_, _, found⟩ := bind_eq_ok.mp found
  obtain ⟨_, merges, found⟩ := bind_eq_ok.mp found
  obtain ⟨_, green, found⟩ := bind_eq_ok.mp found
  obtain ⟨_, reverts, found⟩ := bind_eq_ok.mp found
  obtain ⟨_, hours, found⟩ := bind_eq_ok.mp found
  obtain rfl := eq_of_intIn merges
  obtain rfl := eq_of_intIn green
  obtain rfl := eq_of_intIn reverts
  obtain rfl := eq_of_intIn hours
  exact (pure_eq_ok.mp found).symm

variable {scope : StageScope}

theorem eq_of_parseStageRepo {repo read : RolloutStageRepo} {j : ℕ}
    (found : parseStageRepo scope place (stageRepoValue repo) j = .ok read) : read = repo := by
  unfold parseStageRepo at found
  obtain ⟨_, found⟩ := rest_of_record found
  obtain ⟨_, named, found⟩ := bind_eq_ok.mp found
  obtain rfl := eq_of_matching named
  split at found
  · cases found
  · obtain ⟨_, staged, found⟩ := bind_eq_ok.mp found
    obtain ⟨_, _, found⟩ := bind_eq_ok.mp found
    obtain rfl := eq_of_oneOf staged
    exact (pure_eq_ok.mp found).symm

theorem eq_of_parseStage {stage read : RolloutStage}
    (found : parseStage scope (stageValue stage) i = .ok read) : read = stage := by
  unfold parseStage at found
  obtain ⟨_, found⟩ := rest_of_record found
  obtain ⟨entries, listed, found⟩ := bind_eq_ok.mp found
  obtain rfl := eq_of_listOf listed
  obtain ⟨repos, named, found⟩ := bind_eq_ok.mp found
  obtain ⟨_, _, found⟩ := bind_eq_ok.mp found
  obtain ⟨_, lanes, found⟩ := bind_eq_ok.mp found
  obtain rfl := eq_of_eachAt (fun _ _ _ => eq_of_parseStageRepo) named
  obtain rfl := eq_of_uniqueList lanes
  split at found
  · cases found
  obtain ⟨_, risked, found⟩ := bind_eq_ok.mp found
  obtain ⟨_, classed, found⟩ := bind_eq_ok.mp found
  obtain rfl := eq_of_oneOf risked
  obtain rfl := eq_of_uniqueList classed
  split at found
  · cases found
  obtain ⟨_, identified, found⟩ := bind_eq_ok.mp found
  obtain ⟨_, files, found⟩ := bind_eq_ok.mp found
  obtain ⟨_, lines, found⟩ := bind_eq_ok.mp found
  obtain ⟨_, merges, found⟩ := bind_eq_ok.mp found
  obtain ⟨_, exits, found⟩ := bind_eq_ok.mp found
  obtain rfl := eq_of_matching identified
  obtain rfl := eq_of_intIn files
  obtain rfl := eq_of_intIn lines
  obtain rfl := eq_of_intIn merges
  obtain rfl := eq_of_parseCriteria exits
  exact (pure_eq_ok.mp found).symm

theorem eq_of_parseRollout {stages read : List RolloutStage}
    (found : parseRollout scope (.obj [(js "stages", listValue stageValue stages),
      (js "autoAdvance", flagValue true)]) = .ok read) : read = stages := by
  unfold parseRollout at found
  obtain ⟨_, found⟩ := rest_of_record found
  obtain ⟨_, _, found⟩ := bind_eq_ok.mp found
  obtain ⟨entries, listed, found⟩ := bind_eq_ok.mp found
  obtain rfl := eq_of_listOf listed
  obtain ⟨_, climbed, found⟩ := bind_eq_ok.mp found
  obtain ⟨_, _, found⟩ := bind_eq_ok.mp found
  rw [← pure_eq_ok.mp found, eq_of_eachAt (fun _ _ _ => eq_of_parseStage) climbed]

theorem eq_of_parseWebsitePublication {web read : StandingWebsitePublication}
    (found : parseWebsitePublication (websitePublicationValue web) = .ok read) : read = web := by
  unfold parseWebsitePublication at found
  obtain ⟨_, found⟩ := rest_of_record found
  obtain ⟨_, _, found⟩ := bind_eq_ok.mp found
  obtain ⟨_, digested, found⟩ := bind_eq_ok.mp found
  obtain ⟨_, _, found⟩ := bind_eq_ok.mp found
  obtain rfl := eq_of_matching digested
  exact (pure_eq_ok.mp found).symm

theorem operatorVolumes_mergeMembers (merge : StandingGrantMerge) :
    decide ((getMember (mergeMembers merge) (js "volumePolicy")).asString =
      some (js "operator-signed")) = merge.volumePolicy := by
  obtain ⟨operator, maxFiles, maxLines, selfRepo⟩ := merge
  cases operator
  · exact decide_eq_false fun same => by cases same
  · exact decide_eq_true rfl

theorem eq_of_parseMerge {merge read : StandingGrantMerge}
    (found : parseMerge (mergeMembers merge) merge.volumePolicy = .ok read) : read = merge := by
  unfold parseMerge at found
  obtain ⟨_, files, found⟩ := bind_eq_ok.mp found
  obtain ⟨_, lines, found⟩ := bind_eq_ok.mp found
  obtain ⟨_, own, found⟩ := bind_eq_ok.mp found
  obtain rfl := eq_of_intIn files
  obtain rfl := eq_of_intIn lines
  have mode : getMember (mergeMembers merge) (js "selfRepo") = enumValue merge.selfRepo := by
    obtain ⟨operator, maxFiles, maxLines, selfRepo⟩ := merge
    cases operator <;> rfl
  rw [mode] at own
  obtain rfl := eq_of_oneOf own
  exact (pure_eq_ok.mp found).symm

theorem eq_of_parsePayload {grant read : StandingGrantV1} (once : grant.spend.seats.keys.Nodup)
    (found : parsePayload (grantValue grant) = .ok read) : read = grant := by
  unfold parsePayload at found
  obtain ⟨_, found⟩ := rest_of_record found
  obtain ⟨_, _, found⟩ := bind_eq_ok.mp found
  obtain ⟨_, issued, found⟩ := bind_eq_ok.mp found
  obtain ⟨_, expires, found⟩ := bind_eq_ok.mp found
  obtain rfl := eq_of_isoInstant issued
  obtain rfl := eq_of_isoInstant expires
  obtain ⟨_, _, found⟩ := bind_eq_ok.mp found
  obtain ⟨_, _, found⟩ := bind_eq_ok.mp found
  obtain ⟨entries, listed, found⟩ := bind_eq_ok.mp found
  obtain rfl := eq_of_listOf listed
  obtain ⟨_, found⟩ := rest_of_record found
  rw [operatorVolumes_mergeMembers] at found
  obtain ⟨_, _, found⟩ := bind_eq_ok.mp found
  obtain ⟨_, repos, found⟩ := bind_eq_ok.mp found
  obtain rfl := eq_of_eachAt (fun _ _ _ => eq_of_parseRepo) repos
  obtain ⟨_, _, found⟩ := bind_eq_ok.mp found
  obtain ⟨_, merge, found⟩ := bind_eq_ok.mp found
  obtain ⟨_, spend, found⟩ := bind_eq_ok.mp found
  obtain ⟨_, engines, found⟩ := bind_eq_ok.mp found
  obtain ⟨_, leader, found⟩ := bind_eq_ok.mp found
  obtain ⟨_, goals, found⟩ := bind_eq_ok.mp found
  obtain rfl := eq_of_parseMerge merge
  obtain rfl := eq_of_parseSpend once spend
  obtain rfl := eq_of_uniqueList engines
  obtain rfl := eq_of_parseLeader leader
  obtain rfl := eq_of_isTrueOrFalse goals
  obtain ⟨web, published, found⟩ := bind_eq_ok.mp found
  obtain ⟨_, stages, found⟩ := bind_eq_ok.mp found
  obtain rfl := eq_of_parseRollout stages
  obtain ⟨_, id, found⟩ := bind_eq_ok.mp found
  obtain ⟨_, seq, found⟩ := bind_eq_ok.mp found
  obtain ⟨_, key, found⟩ := bind_eq_ok.mp found
  obtain ⟨_, host, found⟩ := bind_eq_ok.mp found
  obtain ⟨_, digest, found⟩ := bind_eq_ok.mp found
  obtain rfl := eq_of_matching id
  obtain rfl := eq_of_intIn seq
  obtain rfl := eq_of_matching key
  obtain rfl := eq_of_matching host
  obtain rfl := eq_of_matching digest
  have same : web = grant.websitePublication := by
    obtain ⟨_, _, _, _, _, _, _, _, _, _, _, _, _, _, publication⟩ := grant
    refine eq_of_whenOwn (fun _ _ => eq_of_parseWebsitePublication) ?_ ?_ published
    · rintro rfl
      rfl
    · rintro value rfl
      exact ⟨rfl, rfl⟩
  rw [← pure_eq_ok.mp found, same]

/-! What every parsed grant satisfies. -/

variable {value : JsValue}

theorem pattern_of_matching {pattern : JsString → Bool}
    (matched : matching value pattern place = .ok read) :
    pattern read = true := by
  unfold matching at matched
  split at matched
  · split_ifs at matched with fits
    cases matched
    exact fits
  · cases matched

theorem mem_of_eachAt {α : Type} {parse : JsValue → ℕ → Except JsString α} {item : α} :
    {entries : List JsValue} → {read : List α} → {i : ℕ} →
    eachAt parse i entries = .ok read → item ∈ read →
    ∃ entry ∈ entries, ∃ j, parse entry j = .ok item
  | [], read, _, found, member => by
      cases found
      cases member
  | entry :: entries, read, i, found, member => by
      rw [eachAt] at found
      obtain ⟨one, parsed, found⟩ := bind_eq_ok.mp found
      obtain ⟨others, rest, found⟩ := bind_eq_ok.mp found
      rw [← pure_eq_ok.mp found] at member
      rcases List.mem_cons.mp member with rfl | later
      · exact ⟨entry, List.mem_cons_self, i, parsed⟩
      · obtain ⟨source, held, j, parsed⟩ := mem_of_eachAt rest later
        exact ⟨source, List.mem_cons_of_mem _ held, j, parsed⟩

theorem nodup_parseSeats : {members : Members} → {before read : JsMap SeatId StandingGrantSeat} →
    before.keys.Nodup → parseSeats before members = .ok read → read.keys.Nodup
  | [], before, read, once, found => Except.ok.inj found ▸ once
  | (key, value) :: members, before, read, once, found => by
      rw [parseSeats] at found
      split_ifs at found with spelled
      obtain ⟨seat, _, found⟩ := bind_eq_ok.mp found
      exact nodup_parseSeats (JsMap.nodup_keys_set _ _ once) found

theorem nodup_parseSpend {spend : StandingGrantSpend} (found : parseSpend value = .ok spend) :
    spend.seats.keys.Nodup := by
  unfold parseSpend at found
  iterate 4 obtain ⟨_, _, found⟩ := bind_eq_ok.mp found
  obtain ⟨_, seated, found⟩ := bind_eq_ok.mp found
  obtain ⟨_, _, found⟩ := bind_eq_ok.mp found
  obtain ⟨_, _, found⟩ := bind_eq_ok.mp found
  rw [← pure_eq_ok.mp found]
  exact @nodup_parseSeats _ [] _ List.nodup_nil seated

theorem stageId_of_parseStage {stage : RolloutStage}
    (found : parseStage scope value i = .ok stage) :
    stageIdPattern stage.id = true := by
  unfold parseStage at found
  iterate 6 obtain ⟨_, _, found⟩ := bind_eq_ok.mp found
  split at found
  · cases found
  obtain ⟨_, _, found⟩ := bind_eq_ok.mp found
  obtain ⟨_, _, found⟩ := bind_eq_ok.mp found
  split at found
  · cases found
  obtain ⟨_, identified, found⟩ := bind_eq_ok.mp found
  iterate 4 obtain ⟨_, _, found⟩ := bind_eq_ok.mp found
  rw [← pure_eq_ok.mp found]
  exact pattern_of_matching identified

theorem parseRollout_stages {stages : List RolloutStage}
    (found : parseRollout scope value = .ok stages) :
    (stages.map (·.id)).Nodup ∧ ∀ stage ∈ stages, stageIdPattern stage.id = true := by
  unfold parseRollout at found
  iterate 4 obtain ⟨_, _, found⟩ := bind_eq_ok.mp found
  obtain ⟨_, climbed, found⟩ := bind_eq_ok.mp found
  obtain ⟨_, unique, found⟩ := bind_eq_ok.mp found
  rw [← pure_eq_ok.mp found]
  refine ⟨not_not.mp (refuseIf_eq_ok.mp unique), fun stage member => ?_⟩
  obtain ⟨_, _, _, parsed⟩ := mem_of_eachAt climbed member
  exact stageId_of_parseStage parsed

structure WellNamed (grant : StandingGrantV1) : Prop where
  repos : (grant.repos.map fun repo => toLowerCase repo.nameWithOwner).Nodup
  seats : grant.spend.seats.keys.Nodup
  stages : (grant.stages.map (·.id)).Nodup
  stageIds : ∀ stage ∈ grant.stages, stageIdPattern stage.id = true

theorem wellNamed_of_parsePayload {grant : StandingGrantV1}
    (found : parsePayload value = .ok grant) : WellNamed grant := by
  unfold parsePayload at found
  iterate 12 obtain ⟨_, _, found⟩ := bind_eq_ok.mp found
  obtain ⟨_, unique, found⟩ := bind_eq_ok.mp found
  obtain ⟨_, _, found⟩ := bind_eq_ok.mp found
  obtain ⟨_, spent, found⟩ := bind_eq_ok.mp found
  iterate 4 obtain ⟨_, _, found⟩ := bind_eq_ok.mp found
  obtain ⟨_, climbed, found⟩ := bind_eq_ok.mp found
  iterate 5 obtain ⟨_, _, found⟩ := bind_eq_ok.mp found
  obtain ⟨stages, stageIds⟩ := parseRollout_stages climbed
  rw [← pure_eq_ok.mp found]
  exact ⟨not_not.mp (refuseIf_eq_ok.mp unique), nodup_parseSpend spent, stages, stageIds⟩

end AshlrHub.Grant
