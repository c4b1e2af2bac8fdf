import AshlrHub.Universe.CanonicalOrder
import AshlrHub.Vision.MissionOrderings

namespace AshlrHub.Vision

open Js Lib
open Artifacts (count texts)
open Authority (sortByKey mem_sortByKey nodup_sortByKey isJson_obj eq_of_key_eq)

/-! What the digest of a mission graph tells of it. -/

variable {unicode : Normalization}

/-! Canonical values. -/

theorem canonicalizeItems_iff : {items entries : List JsValue} →
    (canonicalizeItems unicode items = some entries ↔
      List.Forall₂ (fun item entry => canonicalize unicode item = some entry) items entries)
  | [], entries => by
      rw [canonicalizeItems, List.forall₂_nil_left_iff, Option.some_inj]
      exact eq_comm
  | item :: items, entries => by
      rw [canonicalizeItems, List.forall₂_cons_left_iff]
      cases first : canonicalize unicode item with
      | none => simp
      | some entry =>
          cases rest : canonicalizeItems unicode items with
          | none =>
              simp only [reduceCtorEq, Option.some_inj, false_iff, not_exists, not_and]
              intro other others _ alike
              rw [← canonicalizeItems_iff, rest] at alike
              cases alike
          | some others =>
              simp only [Option.some_inj, ← canonicalizeItems_iff, rest]
              constructor
              · rintro rfl
                exact ⟨entry, others, rfl, rfl, rfl⟩
              · rintro ⟨_, _, rfl, rfl, rfl⟩
                rfl

def MemberMade (unicode : Normalization) (member entry : JsString × JsValue) : Prop :=
  entry.1 = unicode.nfc member.1 ∧ canonicalize unicode member.2 = some entry.2

theorem canonicalizeMembers_iff : {members entries : List (JsString × JsValue)} →
    (canonicalizeMembers unicode members = some entries ↔
      List.Forall₂ (MemberMade unicode) members entries)
  | [], entries => by
      rw [canonicalizeMembers, List.forall₂_nil_left_iff, Option.some_inj]
      exact eq_comm
  | (key, value) :: members, entries => by
      rw [canonicalizeMembers, List.forall₂_cons_left_iff]
      unfold MemberMade
      cases first : canonicalize unicode value with
      | none => simp
      | some entry =>
          cases rest : canonicalizeMembers unicode members with
          | none =>
              simp only [reduceCtorEq, false_iff, not_exists, not_and]
              intro other others _ alike
              have made := canonicalizeMembers_iff.mpr alike
              rw [rest] at made
              cases made
          | some others =>
              constructor
              · intro made
                cases made
                exact ⟨_, others, ⟨rfl, rfl⟩, canonicalizeMembers_iff.mp rest, rfl⟩
              · rintro ⟨⟨other, _⟩, more, ⟨rfl, same⟩, alike, rfl⟩
                have made := canonicalizeMembers_iff.mpr alike
                rw [rest, Option.some_inj] at made
                cases same
                rw [made]

variable {canonical : JsValue}

theorem canonicalize_obj_iff {members : List (JsString × JsValue)} :
    canonicalize unicode (.obj members) = some canonical ↔
      ∃ entries, List.Forall₂ (MemberMade unicode) members entries ∧
        (entries.map Prod.fst).Nodup ∧ canonical = .obj (sortByKey entries) := by
  rw [canonicalize]
  constructor
  · intro made
    cases each : canonicalizeMembers unicode members with
    | none =>
        rw [each] at made
        cases made
    | some entries =>
        rw [each] at made
        dsimp only at made
        split_ifs at made with once
        cases made
        exact ⟨entries, canonicalizeMembers_iff.mp each, once, rfl⟩
  · rintro ⟨entries, alike, once, rfl⟩
    rw [canonicalizeMembers_iff.mpr alike]
    exact if_pos once

theorem canonicalize_arr_iff {items : List JsValue} :
    canonicalize unicode (.arr items) = some canonical ↔ ∃ entries,
      List.Forall₂ (fun item entry => canonicalize unicode item = some entry) items entries ∧
        .arr entries = canonical := by
  rw [canonicalize, Option.map_eq_some_iff]
  simp only [canonicalizeItems_iff]

theorem isJson_canonicalize (value : JsValue) : ∀ {canonical : JsValue},
    canonicalize unicode value = some canonical → canonical.isJson = true := by
  induction value using Artifacts.JsValue.parts with
  | scalar value notArray notObject =>
      intro canonical made
      cases value with
      | undefined => cases made
      | null => cases made; rfl
      | bool _ => cases made; rfl
      | str _ => cases made; rfl
      | num number =>
          cases number with
          | nan => cases made
          | infinity _ => cases made
          | finite _ => cases made; rfl
      | arr items => exact absurd rfl (notArray items)
      | obj members => exact absurd rfl (notObject members)
  | arr items each =>
      intro canonical made
      obtain ⟨entries, alike, rfl⟩ := canonicalize_arr_iff.mp made
      rw [JsValue.isJson, Artifacts.allJson_iff]
      intro entry member
      obtain ⟨item, inside, own⟩ := exists_of_forall₂ alike member
      exact each item inside own
  | obj members each =>
      intro canonical made
      obtain ⟨entries, alike, once, rfl⟩ := canonicalize_obj_iff.mp made
      rw [isJson_obj]
      refine ⟨nodup_sortByKey.mpr once, fun entry member => ?_⟩
      obtain ⟨source, inside, own⟩ := exists_of_forall₂ alike (mem_sortByKey.mp member)
      exact each source inside own.2

theorem writeValue_inj {first second : JsValue} (firstJson : first.isJson = true)
    (secondJson : second.isJson = true) (same : writeValue first = writeValue second) :
    first = second := by
  have read := parseJson_writeValue firstJson
  rw [same, parseJson_writeValue secondJson] at read
  exact (Option.some_inj.mp read).symm

/-! Values with one canonical form. -/

def Alike (unicode : Normalization) (first second : JsValue) : Prop :=
  ∃ canonical, canonicalize unicode first = some canonical ∧
    canonicalize unicode second = some canonical

theorem Alike.symm {first second : JsValue} (alike : Alike unicode first second) :
    Alike unicode second first := by
  obtain ⟨canonical, one, other⟩ := alike
  exact ⟨canonical, other, one⟩

theorem Alike.str {first second : JsString} (alike : Alike unicode (.str first) (.str second)) :
    unicode.nfc first = unicode.nfc second := by
  obtain ⟨canonical, one, other⟩ := alike
  rw [canonicalize] at one other
  rw [← other, Option.some_inj, JsValue.str.injEq] at one
  exact one

theorem forall₂_alike : {first second entries : List JsValue} →
    List.Forall₂ (fun item entry => canonicalize unicode item = some entry) first entries →
    List.Forall₂ (fun item entry => canonicalize unicode item = some entry) second entries →
    List.Forall₂ (Alike unicode) first second
  | _, _, _, .nil, .nil => .nil
  | _, _, _, .cons one first, .cons other second =>
      .cons ⟨_, one, other⟩ (forall₂_alike first second)

theorem Alike.arr {first second : List JsValue} (alike : Alike unicode (.arr first) (.arr second)) :
    List.Forall₂ (Alike unicode) first second := by
  obtain ⟨canonical, one, other⟩ := alike
  obtain ⟨entries, each, rfl⟩ := canonicalize_arr_iff.mp one
  obtain ⟨_, others, same⟩ := canonicalize_arr_iff.mp other
  cases same
  exact forall₂_alike each others

def PlainKeys (unicode : Normalization) (members : List (JsString × JsValue)) : Prop :=
  ∀ member ∈ members, unicode.nfc member.1 = member.1

theorem Alike.member {first second : List (JsString × JsValue)}
    (alike : Alike unicode (.obj first) (.obj second)) (plain : PlainKeys unicode first)
    (otherPlain : PlainKeys unicode second) {key : JsString} {value : JsValue}
    (member : (key, value) ∈ first) :
    ∃ other, (key, other) ∈ second ∧ Alike unicode value other := by
  obtain ⟨canonical, one, other⟩ := alike
  obtain ⟨entries, each, _, rfl⟩ := canonicalize_obj_iff.mp one
  obtain ⟨others, eachOther, _, same⟩ := canonicalize_obj_iff.mp other
  rw [JsValue.obj.injEq] at same
  obtain ⟨entry, inside, named, made⟩ := exists_of_forall₂ each.flip member
  have sorted := mem_sortByKey.mpr inside
  rw [same] at sorted
  obtain ⟨⟨otherKey, otherValue⟩, there, otherNamed, otherMade⟩ :=
    exists_of_forall₂ eachOther (mem_sortByKey.mp sorted)
  rw [named, plain _ member, otherPlain _ there] at otherNamed
  dsimp only at otherNamed
  rw [← otherNamed] at there
  exact ⟨otherValue, there, entry.2, made, otherMade⟩

theorem Alike.field {first second : List (JsString × JsValue)}
    (alike : Alike unicode (.obj first) (.obj second)) (plain : PlainKeys unicode first)
    (otherPlain : PlainKeys unicode second) (once : (second.map Prod.fst).Nodup) {key : JsString}
    {value other : JsValue} (member : (key, value) ∈ first) (otherMember : (key, other) ∈ second) :
    Alike unicode value other := by
  obtain ⟨found, inside, same⟩ := alike.member plain otherPlain member
  cases eq_of_key_eq once inside otherMember rfl
  exact same

theorem Alike.texts {first second : List JsString}
    (alike : Alike unicode (texts first) (texts second)) :
    first.map unicode.nfc = second.map unicode.nfc := by
  have each := alike.arr
  rw [List.forall₂_map_left_iff, List.forall₂_map_right_iff] at each
  rw [← List.forall₂_eq_eq_eq, List.forall₂_map_left_iff, List.forall₂_map_right_iff]
  exact each.imp fun _ _ => Alike.str

theorem Alike.sorted {first second : List JsString}
    (alike : Alike unicode (Artifacts.texts (sortTexts first))
      (Artifacts.texts (sortTexts second))) :
    (first.map unicode.nfc).Perm (second.map unicode.nfc) := by
  have firstPerm := (List.perm_insertionSort (· ≤ ·) first).map unicode.nfc
  have secondPerm := (List.perm_insertionSort (· ≤ ·) second).map unicode.nfc
  refine firstPerm.symm.trans (List.Perm.trans ?_ secondPerm)
  exact List.Perm.of_eq alike.texts

/-! Keys and times are plain texts. -/

theorem isAscii_keyUnit {unit : CodeUnit}
    (plain : (keyUnit unit || (js "._-").contains unit) = true) : unit.toNat < 0x80 := by
  rw [Bool.or_eq_true] at plain
  rcases plain with letter | mark
  · simp only [keyUnit, isDigit, Authority.isLower, Bool.or_eq_true, Bool.and_eq_true,
      decide_eq_true_eq] at letter
    omega
  · have marks : IsAscii (js "._-") := by decide
    exact marks unit (List.contains_iff_mem.mp mark)

theorem isAscii_of_validKey {key : JsString} (valid : validKey key = true) : IsAscii key := by
  rw [validKey, Bool.and_eq_true] at valid
  have pattern := valid.2
  match key, pattern with
  | [unit], single =>
      intro other member
      rw [List.mem_singleton.mp member]
      exact isAscii_keyUnit (by rw [keyPattern] at single; rw [single, Bool.true_or])
  | first :: second :: rest, more =>
      rw [keyPattern, Bool.and_eq_true, Bool.and_eq_true, Bool.and_eq_true] at more
      obtain ⟨⟨⟨head, _⟩, middle⟩, last⟩ := more
      intro unit member
      rcases List.mem_cons.mp member with rfl | later
      · exact isAscii_keyUnit (by rw [head, Bool.true_or])
      · rw [← List.dropLast_concat_getLast (List.cons_ne_nil second rest), List.mem_append,
          List.mem_singleton] at later
        rcases later with inner | rfl
        · exact isAscii_keyUnit (List.all_eq_true.mp middle unit inner)
        · rw [List.getLast?_eq_getLast_of_ne_nil (List.cons_ne_nil second rest),
            Option.any_some] at last
          exact isAscii_keyUnit (by rw [last, Bool.true_or])

theorem isAscii_digitUnit (n : ℕ) : (digitUnit n).toNat < 0x80 := by
  rw [digitUnit, UInt16.toNat_ofNat']
  omega

theorem isAscii_tailText (i : Instant) : IsAscii i.tailText := by
  rw [IsAscii, Instant.tailText_eq]
  simp [isAscii_digitUnit]

theorem isAscii_yearText (year : ℤ) : IsAscii (yearText year) := by
  unfold yearText
  split_ifs
  · simp [IsAscii, pad4, pad3, pad2, isAscii_digitUnit]
  · exact IsAscii.append (by decide) (by simp [IsAscii, pad6, pad4, pad3, pad2, isAscii_digitUnit])
  · exact IsAscii.append (by decide) (by simp [IsAscii, pad6, pad4, pad3, pad2, isAscii_digitUnit])

theorem isAscii_of_validTimestamp {text : JsString} (valid : validTimestamp text = true) :
    IsAscii text := by
  rw [validTimestamp, Bool.and_eq_true] at valid
  obtain ⟨t, formatted⟩ := isCanonicalInstant_iff.mp valid.2
  rw [toISOString] at formatted
  split_ifs at formatted
  cases formatted
  exact (isAscii_yearText _).append (isAscii_tailText _)

theorem nfc_kind (kind : MissionGraphNodeKind) : unicode.nfc kind.text = kind.text := by
  apply unicode.ascii
  cases kind <;> decide

theorem nfc_riskClass (riskClass : MissionGraphRiskClass) :
    unicode.nfc riskClass.text = riskClass.text := by
  apply unicode.ascii
  cases riskClass <;> decide

theorem kind_text_inj : ∀ first second : MissionGraphNodeKind, first.text = second.text →
    first = second := by
  intro first second
  cases first <;> cases second <;> decide

theorem riskClass_text_inj : ∀ first second : MissionGraphRiskClass, first.text = second.text →
    first = second := by
  intro first second
  cases first <;> cases second <;> decide

/-! Graphs that read the same in normal form. -/

structure ContractsAlike (unicode : Normalization) (first second : MissionOutcomeContract) :
    Prop where
  desiredOutcome : unicode.nfc first.desiredOutcome = unicode.nfc second.desiredOutcome
  successSignals : (first.successSignals.map unicode.nfc).Perm
    (second.successSignals.map unicode.nfc)
  guardrails : (first.guardrails.map unicode.nfc).Perm (second.guardrails.map unicode.nfc)

/-- The same node, up to the order of its lists and to the normal form of its texts. -/
structure NodesAlike (unicode : Normalization) (first second : EcosystemMissionGraphNodeV1) :
    Prop where
  kind : first.kind = second.kind
  key : first.key = second.key
  title : unicode.nfc first.title = unicode.nfc second.title
  objective : unicode.nfc first.objective = unicode.nfc second.objective
  deliverable : unicode.nfc first.deliverable = unicode.nfc second.deliverable
  riskClass : first.riskClass = second.riskClass
  repo : first.repo.map unicode.nfc = second.repo.map unicode.nfc
  dependsOn : first.dependsOn.Perm second.dependsOn
  acceptance : (first.acceptance.map unicode.nfc).Perm (second.acceptance.map unicode.nfc)
  outcomeContract : Option.Rel (ContractsAlike unicode) first.outcomeContract second.outcomeContract

structure GraphsAlike (unicode : Normalization) (first second : EcosystemMissionGraphV1) :
    Prop where
  missionKey : first.missionKey = second.missionKey
  title : unicode.nfc first.title = unicode.nfc second.title
  objective : unicode.nfc first.objective = unicode.nfc second.objective
  createdAt : first.createdAt = second.createdAt
  nodes : ∃ paired, first.nodes.Perm paired ∧ List.Forall₂ (NodesAlike unicode) paired second.nodes

def contractKeys : List JsString :=
  [js "desiredOutcome", js "successSignals", js "guardrails"]

def nodeKeys : List JsString :=
  [js "kind", js "key", js "title", js "objective", js "deliverable", js "riskClass", js "repo",
    js "dependsOn", js "acceptance", js "outcomeContract"]

def graphKeys : List JsString :=
  [js "schemaVersion", js "digestAlgorithm", js "missionKey", js "title", js "objective",
    js "createdAt", js "nodes"]

theorem plainKeys_of_subset {members : List (JsString × JsValue)} {keys : List JsString}
    (within : (members.map Prod.fst).Sublist keys)
    (plain : ∀ key ∈ keys, IsAscii key) : PlainKeys unicode members :=
  fun member inside =>
    unicode.ascii _ (plain member.1 (within.subset (List.mem_map_of_mem inside)))

theorem contractsAlike {first second : MissionOutcomeContract}
    (alike : Alike unicode first.payload second.payload) : ContractsAlike unicode first second := by
  have plain (contract : MissionOutcomeContract) : PlainKeys unicode
      [(js "desiredOutcome", .str contract.desiredOutcome),
        (js "successSignals", Artifacts.texts (sortTexts contract.successSignals)),
        (js "guardrails", Artifacts.texts (sortTexts contract.guardrails))] :=
    @plainKeys_of_subset _ _ contractKeys (List.Sublist.refl _) (by decide)
  have field {key : JsString} {value other : JsValue} :=
    @Alike.field unicode _ _ alike (plain first) (plain second)
      (by decide : contractKeys.Nodup) key value other
  exact ⟨(@field (js "desiredOutcome") _ _ (by simp) (by simp)).str,
    (@field (js "successSignals") _ _ (by simp) (by simp)).sorted,
    (@field (js "guardrails") _ _ (by simp) (by simp)).sorted⟩

theorem members_keys (node : EcosystemMissionGraphNodeV1) :
    (node.members.map Prod.fst).Sublist nodeKeys := by
  rw [EcosystemMissionGraphNodeV1.members]
  cases node.outcomeContract with
  | none => simp [nodeKeys]
  | some _ => simp [nodeKeys]

theorem repo_alike {first second : Option JsString}
    (alike : Alike unicode ((first.map JsValue.str).getD .null)
      ((second.map JsValue.str).getD .null)) :
    first.map unicode.nfc = second.map unicode.nfc := by
  cases first with
  | none =>
      cases second with
      | none => rfl
      | some _ =>
          obtain ⟨_, one, other⟩ := alike
          cases one
          cases other
  | some _ =>
      cases second with
      | none =>
          obtain ⟨_, one, other⟩ := alike
          cases one
          cases other
      | some _ => exact congrArg some alike.str

theorem map_nfc_of_ascii {texts : List JsString} (plain : ∀ text ∈ texts, IsAscii text) :
    texts.map unicode.nfc = texts := by
  conv_rhs => rw [← List.map_id texts]
  exact List.map_congr_left fun text member => unicode.ascii text (plain text member)

theorem contract_mem {node : EcosystemMissionGraphNodeV1} {contract : MissionOutcomeContract}
    (told : node.outcomeContract = some contract) :
    (js "outcomeContract", contract.payload) ∈ node.members := by
  rw [EcosystemMissionGraphNodeV1.members, told]
  exact List.mem_append_right _ (by simp)

theorem contract_absent {node : EcosystemMissionGraphNodeV1} {value : JsValue}
    (absent : node.outcomeContract = none) : (js "outcomeContract", value) ∉ node.members := by
  intro listed
  rw [EcosystemMissionGraphNodeV1.members, absent] at listed
  have named : js "outcomeContract" ∈ nodeKeys.dropLast := by
    simpa [nodeKeys] using List.mem_map_of_mem (f := Prod.fst) listed
  revert named
  decide

theorem nodesAlike {first second : EcosystemMissionGraphNodeV1}
    (firstKey : IsAscii first.key) (secondKey : IsAscii second.key)
    (firstDepends : ∀ dependency ∈ first.dependsOn, IsAscii dependency)
    (secondDepends : ∀ dependency ∈ second.dependsOn, IsAscii dependency)
    (alike : Alike unicode (.obj first.members) (.obj second.members)) :
    NodesAlike unicode first second := by
  have plain (node : EcosystemMissionGraphNodeV1) : PlainKeys unicode node.members :=
    plainKeys_of_subset (members_keys node) (by decide)
  have once := (by decide : nodeKeys.Nodup).sublist (members_keys second)
  have field {key : JsString} {value other : JsValue} :=
    @Alike.field unicode _ _ alike (plain first) (plain second) once key value other
  have inside {node : EcosystemMissionGraphNodeV1} {member : JsString × JsValue}
      (listed : member ∈ [(js "kind", .str node.kind.text), (js "key", .str node.key),
        (js "title", .str node.title), (js "objective", .str node.objective),
        (js "deliverable", .str node.deliverable), (js "riskClass", .str node.riskClass.text),
        (js "repo", (node.repo.map JsValue.str).getD .null),
        (js "dependsOn", texts (sortTexts node.dependsOn)),
        (js "acceptance", texts (sortTexts node.acceptance))]) : member ∈ node.members :=
    List.mem_append_left _ listed
  refine
    { kind := ?_
      key := ?_
      title := (@field (js "title") _ _ (inside (by simp)) (inside (by simp))).str
      objective := (@field (js "objective") _ _ (inside (by simp)) (inside (by simp))).str
      deliverable := (@field (js "deliverable") _ _ (inside (by simp)) (inside (by simp))).str
      riskClass := ?_
      repo := repo_alike (@field (js "repo") _ _ (inside (by simp)) (inside (by simp)))
      dependsOn := ?_
      acceptance := (@field (js "acceptance") _ _ (inside (by simp)) (inside (by simp))).sorted
      outcomeContract := ?_ }
  · have told : Alike unicode (.str first.kind.text) (.str second.kind.text) :=
      @field (js "kind") _ _ (inside (by simp)) (inside (by simp))
    have same := told.str
    rw [nfc_kind, nfc_kind] at same
    exact kind_text_inj _ _ same
  · have told : Alike unicode (.str first.key) (.str second.key) :=
      @field (js "key") _ _ (inside (by simp)) (inside (by simp))
    have same := told.str
    rwa [unicode.ascii _ firstKey, unicode.ascii _ secondKey] at same
  · have told : Alike unicode (.str first.riskClass.text) (.str second.riskClass.text) :=
      @field (js "riskClass") _ _ (inside (by simp)) (inside (by simp))
    have same := told.str
    rw [nfc_riskClass, nfc_riskClass] at same
    exact riskClass_text_inj _ _ same
  · have told : Alike unicode (texts (sortTexts first.dependsOn))
        (texts (sortTexts second.dependsOn)) :=
      @field (js "dependsOn") _ _ (inside (by simp)) (inside (by simp))
    have same := told.sorted
    rwa [map_nfc_of_ascii firstDepends, map_nfc_of_ascii secondDepends] at same
  · cases one : first.outcomeContract with
    | none =>
        cases other : second.outcomeContract with
        | none => exact .none
        | some contract =>
            obtain ⟨_, impossible, _⟩ :=
              alike.symm.member (plain second) (plain first) (contract_mem other)
            exact absurd impossible (contract_absent one)
    | some contract =>
        cases other : second.outcomeContract with
        | none =>
            obtain ⟨_, impossible, _⟩ :=
              alike.member (plain first) (plain second) (contract_mem one)
            exact absurd impossible (contract_absent other)
        | some _ => exact .some (contractsAlike (field (contract_mem one) (contract_mem other)))

theorem forall₂_nodesAlike : {first second : List EcosystemMissionGraphNodeV1} →
    (∀ node ∈ first ++ second, IsAscii node.key ∧
      ∀ dependency ∈ node.dependsOn, IsAscii dependency) →
    List.Forall₂ (Alike unicode) (first.map fun node => .obj node.members)
      (second.map fun node => .obj node.members) →
    List.Forall₂ (NodesAlike unicode) first second
  | [], [], _, _ => .nil
  | [], _ :: _, _, alike => by cases alike
  | _ :: _, [], _, alike => by cases alike
  | node :: first, other :: second, plain, alike => by
      rw [List.map_cons, List.map_cons, List.forall₂_cons] at alike
      have one := plain node (by simp)
      have two := plain other (by simp)
      refine .cons (nodesAlike one.1 two.1 one.2 two.2 alike.1) (forall₂_nodesAlike ?_ alike.2)
      intro later member
      refine plain later ?_
      rcases List.mem_append.mp member with inFirst | inSecond
      · exact List.mem_append_left _ (List.mem_cons_of_mem _ inFirst)
      · exact List.mem_append_right _ (List.mem_cons_of_mem _ inSecond)

theorem perm_forall₂ {α : Type} {alike : α → α → Prop} {first second one two : List α}
    (firstPerm : first.Perm one) (matched : List.Forall₂ alike one two)
    (secondPerm : two.Perm second) :
    ∃ paired, first.Perm paired ∧ List.Forall₂ alike paired second := by
  have moved : Relation.Comp (List.Forall₂ alike) List.Perm one second := ⟨two, matched, secondPerm⟩
  rw [List.forall₂_comp_perm_eq_perm_comp_forall₂] at moved
  obtain ⟨paired, perm, alike⟩ := moved
  exact ⟨paired, firstPerm.trans perm, alike⟩

theorem graphsAlike {first second : EcosystemMissionGraphV1}
    (firstSound : Sound first.nodes) (secondSound : Sound second.nodes)
    (firstKey : IsAscii first.missionKey) (secondKey : IsAscii second.missionKey)
    (firstTime : IsAscii first.createdAt) (secondTime : IsAscii second.createdAt)
    (alike : Alike unicode (graphDigestPayload first) (graphDigestPayload second)) :
    GraphsAlike unicode first second := by
  have plain (graph : EcosystemMissionGraphV1) : PlainKeys unicode
      [(js "schemaVersion", count 1), (js "digestAlgorithm", .str (js "sha256")),
        (js "missionKey", .str graph.missionKey), (js "title", .str graph.title),
        (js "objective", .str graph.objective), (js "createdAt", .str graph.createdAt),
        (js "nodes", .arr ((sortNodes graph.nodes).map fun node => .obj node.members))] :=
    @plainKeys_of_subset _ _ graphKeys (List.Sublist.refl _) (by decide)
  have field {key : JsString} {value other : JsValue} :=
    @Alike.field unicode _ _ alike (plain first) (plain second)
      (by decide : graphKeys.Nodup) key value other
  have keyTold : Alike unicode (.str first.missionKey) (.str second.missionKey) :=
    @field (js "missionKey") _ _ (by simp) (by simp)
  have timeTold : Alike unicode (.str first.createdAt) (.str second.createdAt) :=
    @field (js "createdAt") _ _ (by simp) (by simp)
  have nodesTold : Alike unicode
      (.arr ((sortNodes first.nodes).map fun node => .obj node.members))
      (.arr ((sortNodes second.nodes).map fun node => .obj node.members)) :=
    @field (js "nodes") _ _ (by simp) (by simp)
  have sameKey := keyTold.str
  have sameTime := timeTold.str
  rw [unicode.ascii _ firstKey, unicode.ascii _ secondKey] at sameKey
  rw [unicode.ascii _ firstTime, unicode.ascii _ secondTime] at sameTime
  have matched : List.Forall₂ (NodesAlike unicode) (sortNodes first.nodes)
      (sortNodes second.nodes) := by
    refine forall₂_nodesAlike (fun node member => ?_) nodesTold.arr
    have within {graph : EcosystemMissionGraphV1} (sound : Sound graph.nodes)
        (inside : node ∈ sortNodes graph.nodes) :
        IsAscii node.key ∧ ∀ dependency ∈ node.dependsOn, IsAscii dependency := by
      have listed := (List.mem_insertionSort _).mp inside
      exact ⟨isAscii_of_validKey (sound.valid node listed), fun dependency depends =>
        isAscii_of_validKey (sound.dependsValid node listed dependency depends)⟩
    rcases List.mem_append.mp member with inFirst | inSecond
    · exact within firstSound inFirst
    · exact within secondSound inSecond
  exact
    { missionKey := sameKey
      title := (@field (js "title") _ _ (by simp) (by simp)).str
      objective := (@field (js "objective") _ _ (by simp) (by simp)).str
      createdAt := sameTime
      nodes := perm_forall₂ (List.perm_insertionSort _ _).symm matched
        (List.perm_insertionSort _ _) }

end AshlrHub.Vision
