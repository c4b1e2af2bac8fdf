import AshlrHub.Js.Json

namespace AshlrHub.Authority

open Js

/-! Canonical JSON, the encoding every signed or hash-chained record uses: keys
sorted by code unit, no whitespace, `undefined` dropped from objects. -/

inductive CanonicalError where
  | nonFinite
  | requiresValue

/-- `Array.prototype.sort` on the keys of an object. -/
def sortByKey (members : List (JsString × α)) : List (JsString × α) :=
  members.insertionSort fun first second => first.1 ≤ second.1

def memberText (member : JsString × JsString) : JsString :=
  quote member.1 ++ (js ":" ++ member.2)

mutual

def canonicalJsonValue : JsValue → Except CanonicalError (Option JsString)
  | .undefined => .ok none
  | .null => .ok (some (js "null"))
  | .bool true => .ok (some (js "true"))
  | .bool false => .ok (some (js "false"))
  | .num (.finite d) => .ok (some (numberToString (.finite d)))
  | .num _ => .error .nonFinite
  | .str text => .ok (some (quote text))
  | .arr items =>
      match canonicalItems items with
      | .ok entries => .ok (some (js "[" ++ (joinComma entries ++ js "]")))
      | .error error => .error error
  | .obj members =>
      match canonicalMembers members with
      | .ok entries =>
          .ok (some (js "\x7b" ++ (joinComma ((sortByKey entries).map memberText) ++ js "\x7d")))
      | .error error => .error error

def canonicalItems : List JsValue → Except CanonicalError (List JsString)
  | [] => .ok []
  | item :: items =>
      match canonicalJsonValue item, canonicalItems items with
      | .ok text, .ok entries => .ok (text.getD (js "null") :: entries)
      | .error error, _ => .error error
      | _, .error error => .error error

def canonicalMembers :
    List (JsString × JsValue) → Except CanonicalError (List (JsString × JsString))
  | [] => .ok []
  | (key, value) :: members =>
      match canonicalJsonValue value, canonicalMembers members with
      | .ok none, .ok entries => .ok entries
      | .ok (some text), .ok entries => .ok ((key, text) :: entries)
      | .error error, _ => .error error
      | _, .error error => .error error

end

def canonicalJson (value : JsValue) : Except CanonicalError JsString :=
  match canonicalJsonValue value with
  | .ok (some text) => .ok text
  | .ok none => .error .requiresValue
  | .error error => .error error

/-! The value a canonical text stands for. -/

mutual

def allFinite : JsValue → Bool
  | .num (.finite _) => true
  | .num _ => false
  | .arr items => itemsFinite items
  | .obj members => membersFinite members
  | _ => true

def itemsFinite : List JsValue → Bool
  | [] => true
  | item :: items => allFinite item && itemsFinite items

def membersFinite : List (JsString × JsValue) → Bool
  | [] => true
  | (_, value) :: members => allFinite value && membersFinite members

end

mutual

def distinctKeys : JsValue → Bool
  | .arr items => itemsDistinct items
  | .obj members => (members.map Prod.fst).Nodup && membersDistinct members
  | _ => true

def itemsDistinct : List JsValue → Bool
  | [] => true
  | item :: items => distinctKeys item && itemsDistinct items

def membersDistinct : List (JsString × JsValue) → Bool
  | [] => true
  | (_, value) :: members => distinctKeys value && membersDistinct members

end

mutual

def normalize : JsValue → JsValue
  | .arr items => .arr (normalizeItems items)
  | .obj members => .obj (sortByKey (normalizeMembers members))
  | value => value

def normalizeItems : List JsValue → List JsValue
  | [] => []
  | .undefined :: items => .null :: normalizeItems items
  | item :: items => normalize item :: normalizeItems items

def normalizeMembers : List (JsString × JsValue) → List (JsString × JsValue)
  | [] => []
  | (_, .undefined) :: members => normalizeMembers members
  | (key, value) :: members => (key, normalize value) :: normalizeMembers members

end

theorem normalizeItems_cons {item : JsValue} (defined : item ≠ .undefined) (items : List JsValue) :
    normalizeItems (item :: items) = normalize item :: normalizeItems items := by
  cases item with
  | undefined => exact absurd rfl defined
  | _ => rfl

variable {value : JsValue}

theorem normalizeMembers_cons (defined : value ≠ .undefined) (key : JsString)
    (members : List (JsString × JsValue)) :
    normalizeMembers ((key, value) :: members) =
      (key, normalize value) :: normalizeMembers members := by
  cases value with
  | undefined => exact absurd rfl defined
  | _ => rfl

theorem normalize_ne_undefined (defined : value ≠ .undefined) :
    normalize value ≠ .undefined := by
  cases value <;> simp_all [normalize]

/-! The canonical text is the ordinary text of the normal form. -/

theorem sortByKey_map (f : α → β) (members : List (JsString × α)) :
    sortByKey (members.map fun member => (member.1, f member.2)) =
      (sortByKey members).map fun member => (member.1, f member.2) := by
  symm
  exact List.map_insertionSort _ _ _ members fun _ _ _ _ => Iff.rfl

theorem perm_sortByKey (members : List (JsString × α)) :
    (sortByKey members).Perm members :=
  List.perm_insertionSort _ members

variable {members : List (JsString × α)}

theorem mem_sortByKey {member : JsString × α} :
    member ∈ sortByKey members ↔ member ∈ members :=
  (perm_sortByKey members).mem_iff

def definedMembers (members : List (JsString × JsValue)) : Prop :=
  ∀ member ∈ members, member.2 ≠ .undefined

theorem definedMembers_normalizeMembers : (members : List (JsString × JsValue)) →
    definedMembers (normalizeMembers members)
  | [] => by simp [definedMembers, normalizeMembers]
  | (key, value) :: members => by
      have tail := definedMembers_normalizeMembers members
      by_cases undefined : value = .undefined
      · rw [undefined]
        exact tail
      · rw [normalizeMembers_cons undefined]
        intro member present
        rcases List.mem_cons.mp present with rfl | present
        · exact normalize_ne_undefined undefined
        · exact tail member present

theorem writeMembers_of_defined : {members : List (JsString × JsValue)} →
    definedMembers members →
    writeMembers members =
      (members.map fun member => (member.1, writeValue member.2)).map memberText
  | [], _ => rfl
  | (key, value) :: members, defined => by
      have here : value ≠ .undefined := defined (key, value) (by simp)
      have tail := writeMembers_of_defined fun member present =>
        defined member (List.mem_cons_of_mem _ present)
      rw [writeMembers, tail]
      · rfl
      · exact here

theorem writeMembers_sorted {members : List (JsString × JsValue)}
    (defined : definedMembers members) :
    writeMembers (sortByKey members) =
      (sortByKey (members.map fun member => (member.1, writeValue member.2))).map
        memberText := by
  rw [writeMembers_of_defined fun member present => defined member (mem_sortByKey.mp present),
    sortByKey_map]

/-- What `canonicalJsonValue` returns on a value it does not reject. -/
def canonicalText? : JsValue → Option JsString
  | .undefined => none
  | value => some (writeValue (normalize value))

theorem canonicalText?_eq (defined : value ≠ .undefined) :
    canonicalText? value = some (writeValue (normalize value)) := by
  cases value with
  | undefined => exact absurd rfl defined
  | _ => rfl

mutual

theorem canonicalJsonValue_eq : (value : JsValue) →
    canonicalJsonValue value =
      if allFinite value then .ok (canonicalText? value) else .error .nonFinite
  | .undefined | .null | .bool true | .bool false | .str _ => rfl
  | .num (.finite _) | .num .nan | .num (.infinity _) => rfl
  | .arr items => by
      rw [canonicalJsonValue, canonicalItems_eq items, allFinite]
      by_cases finite : itemsFinite items = true
      · rw [if_pos finite, if_pos finite]
        rfl
      · rw [if_neg finite, if_neg finite]
  | .obj members => by
      rw [canonicalJsonValue, canonicalMembers_eq members, allFinite]
      by_cases finite : membersFinite members = true
      · rw [if_pos finite, if_pos finite]
        dsimp only
        rw [← writeMembers_sorted (definedMembers_normalizeMembers members)]
        rfl
      · rw [if_neg finite, if_neg finite]

theorem canonicalItems_eq : (items : List JsValue) →
    canonicalItems items =
      if itemsFinite items then .ok (writeItems (normalizeItems items))
      else .error .nonFinite
  | [] => rfl
  | item :: items => by
      rw [canonicalItems, canonicalJsonValue_eq item, canonicalItems_eq items, itemsFinite]
      cases finite : allFinite item with
      | false => rfl
      | true =>
          cases rest : itemsFinite items with
          | false => rfl
          | true =>
              by_cases undefined : item = .undefined
              · rw [undefined]
                rfl
              · rw [canonicalText?_eq undefined, normalizeItems_cons undefined]
                rfl

theorem canonicalMembers_eq : (members : List (JsString × JsValue)) →
    canonicalMembers members =
      if membersFinite members then
        .ok ((normalizeMembers members).map fun member => (member.1, writeValue member.2))
      else .error .nonFinite
  | [] => rfl
  | (key, value) :: members => by
      rw [canonicalMembers, canonicalJsonValue_eq value, canonicalMembers_eq members, membersFinite]
      cases finite : allFinite value with
      | false => rfl
      | true =>
          cases rest : membersFinite members with
          | false =>
              by_cases undefined : value = .undefined
              · rw [undefined]
                rfl
              · rw [canonicalText?_eq undefined]
                rfl
          | true =>
              by_cases undefined : value = .undefined
              · rw [undefined]
                rfl
              · rw [canonicalText?_eq undefined, normalizeMembers_cons undefined]
                rfl

end

theorem canonicalJson_eq_ok {text : JsString} :
    canonicalJson value = .ok text ↔
      allFinite value = true ∧ value ≠ .undefined ∧ text = writeValue (normalize value) := by
  rw [canonicalJson, canonicalJsonValue_eq]
  by_cases finite : allFinite value = true
  · rw [if_pos finite]
    by_cases undefined : value = .undefined
    · rw [undefined]
      simp [canonicalText?]
    · rw [canonicalText?_eq undefined]
      simp [finite, undefined, eq_comm]
  · rw [if_neg finite]
    simp [finite]

/-! Canonical values: the fixed points of `normalize` among what JSON carries. -/

def sortedKeys (members : List (JsString × α)) : Prop :=
  members.Pairwise fun first second => first.1 ≤ second.1

theorem sortedKeys_sortByKey (members : List (JsString × α)) :
    sortedKeys (sortByKey members) := by
  have := List.pairwise_insertionSort
    (fun first second : JsString × α => first.1 ≤ second.1) members
  exact this

theorem sortByKey_of_sorted (sorted : sortedKeys members) :
    sortByKey members = members :=
  List.Pairwise.insertionSort_eq sorted

theorem nodup_sortByKey :
    ((sortByKey members).map Prod.fst).Nodup ↔ (members.map Prod.fst).Nodup :=
  ((perm_sortByKey members).map Prod.fst).nodup_iff

theorem membersJson_iff {members : List (JsString × JsValue)} :
    membersJson members = true ↔ ∀ member ∈ members, member.2.isJson = true := by
  induction members with
  | nil => simp [membersJson]
  | cons member members ih => simp [membersJson, ih]

theorem isJson_obj {members : List (JsString × JsValue)} :
    (JsValue.obj members).isJson = true ↔
      (members.map Prod.fst).Nodup ∧ ∀ member ∈ members, member.2.isJson = true := by
  rw [JsValue.isJson, Bool.and_eq_true, decide_eq_true_eq, membersJson_iff]

theorem normalizeMembers_keys : (members : List (JsString × JsValue)) →
    ((normalizeMembers members).map Prod.fst).Sublist (members.map Prod.fst)
  | [] => List.Sublist.refl _
  | (key, value) :: members => by
      have tail := normalizeMembers_keys members
      by_cases undefined : value = .undefined
      · rw [undefined]
        exact tail.cons key
      · rw [normalizeMembers_cons undefined]
        exact tail.cons_cons key

mutual

theorem isJson_normalize : (value : JsValue) → allFinite value = true →
    distinctKeys value = true → value ≠ .undefined → (normalize value).isJson = true
  | .undefined, _, _, defined => absurd rfl defined
  | .null, _, _, _ | .bool _, _, _, _ | .str _, _, _, _ => rfl
  | .num (.finite _), _, _, _ => rfl
  | .num .nan, finite, _, _ | .num (.infinity _), finite, _, _ => by cases finite
  | .arr items, finite, distinct, _ => by
      rw [normalize, JsValue.isJson]
      exact allJson_normalizeItems items finite distinct
  | .obj members, finite, distinct, _ => by
      simp only [distinctKeys, Bool.and_eq_true, decide_eq_true_eq] at distinct
      have inner := membersJson_normalizeMembers members finite distinct.2
      simp only [normalize, JsValue.isJson, Bool.and_eq_true, decide_eq_true_eq, nodup_sortByKey]
      refine ⟨distinct.1.sublist (normalizeMembers_keys members), ?_⟩
      rw [membersJson_iff] at inner ⊢
      exact fun member present => inner member (mem_sortByKey.mp present)

theorem allJson_normalizeItems : (items : List JsValue) → itemsFinite items = true →
    itemsDistinct items = true → allJson (normalizeItems items) = true
  | [], _, _ => rfl
  | item :: items, finite, distinct => by
      simp only [itemsFinite, itemsDistinct, Bool.and_eq_true] at finite distinct
      have tail := allJson_normalizeItems items finite.2 distinct.2
      by_cases undefined : item = .undefined
      · rw [undefined]
        simp [normalizeItems, allJson, JsValue.isJson, tail]
      · rw [normalizeItems_cons undefined, allJson, tail, Bool.and_true]
        exact isJson_normalize item finite.1 distinct.1 undefined

theorem membersJson_normalizeMembers : (members : List (JsString × JsValue)) →
    membersFinite members = true → membersDistinct members = true →
    membersJson (normalizeMembers members) = true
  | [], _, _ => rfl
  | (key, value) :: members, finite, distinct => by
      simp only [membersFinite, membersDistinct, Bool.and_eq_true] at finite distinct
      have tail := membersJson_normalizeMembers members finite.2 distinct.2
      by_cases undefined : value = .undefined
      · rw [undefined]
        exact tail
      · rw [normalizeMembers_cons undefined, membersJson, tail, Bool.and_true]
        exact isJson_normalize value finite.1 distinct.1 undefined

end

theorem normalizeMembers_of_defined : {members : List (JsString × JsValue)} →
    definedMembers members →
    normalizeMembers members = members.map fun member => (member.1, normalize member.2)
  | [], _ => rfl
  | (key, value) :: members, defined => by
      have here : value ≠ .undefined := defined (key, value) (by simp)
      rw [normalizeMembers_cons here, normalizeMembers_of_defined fun member present =>
        defined member (List.mem_cons_of_mem _ present)]
      rfl

mutual

theorem normalize_normalize : (value : JsValue) →
    normalize (normalize value) = normalize value
  | .undefined | .null | .bool _ | .num _ | .str _ => rfl
  | .arr items => by rw [normalize, normalize, normalizeItems_normalizeItems items]
  | .obj members => by
      have defined : definedMembers (sortByKey (normalizeMembers members)) :=
        fun member present =>
          definedMembers_normalizeMembers members member (mem_sortByKey.mp present)
      have stable := normalizeMembers_stable members
      have fixed : (sortByKey (normalizeMembers members)).map
          (fun member => (member.1, normalize member.2)) =
            sortByKey (normalizeMembers members) := by
        calc (sortByKey (normalizeMembers members)).map
              (fun member => (member.1, normalize member.2))
            = (sortByKey (normalizeMembers members)).map id := by
              apply List.map_congr_left
              intro member present
              rw [stable member (mem_sortByKey.mp present)]
              rfl
          _ = sortByKey (normalizeMembers members) := List.map_id _
      rw [normalize, normalize, normalizeMembers_of_defined defined, fixed,
        sortByKey_of_sorted (sortedKeys_sortByKey _)]

theorem normalizeItems_normalizeItems : (items : List JsValue) →
    normalizeItems (normalizeItems items) = normalizeItems items
  | [] => rfl
  | item :: items => by
      have tail := normalizeItems_normalizeItems items
      by_cases undefined : item = .undefined
      · rw [undefined]
        change normalizeItems (.null :: normalizeItems items) = .null :: normalizeItems items
        rw [normalizeItems_cons (by simp), tail]
        rfl
      · rw [normalizeItems_cons undefined, normalizeItems_cons (normalize_ne_undefined undefined),
          tail, normalize_normalize item]

theorem normalizeMembers_stable : (members : List (JsString × JsValue)) →
    ∀ member ∈ normalizeMembers members, normalize member.2 = member.2
  | [], _, present => by simp [normalizeMembers] at present
  | (key, value) :: members, member, present => by
      have tail := normalizeMembers_stable members member
      by_cases undefined : value = .undefined
      · rw [undefined] at present
        exact tail present
      · rw [normalizeMembers_cons undefined] at present
        rcases List.mem_cons.mp present with rfl | present
        · exact normalize_normalize value
        · exact tail present

end

mutual

theorem allFinite_of_isJson : (value : JsValue) → value.isJson = true →
    allFinite value = true ∧ distinctKeys value = true
  | .undefined, json => by cases json
  | .null, _ | .bool _, _ | .str _, _ | .num (.finite _), _ => ⟨rfl, rfl⟩
  | .num .nan, json | .num (.infinity _), json => by cases json
  | .arr items, json => itemsFinite_of_allJson items json
  | .obj members, json => by
      simp only [JsValue.isJson, Bool.and_eq_true, decide_eq_true_eq] at json
      obtain ⟨finite, distinct⟩ := membersFinite_of_membersJson members json.2
      exact ⟨finite, by simp [distinctKeys, json.1, distinct]⟩

theorem itemsFinite_of_allJson : (items : List JsValue) → allJson items = true →
    itemsFinite items = true ∧ itemsDistinct items = true
  | [], _ => ⟨rfl, rfl⟩
  | item :: items, json => by
      simp only [allJson, Bool.and_eq_true] at json
      have head := allFinite_of_isJson item json.1
      have tail := itemsFinite_of_allJson items json.2
      simp [itemsFinite, itemsDistinct, head, tail]

theorem membersFinite_of_membersJson : (members : List (JsString × JsValue)) →
    membersJson members = true → membersFinite members = true ∧ membersDistinct members = true
  | [], _ => ⟨rfl, rfl⟩
  | (key, value) :: members, json => by
      simp only [membersJson, Bool.and_eq_true] at json
      have head := allFinite_of_isJson value json.1
      have tail := membersFinite_of_membersJson members json.2
      simp [membersFinite, membersDistinct, head, tail]

end

theorem ne_undefined_of_isJson (json : value.isJson = true) :
    value ≠ .undefined := by
  rintro rfl
  cases json

theorem canonicalJson_of_isJson (json : value.isJson = true) :
    canonicalJson value = .ok (writeValue (normalize value)) :=
  canonicalJson_eq_ok.mpr ⟨(allFinite_of_isJson value json).1, ne_undefined_of_isJson json, rfl⟩

theorem parseJson_canonicalJson {text : JsString} (distinct : distinctKeys value = true)
    (canonical : canonicalJson value = .ok text) :
    parseJson text = some (normalize value) ∧ (normalize value).isJson = true ∧
      canonicalJson (normalize value) = .ok text := by
  obtain ⟨finite, defined, rfl⟩ := canonicalJson_eq_ok.mp canonical
  have json := isJson_normalize value finite distinct defined
  refine ⟨parseJson_writeValue json, json, ?_⟩
  rw [canonicalJson_of_isJson json, normalize_normalize]

/-- A text pins its value: it parses to the normal form, whose text it is again, and no value of
another normal form has it. -/
theorem canonicalJson_pins {first second : JsValue} {text : JsString}
    (once : distinctKeys first = true) (otherOnce : distinctKeys second = true)
    (written : canonicalJson first = .ok text) :
    parseJson text = some (normalize first) ∧ canonicalJson (normalize first) = .ok text ∧
      (canonicalJson second = .ok text ↔
        allFinite second = true ∧ second ≠ .undefined ∧ normalize second = normalize first) := by
  obtain ⟨parsed, -, again⟩ := parseJson_canonicalJson once written
  refine ⟨parsed, again, fun same => ?_, fun ⟨finite, defined, same⟩ => ?_⟩
  · obtain ⟨finite, defined, -⟩ := canonicalJson_eq_ok.mp same
    have other := (parseJson_canonicalJson otherOnce same).1
    exact ⟨finite, defined, Option.some.inj (other.symm.trans parsed)⟩
  · rw [canonicalJson_eq_ok.mpr ⟨finite, defined, rfl⟩, same, (canonicalJson_eq_ok.mp written).2.2]

theorem canonicalJson_pins_members :
    canonicalJson (.obj [(js "a", .bool true), (js "b", .null)]) =
      .ok (writeValue (normalize (.obj [(js "b", .null), (js "a", .bool true)]))) := by
  refine (canonicalJson_pins ?_ ?_ (canonicalJson_eq_ok.mpr ⟨rfl, ?_, rfl⟩)).2.2.mpr ⟨rfl, ?_, rfl⟩
  · decide +kernel
  · decide +kernel
  all_goals simp

theorem eq_of_key_eq (distinct : (members.map Prod.fst).Nodup) {first second : JsString × α}
    (inFirst : first ∈ members) (inSecond : second ∈ members) (same : first.1 = second.1) :
    first = second :=
  List.inj_on_of_nodup_map distinct inFirst inSecond same

theorem sortByKey_perm {first second : List (JsString × α)} (perm : first.Perm second)
    (distinct : (first.map Prod.fst).Nodup) : sortByKey first = sortByKey second := by
  have sorted := ((perm_sortByKey first).trans perm).trans (perm_sortByKey second).symm
  refine List.Perm.eq_of_pairwise ?_ (sortedKeys_sortByKey first) (sortedKeys_sortByKey second)
    sorted
  intro left right inLeft inRight low high
  exact eq_of_key_eq distinct (mem_sortByKey.mp inLeft)
    (perm.mem_iff.mpr (mem_sortByKey.mp inRight)) (List.le_antisymm low high)

def keepMember (member : JsString × JsValue) : Option (JsString × JsValue) :=
  match member.2 with
  | .undefined => none
  | value => some (member.1, normalize value)

theorem normalizeMembers_eq_filterMap : (members : List (JsString × JsValue)) →
    normalizeMembers members = members.filterMap keepMember
  | [] => rfl
  | (key, value) :: members => by
      have tail := normalizeMembers_eq_filterMap members
      by_cases undefined : value = .undefined
      · rw [undefined]
        exact tail
      · have kept : keepMember (key, value) = some (key, normalize value) := by
          cases value with
          | undefined => exact absurd rfl undefined
          | _ => rfl
        rw [normalizeMembers_cons undefined, List.filterMap_cons_some kept, tail]

theorem membersFinite_iff {members : List (JsString × JsValue)} :
    membersFinite members = true ↔ ∀ member ∈ members, allFinite member.2 = true := by
  induction members with
  | nil => simp [membersFinite]
  | cons member members ih => simp [membersFinite, ih]

theorem canonicalJson_perm {first second : List (JsString × JsValue)} (perm : first.Perm second)
    (distinct : (first.map Prod.fst).Nodup) :
    canonicalJson (.obj first) = canonicalJson (.obj second) := by
  have kept : (normalizeMembers first).Perm (normalizeMembers second) := by
    rw [normalizeMembers_eq_filterMap, normalizeMembers_eq_filterMap]
    exact perm.filterMap keepMember
  have keptDistinct := distinct.sublist (normalizeMembers_keys first)
  have normal : normalize (.obj first) = normalize (.obj second) := by
    rw [normalize, normalize, sortByKey_perm kept keptDistinct]
  have finite : allFinite (.obj first) = allFinite (.obj second) := by
    rw [Bool.eq_iff_iff, allFinite, allFinite, membersFinite_iff, membersFinite_iff]
    exact ⟨fun all member present => all member (perm.mem_iff.mpr present),
      fun all member present => all member (perm.mem_iff.mp present)⟩
  rw [canonicalJson, canonicalJson, canonicalJsonValue_eq, canonicalJsonValue_eq,
    canonicalText?_eq (by simp), canonicalText?_eq (by simp), normal, finite]

end AshlrHub.Authority
