import AshlrHub.Authority.CanonicalJson
import AshlrHub.Universe.Artifacts

namespace AshlrHub.Artifacts

open Js Authority

/-! Values whose members have been put in another order, at every level. -/

structure Placement where
  place : {α : Type} → List (JsString × α) → List (JsString × α)
  perm : ∀ {α : Type} (members : List (JsString × α)), (place members).Perm members
  natural : ∀ {α β : Type} (write : α → β) (members : List (JsString × α)),
    place (members.map fun member => (member.1, write member.2)) =
      (place members).map fun member => (member.1, write member.2)

def Placement.after (second first : Placement) : Placement where
  place members := second.place (first.place members)
  perm members := (second.perm _).trans (first.perm members)
  natural write members := by rw [first.natural, second.natural]

def Placement.byKey (keysInOrder : JsString → JsString → Bool) : Placement where
  place members := members.insertionSort fun first second => keysInOrder first.1 second.1
  perm members := List.perm_insertionSort _ members
  natural write members := by
    symm
    exact List.map_insertionSort _ _ _ members fun _ _ _ _ => Iff.rfl

mutual

def rearrange (placement : Placement) : JsValue → JsValue
  | .arr items => .arr (rearrangeItems placement items)
  | .obj members => .obj (placement.place (rearrangeEach placement members))
  | value => value

def rearrangeItems (placement : Placement) : List JsValue → List JsValue
  | [] => []
  | item :: items => rearrange placement item :: rearrangeItems placement items

def rearrangeEach (placement : Placement) :
    List (JsString × JsValue) → List (JsString × JsValue)
  | [] => []
  | (key, value) :: members => (key, rearrange placement value) :: rearrangeEach placement members

end

variable {placement : Placement}

theorem rearrangeItems_eq (items : List JsValue) :
    rearrangeItems placement items = items.map (rearrange placement) := by
  induction items with
  | nil => rfl
  | cons item items ih => rw [rearrangeItems, ih, List.map_cons]

theorem rearrangeEach_eq (members : List (JsString × JsValue)) :
    rearrangeEach placement members =
      members.map fun member => (member.1, rearrange placement member.2) := by
  induction members with
  | nil => rfl
  | cons member members ih => rw [rearrangeEach, ih, List.map_cons]

theorem rearrange_arr (items : List JsValue) :
    rearrange placement (.arr items) = .arr (items.map (rearrange placement)) := by
  rw [rearrange, rearrangeItems_eq]

theorem rearrange_obj (members : List (JsString × JsValue)) :
    rearrange placement (.obj members) =
      .obj
        ((placement.place members).map fun member => (member.1, rearrange placement member.2)) := by
  rw [rearrange, rearrangeEach_eq, placement.natural]

theorem allJson_iff {items : List JsValue} :
    allJson items = true ↔ ∀ item ∈ items, item.isJson = true := by
  induction items with
  | nil => simp [allJson]
  | cons item items ih => simp [allJson, ih]

theorem JsValue.parts {holds : JsValue → Prop}
    (scalar : ∀ value, (∀ items, value ≠ .arr items) → (∀ members, value ≠ .obj members) →
      holds value)
    (arr : ∀ items, (∀ item ∈ items, holds item) → holds (.arr items))
    (obj : ∀ members, (∀ member ∈ members, holds member.2) → holds (.obj members))
    (value : JsValue) : holds value := by
  refine @JsValue.rec holds (fun items => ∀ item ∈ items, holds item)
    (fun members => ∀ member ∈ members, holds member.2) (fun member => holds member.2)
    (scalar _ nofun nofun) (scalar _ nofun nofun) (fun _ => scalar _ nofun nofun)
    (fun _ => scalar _ nofun nofun) (fun _ => scalar _ nofun nofun) arr obj nofun ?items nofun
    ?members (fun _ _ holds => holds) value
  case items =>
    intro first items one rest item member
    rcases List.mem_cons.mp member with rfl | later
    · exact one
    · exact rest item later
  case members =>
    intro first members one rest item member
    rcases List.mem_cons.mp member with rfl | later
    · exact one
    · exact rest item later

theorem rearrange_scalar {value : JsValue} (notArray : ∀ items, value ≠ .arr items)
    (notObject : ∀ members, value ≠ .obj members) : rearrange placement value = value := by
  cases value with
  | arr items => exact absurd rfl (notArray items)
  | obj members => exact absurd rfl (notObject members)
  | _ => rfl

theorem mem_place {α : Type} {members : List (JsString × α)} {member : JsString × α} :
    member ∈ placement.place members ↔ member ∈ members :=
  (placement.perm members).mem_iff

theorem keys_map {α β : Type} (write : α → β) (members : List (JsString × α)) :
    (members.map fun member => (member.1, write member.2)).map Prod.fst = members.map Prod.fst := by
  rw [List.map_map]
  rfl

theorem isJson_rearrange (value : JsValue) :
    value.isJson = true → (rearrange placement value).isJson = true := by
  induction value using JsValue.parts with
  | scalar value notArray notObject => rw [rearrange_scalar notArray notObject]; exact id
  | arr items each =>
      intro json
      rw [rearrange_arr, JsValue.isJson, allJson_iff]
      intro item present
      obtain ⟨source, member, rfl⟩ := List.mem_map.mp present
      exact each source member (allJson_iff.mp json source member)
  | obj members each =>
      intro json
      obtain ⟨distinct, inner⟩ := isJson_obj.mp json
      rw [rearrange_obj, isJson_obj, keys_map]
      refine ⟨((placement.perm members).map Prod.fst).nodup_iff.mpr distinct, ?_⟩
      intro member present
      obtain ⟨source, inside, rfl⟩ := List.mem_map.mp present
      exact each source (mem_place.mp inside) (inner source (mem_place.mp inside))

theorem normalizeItems_eq_map : {items : List JsValue} →
    (∀ item ∈ items, item ≠ .undefined) →
    normalizeItems items = items.map Authority.normalize
  | [], _ => rfl
  | item :: items, defined => by
      rw [normalizeItems_cons (defined item (by simp)), List.map_cons,
        normalizeItems_eq_map fun other present => defined other (List.mem_cons_of_mem _ present)]

theorem normalize_arr {items : List JsValue} (json : allJson items = true) :
    Authority.normalize (.arr items) = .arr (items.map Authority.normalize) := by
  rw [Authority.normalize, normalizeItems_eq_map]
  intro item present
  exact ne_undefined_of_isJson (allJson_iff.mp json item present)

theorem normalize_obj {members : List (JsString × JsValue)}
    (json : (JsValue.obj members).isJson = true) :
    Authority.normalize (.obj members) =
      .obj (sortByKey (members.map fun member => (member.1, Authority.normalize member.2))) := by
  rw [Authority.normalize, normalizeMembers_of_defined]
  intro member present
  exact ne_undefined_of_isJson ((isJson_obj.mp json).2 member present)

theorem normalize_rearrange (value : JsValue) : value.isJson = true →
    Authority.normalize (rearrange placement value) = Authority.normalize value := by
  induction value using JsValue.parts with
  | scalar value notArray notObject =>
      rw [rearrange_scalar notArray notObject]
      exact fun _ => rfl
  | arr items each =>
      intro json
      have ordered := @isJson_rearrange placement (.arr items) json
      rw [rearrange_arr] at ordered ⊢
      rw [normalize_arr ordered, normalize_arr json, List.map_map]
      congr 1
      apply List.map_congr_left
      intro item present
      exact each item present (allJson_iff.mp json item present)
  | obj members each =>
      intro json
      have ordered := @isJson_rearrange placement (.obj members) json
      obtain ⟨distinct, inner⟩ := isJson_obj.mp json
      rw [rearrange_obj] at ordered ⊢
      rw [normalize_obj ordered, normalize_obj json, List.map_map]
      congr 1
      have same : (placement.place members).map
          ((fun member => (member.1, Authority.normalize member.2)) ∘
            fun member => (member.1, rearrange placement member.2)) =
          (placement.place members).map fun member => (member.1, Authority.normalize member.2) := by
        apply List.map_congr_left
        intro member present
        have inside := mem_place.mp present
        rw [Function.comp_apply, each member inside (inner member inside)]
      rw [same]
      apply sortByKey_perm ((placement.perm members).map _)
      rw [keys_map]
      exact ((placement.perm members).map Prod.fst).nodup_iff.mpr distinct

theorem rearrange_after (second first : Placement) (value : JsValue) :
    rearrange second (rearrange first value) = rearrange (second.after first) value := by
  induction value using JsValue.parts with
  | scalar value notArray notObject => simp only [rearrange_scalar notArray notObject]
  | arr items each =>
      simp only [rearrange_arr, List.map_map]
      congr 1
      exact List.map_congr_left each
  | obj members each =>
      simp only [rearrange_obj, second.natural, List.map_map]
      congr 1
      apply List.map_congr_left
      intro member present
      have inside := mem_place.mp (mem_place.mp present)
      exact Prod.ext rfl (each member inside)

/-! The canonical text is the ordinary text of the value whose keys stand in the locale's order;
it tells values apart up to the order of their keys. -/

def orderMembers {α : Type} (keysInOrder : JsString → JsString → Bool)
    (members : List (JsString × α)) : List (JsString × α) :=
  members.insertionSort fun first second => keysInOrder first.1 second.1

mutual

def orderKeys (keysInOrder : JsString → JsString → Bool) : JsValue → JsValue
  | .arr items => .arr (orderItems keysInOrder items)
  | .obj members => .obj (orderMembers keysInOrder (orderEach keysInOrder members))
  | value => value

def orderItems (keysInOrder : JsString → JsString → Bool) : List JsValue → List JsValue
  | [] => []
  | item :: items => orderKeys keysInOrder item :: orderItems keysInOrder items

def orderEach (keysInOrder : JsString → JsString → Bool) :
    List (JsString × JsValue) → List (JsString × JsValue)
  | [] => []
  | (key, value) :: members => (key, orderKeys keysInOrder value) :: orderEach keysInOrder members

end

variable {keysInOrder : JsString → JsString → Bool}

theorem perm_orderMembers {α : Type} (members : List (JsString × α)) :
    (orderMembers keysInOrder members).Perm members :=
  List.perm_insertionSort _ members

theorem orderMembers_map {α β : Type} (write : α → β) (members : List (JsString × α)) :
    orderMembers keysInOrder (members.map fun member => (member.1, write member.2)) =
      (orderMembers keysInOrder members).map fun member => (member.1, write member.2) := by
  symm
  exact List.map_insertionSort _ _ _ members fun _ _ _ _ => Iff.rfl

theorem orderEach_eq (members : List (JsString × JsValue)) :
    orderEach keysInOrder members =
      members.map fun member => (member.1, orderKeys keysInOrder member.2) := by
  induction members with
  | nil => rfl
  | cons member members ih => rw [orderEach, ih, List.map_cons]

mutual

theorem orderKeys_eq_rearrange : (value : JsValue) →
    orderKeys keysInOrder value = rearrange (.byKey keysInOrder) value
  | .undefined | .null | .bool _ | .num _ | .str _ => rfl
  | .arr items => by rw [orderKeys, rearrange, orderItems_eq_rearrange items]
  | .obj members => by
      rw [orderKeys, rearrange, orderEach_eq_rearrange members]
      rfl

theorem orderItems_eq_rearrange : (items : List JsValue) →
    orderItems keysInOrder items = rearrangeItems (.byKey keysInOrder) items
  | [] => rfl
  | item :: items => by
      rw [orderItems, rearrangeItems, orderKeys_eq_rearrange item, orderItems_eq_rearrange items]

theorem orderEach_eq_rearrange : (members : List (JsString × JsValue)) →
    orderEach keysInOrder members = rearrangeEach (.byKey keysInOrder) members
  | [] => rfl
  | (key, value) :: members => by
      rw [orderEach, rearrangeEach, orderKeys_eq_rearrange value, orderEach_eq_rearrange members]

end

theorem isJson_orderKeys (value : JsValue) (json : value.isJson = true) :
    (orderKeys keysInOrder value).isJson = true := by
  rw [orderKeys_eq_rearrange]
  exact isJson_rearrange value json

theorem orderEach_json (members : List (JsString × JsValue)) (json : membersJson members = true)
    (member : JsString × JsValue) (present : member ∈ orderEach keysInOrder members) :
    member.2.isJson = true := by
  rw [orderEach_eq] at present
  obtain ⟨source, inside, rfl⟩ := List.mem_map.mp present
  exact isJson_orderKeys source.2 (membersJson_iff.mp json source inside)

mutual

theorem canonical_eq : (value : JsValue) → value.isJson = true →
    canonical keysInOrder value = writeValue (orderKeys keysInOrder value)
  | .undefined, json => by cases json
  | .null, _ | .bool true, _ | .bool false, _ | .str _, _ | .num _, _ => rfl
  | .arr items, json => by
      rw [canonical, orderKeys, writeValue, canonicalItems_eq_writeItems items json]
  | .obj members, json => by
      have each : membersJson members = true := by
        rw [JsValue.isJson, Bool.and_eq_true] at json
        exact json.2
      have defined : definedMembers
          (orderMembers keysInOrder (orderEach keysInOrder members)) := by
        intro member present
        exact ne_undefined_of_isJson
          (orderEach_json members each member ((perm_orderMembers _).mem_iff.mp present))
      rw [orderKeys, writeValue, writeMembers_of_defined defined, ← orderMembers_map,
        canonical, canonicalMembers_eq_written members each]
      rfl

theorem canonicalItems_eq_writeItems : (items : List JsValue) → allJson items = true →
    canonicalItems keysInOrder items = writeItems (orderItems keysInOrder items)
  | [], _ => rfl
  | item :: items, json => by
      rw [allJson, Bool.and_eq_true] at json
      rw [canonicalItems, orderItems, writeItems, canonical_eq item json.1,
        canonicalItems_eq_writeItems items json.2]

theorem canonicalMembers_eq_written : (members : List (JsString × JsValue)) →
    membersJson members = true →
    canonicalMembers keysInOrder members =
      (orderEach keysInOrder members).map fun member => (member.1, writeValue member.2)
  | [], _ => rfl
  | (key, value) :: members, json => by
      rw [membersJson, Bool.and_eq_true] at json
      rw [canonicalMembers, orderEach, List.map_cons, canonical_eq value json.1,
        canonicalMembers_eq_written members json.2]

end

end AshlrHub.Artifacts
