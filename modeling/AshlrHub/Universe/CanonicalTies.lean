import AshlrHub.Js.Ascii
import AshlrHub.Universe.CanonicalOrder

namespace AshlrHub.Artifacts

open Js Authority

/-! The canonical text against the order in which the members of an object were put in.  The
order of keys is a collation, in which distinct keys may tie; a tie keeps the order of members. -/

/-- `(a, b) => a.localeCompare(b)`: whether it is no more than zero. -/
structure Collation where
  inOrder : JsString → JsString → Bool
  total : ∀ first second, inOrder first second = true ∨ inOrder second first = true
  trans : ∀ first second third, inOrder first second = true → inOrder second third = true →
    inOrder first third = true

def Collation.Tie (collation : Collation) (first second : JsString) : Prop :=
  first ≠ second ∧ collation.inOrder first second = true ∧ collation.inOrder second first = true

/-! `Object.entries`: array indices come first, in ascending order. -/

def isArrayIndex (key : JsString) : Bool :=
  isCanonicalDigits key && digitsValue key ≤ 4294967294

def sortIndices {α : Type} (members : List (JsString × α)) : List (JsString × α) :=
  members.insertionSort fun first second => digitsValue first.1 ≤ digitsValue second.1

def indexMembers {α : Type} (members : List (JsString × α)) : List (JsString × α) :=
  sortIndices (members.filter fun member => isArrayIndex member.1)

def namedMembers {α : Type} (members : List (JsString × α)) : List (JsString × α) :=
  members.filter fun member => !isArrayIndex member.1

def ownProperties {α : Type} (members : List (JsString × α)) : List (JsString × α) :=
  indexMembers members ++ namedMembers members

theorem perm_ownProperties {α : Type} (members : List (JsString × α)) :
    (ownProperties members).Perm members :=
  ((List.perm_insertionSort _ _).append_right _).trans
    (List.filter_append_perm (fun member : JsString × α => isArrayIndex member.1) members)

def Placement.own : Placement where
  place := ownProperties
  perm := perm_ownProperties
  natural write members := by
    unfold ownProperties indexMembers namedMembers sortIndices
    rw [List.filter_map, List.filter_map, List.map_append]
    congr 1
    symm
    exact List.map_insertionSort _ _ _ _ fun _ _ _ _ => Iff.rfl

def built (value : JsValue) : JsValue :=
  rearrange .own value

/-- `canonical` of a value as an engine holds it. -/
def canonicalText (collation : Collation) (value : JsValue) : JsString :=
  canonical collation.inOrder (built value)

def SameButOrder (first second : JsValue) : Prop :=
  Authority.normalize first = Authority.normalize second

variable {collation : Collation}

/-! The members as they are written. -/

def Collation.placement (collation : Collation) : Placement :=
  (Placement.byKey collation.inOrder).after .own

def written (collation : Collation) (value : JsValue) : JsValue :=
  rearrange collation.placement value

variable {value : JsValue}

theorem isJson_written (json : value.isJson = true) :
    (written collation value).isJson = true :=
  isJson_rearrange value json

theorem canonicalText_eq (json : value.isJson = true) :
    canonicalText collation value = writeValue (written collation value) := by
  rw [canonicalText, built, canonical_eq _ (isJson_rearrange value json), orderKeys_eq_rearrange,
    rearrange_after]
  rfl

theorem parseJson_canonicalText (json : value.isJson = true) :
    parseJson (canonicalText collation value) = some (written collation value) := by
  rw [canonicalText_eq json, parseJson_writeValue (isJson_written json)]

section

variable {first second : JsValue} (firstJson : first.isJson = true)
  (secondJson : second.isJson = true)
include firstJson secondJson

theorem canonicalText_eq_iff :
    canonicalText collation first = canonicalText collation second ↔
      written collation first = written collation second := by
  constructor
  · intro same
    have read := @parseJson_canonicalText collation first firstJson
    rw [same, parseJson_canonicalText secondJson] at read
    exact (Option.some.inj read).symm
  · intro same
    rw [canonicalText_eq firstJson, canonicalText_eq secondJson, same]

theorem sameButOrder_of_canonicalText
    (same : canonicalText collation first = canonicalText collation second) :
    SameButOrder first second := by
  rw [canonicalText_eq_iff firstJson secondJson] at same
  rw [SameButOrder, ← @normalize_rearrange collation.placement first firstJson,
    ← @normalize_rearrange collation.placement second secondJson]
  exact congrArg Authority.normalize same

end

/-! Sorting the own properties. -/

section

variable {α : Type}

def sortKeys (collation : Collation) (members : List (JsString × α)) : List (JsString × α) :=
  members.insertionSort fun first second => collation.inOrder first.1 second.1

section

variable (members : List (JsString × α))
include members

theorem place_eq :
    collation.placement.place members = sortKeys collation (ownProperties members) :=
  rfl

theorem sortKeys_ownProperties :
    sortKeys collation (ownProperties members) =
      (indexMembers members).foldr
        (List.orderedInsert fun first second => collation.inOrder first.1 second.1)
        (sortKeys collation (namedMembers members)) := by
  unfold sortKeys ownProperties List.insertionSort
  rw [List.foldr_append]

theorem pairwise_sortKeys :
    (sortKeys collation members).Pairwise fun first second =>
      collation.inOrder first.1 second.1 = true := by
  have total : Std.Total fun first second : JsString × α =>
      collation.inOrder first.1 second.1 = true := ⟨fun first second => collation.total _ _⟩
  have trans : IsTrans (JsString × α) fun first second =>
      collation.inOrder first.1 second.1 = true := ⟨fun _ _ _ => collation.trans _ _ _⟩
  exact List.pairwise_insertionSort _ members

theorem perm_sortKeys :
    (sortKeys collation members).Perm members :=
  List.perm_insertionSort _ members

end

section

variable {first second : List (JsString × α)} (perm : first.Perm second)
  (distinct : (first.map Prod.fst).Nodup)
include perm distinct

theorem indexMembers_perm : indexMembers first = indexMembers second := by
  have sorted (members : List (JsString × α)) : (indexMembers members).Pairwise
      fun left right => digitsValue left.1 ≤ digitsValue right.1 := by
    have total : Std.Total fun left right : JsString × α =>
        digitsValue left.1 ≤ digitsValue right.1 := ⟨fun _ _ => Nat.le_total _ _⟩
    have trans : IsTrans (JsString × α) fun left right =>
        digitsValue left.1 ≤ digitsValue right.1 := ⟨fun _ _ _ => Nat.le_trans⟩
    exact List.pairwise_insertionSort _ _
  have kept (members : List (JsString × α)) : (indexMembers members).Perm
      (members.filter fun member => isArrayIndex member.1) := List.perm_insertionSort _ _
  refine List.Perm.eq_of_pairwise ?_ (sorted first) (sorted second)
    ((kept first).trans ((perm.filter _).trans (kept second).symm))
  intro left right inLeft inRight low high
  have isLeft := List.mem_filter.mp ((kept first).mem_iff.mp inLeft)
  have isRight := List.mem_filter.mp ((kept second).mem_iff.mp inRight)
  apply eq_of_key_eq distinct isLeft.1 (perm.mem_iff.mpr isRight.1)
  -- Indices are canonical digits, so that one value has one text.
  have digits {key : JsString} (index : isArrayIndex key = true) : decimal (digitsValue key) =
    key := by
    obtain ⟨n, rfl⟩ := isCanonicalDigits_iff.mp (Bool.and_eq_true _ _ ▸ index).1
    rw [digitsValue_decimal]
  rw [← digits isLeft.2, ← digits isRight.2, Nat.le_antisymm low high]

theorem place_eq_of_perm (untied : ∀ left ∈ first, ∀ right ∈ first, isArrayIndex left.1 = false →
      isArrayIndex right.1 = false → ¬ collation.Tie left.1 right.1) :
    collation.placement.place first = collation.placement.place second := by
  rw [place_eq, place_eq, sortKeys_ownProperties, sortKeys_ownProperties,
    indexMembers_perm perm distinct]
  congr 1
  have named : (namedMembers first).Perm (namedMembers second) := perm.filter _
  refine List.Perm.eq_of_pairwise ?_ (pairwise_sortKeys _) (pairwise_sortKeys _)
    ((perm_sortKeys _).trans (named.trans (perm_sortKeys _).symm))
  intro left right inLeft inRight low high
  have isLeft := List.mem_filter.mp ((perm_sortKeys _).mem_iff.mp inLeft)
  have isRight := List.mem_filter.mp (named.mem_iff.mpr ((perm_sortKeys _).mem_iff.mp inRight))
  apply eq_of_key_eq distinct isLeft.1 isRight.1
  by_contra different
  exact untied left isLeft.1 right isRight.1 (by simpa using isLeft.2) (by simpa using isRight.2)
    ⟨different, low, high⟩

end

theorem filter_orderedInsert {inOrder : α → α → Prop} [DecidableRel inOrder] {keeps : α → Bool}
    {item : α} (dropped : keeps item = false) : (items : List α) →
    (items.orderedInsert inOrder item).filter keeps = items.filter keeps
  | [] => by rw [List.orderedInsert_nil, List.filter_cons_of_neg (by simp [dropped])]
  | other :: items => by
      rw [List.orderedInsert_cons]
      split_ifs
      · rw [List.filter_cons_of_neg (by simp [dropped])]
      · rw [List.filter_cons, List.filter_cons, filter_orderedInsert dropped items]

theorem filter_foldr_orderedInsert {inOrder : α → α → Prop} [DecidableRel inOrder]
    {keeps : α → Bool} (items : List α) : {inserted : List α} →
    (∀ item ∈ inserted, keeps item = false) →
    (inserted.foldr (List.orderedInsert inOrder) items).filter keeps = items.filter keeps
  | [], _ => rfl
  | item :: inserted, dropped => by
      rw [List.foldr_cons, filter_orderedInsert (dropped item (by simp)),
        filter_foldr_orderedInsert items fun other member => dropped other (by simp [member])]

theorem place_place {members : List (JsString × α)} (distinct : (members.map Prod.fst).Nodup) :
    collation.placement.place (collation.placement.place members) =
      collation.placement.place members := by
  have perm := collation.placement.perm members
  have names : namedMembers (collation.placement.place members) =
      sortKeys collation (namedMembers members) := by
    rw [place_eq, sortKeys_ownProperties, namedMembers, filter_foldr_orderedInsert]
    · rw [List.filter_eq_self]
      intro member present
      exact (List.mem_filter.mp ((perm_sortKeys _).mem_iff.mp present)).2
    · intro member present
      have index := (List.mem_filter.mp ((List.perm_insertionSort _ _).mem_iff.mp present)).2
      rw [index]
      rfl
  have sorted : sortKeys collation (sortKeys collation (namedMembers members)) =
      sortKeys collation (namedMembers members) :=
    List.Pairwise.insertionSort_eq (pairwise_sortKeys _)
  have keys : ((collation.placement.place members).map Prod.fst).Nodup :=
    (perm.map Prod.fst).nodup_iff.mpr distinct
  rw [place_eq (collation.placement.place members), sortKeys_ownProperties, names, sorted,
    indexMembers_perm perm keys, ← sortKeys_ownProperties, ← place_eq]

theorem pair_sublist_place {first second : JsString × α} {members : List (JsString × α)}
    (ordered : [first, second].Sublist members) (isFirst : isArrayIndex first.1 = false)
    (isSecond : isArrayIndex second.1 = false) (tied : collation.inOrder first.1 second.1 = true) :
    [first, second].Sublist (collation.placement.place members) := by
  rw [place_eq]
  refine @List.pair_sublist_insertionSort _
    (fun first second : JsString × α => collation.inOrder first.1 second.1) _ _ _ _ tied ?_
  have kept : [first, second].filter (fun member => !isArrayIndex member.1) = [first, second] := by
    simp [isFirst, isSecond]
  rw [← kept]
  exact (ordered.filter _).trans (List.sublist_append_right _ _)

theorem not_sublist_swap {first second : α} : {items : List α} → items.Nodup →
    [first, second].Sublist items → ¬ [second, first].Sublist items
  | [], _, ordered, _ => by cases ordered
  | item :: items, distinct, ordered, swapped => by
      rw [List.nodup_cons] at distinct
      cases ordered with
      | cons _ ordered =>
          cases swapped with
          | cons _ swapped => exact not_sublist_swap distinct.2 ordered swapped
          | cons_cons _ _ => exact distinct.1 (ordered.subset (by simp))
      | cons_cons _ behind =>
          cases swapped with
          | cons _ swapped => exact distinct.1 (swapped.subset (by simp))
          | cons_cons _ _ => exact distinct.1 (behind.subset (by simp))

end

/-! Ties. -/

inductive Tied (collation : Collation) : JsValue → Prop
  | here {members : List (JsString × JsValue)} {first second : JsString × JsValue}
      (inFirst : first ∈ members) (inSecond : second ∈ members)
      (isFirst : isArrayIndex first.1 = false) (isSecond : isArrayIndex second.1 = false)
      (tie : collation.Tie first.1 second.1) : Tied collation (.obj members)
  | item {items : List JsValue} {item : JsValue} (present : item ∈ items)
      (tied : Tied collation item) : Tied collation (.arr items)
  | member {members : List (JsString × JsValue)} {member : JsString × JsValue}
      (present : member ∈ members) (tied : Tied collation member.2) :
      Tied collation (.obj members)

def writtenMember (collation : Collation) (member : JsString × JsValue) : JsString × JsValue :=
  (member.1, written collation member.2)

def normalMember (member : JsString × JsValue) : JsString × JsValue :=
  (member.1, Authority.normalize member.2)

theorem written_arr (items : List JsValue) :
    written collation (.arr items) = .arr (items.map (written collation)) :=
  rearrange_arr items

theorem written_obj (members : List (JsString × JsValue)) :
    written collation (.obj members) =
      .obj (collation.placement.place (members.map (writtenMember collation))) := by
  rw [written, rearrange, rearrangeEach_eq]
  rfl

theorem sameButOrder_arr {items others : List JsValue} (json : allJson items = true)
    (otherJson : allJson others = true) : SameButOrder (.arr items) (.arr others) ↔
      items.map Authority.normalize = others.map Authority.normalize := by
  rw [SameButOrder, normalize_arr json, normalize_arr otherJson, JsValue.arr.injEq]

section

variable {members others : List (JsString × JsValue)} (json : (JsValue.obj members).isJson = true)
  (otherJson : (JsValue.obj others).isJson = true)
include json otherJson

theorem sameButOrder_obj :
    SameButOrder (.obj members) (.obj others) ↔
      (members.map normalMember).Perm (others.map normalMember) := by
  rw [SameButOrder, normalize_obj json, normalize_obj otherJson, JsValue.obj.injEq]
  constructor
  · intro same
    have kept := (perm_sortByKey (members.map normalMember)).symm
    rw [show sortByKey (members.map normalMember) = sortByKey (others.map normalMember) from same]
      at kept
    exact kept.trans (perm_sortByKey _)
  · intro perm
    refine sortByKey_perm perm ?_
    have distinct := (isJson_obj.mp json).1
    rw [← keys_map Authority.normalize] at distinct
    exact distinct

theorem perm_written (perm : (members.map normalMember).Perm (others.map normalMember))
    (same : ∀ member ∈ members, ∀ other ∈ others, SameButOrder member.2 other.2 →
      written collation member.2 = written collation other.2) :
    (members.map (writtenMember collation)).Perm (others.map (writtenMember collation)) := by
  have distinct := (isJson_obj.mp json).1
  have otherDistinct := (isJson_obj.mp otherJson).1
  have nodup {items : List (JsString × JsValue)} (keys : (items.map Prod.fst).Nodup) :
      (items.map (writtenMember collation)).Nodup := by
    rw [← keys_map (written collation)] at keys
    exact keys.of_map
  refine (List.perm_ext_iff_of_nodup (nodup distinct) (nodup otherDistinct)).mpr fun found => ?_
  constructor
  · intro present
    obtain ⟨member, inside, rfl⟩ := List.mem_map.mp present
    obtain ⟨other, others_, alike⟩ := List.mem_map.mp
      (perm.mem_iff.mp (List.mem_map.mpr ⟨member, inside, rfl⟩))
    obtain ⟨key, value⟩ := Prod.mk.inj alike
    refine List.mem_map.mpr ⟨other, others_, ?_⟩
    exact Prod.ext key (same member inside other others_ value.symm).symm
  · intro present
    obtain ⟨other, inside, rfl⟩ := List.mem_map.mp present
    obtain ⟨member, members_, alike⟩ := List.mem_map.mp
      (perm.mem_iff.mpr (List.mem_map.mpr ⟨other, inside, rfl⟩))
    obtain ⟨key, value⟩ := Prod.mk.inj alike
    refine List.mem_map.mpr ⟨member, members_, ?_⟩
    exact Prod.ext key (same member members_ other inside value)

end

theorem map_eq_of_map_eq {α β γ : Type} {first : α → β} {second : α → γ} :
    {items others : List α} → items.map first = others.map first →
    (∀ item ∈ items, ∀ other ∈ others, first item = first other → second item = second other) →
    items.map second = others.map second
  | [], [], _, _ => rfl
  | [], _ :: _, same, _ => by cases same
  | _ :: _, [], same, _ => by cases same
  | item :: items, other :: others, same, alike => by
      rw [List.map_cons, List.map_cons, List.cons.injEq] at same
      rw [List.map_cons, List.map_cons, alike item (by simp) other (by simp) same.1,
        map_eq_of_map_eq same.2 fun later inItems another inOthers =>
          alike later (by simp [inItems]) another (by simp [inOthers])]

theorem written_eq_of_untied (value : JsValue) : ∀ other : JsValue, value.isJson = true →
    other.isJson = true → SameButOrder value other → ¬ Tied collation value →
    written collation value = written collation other := by
  induction value using JsValue.parts with
  | scalar value notArray notObject =>
      intro other json otherJson same _
      cases value with
      | arr items => exact absurd rfl (notArray items)
      | obj members => exact absurd rfl (notObject members)
      | _ =>
          cases other <;> cases same
          rfl
  | arr items each =>
      intro other json otherJson same untied
      cases other with
      | arr others =>
          have inner := (sameButOrder_arr json otherJson).mp same
          rw [written_arr, written_arr, JsValue.arr.injEq]
          refine map_eq_of_map_eq inner fun item inside other others_ alike => ?_
          exact each item inside other (allJson_iff.mp json item inside)
            (allJson_iff.mp otherJson other others_) alike fun tied => untied (.item inside tied)
      | _ => cases same
  | obj members each =>
      intro other json otherJson same untied
      cases other with
      | obj others =>
          have perm := (sameButOrder_obj json otherJson).mp same
          have distinct := (isJson_obj.mp json).1
          rw [← keys_map (written collation)] at distinct
          rw [written_obj, written_obj, JsValue.obj.injEq]
          refine place_eq_of_perm (perm_written json otherJson perm ?_) distinct ?_
          · intro member inside other others_ alike
            exact each member inside other.2 ((isJson_obj.mp json).2 member inside)
              ((isJson_obj.mp otherJson).2 other others_) alike
              fun tied => untied (.member inside tied)
          · intro left inLeft right inRight isLeft isRight tie
            obtain ⟨first, inFirst, rfl⟩ := List.mem_map.mp inLeft
            obtain ⟨second, inSecond, rfl⟩ := List.mem_map.mp inRight
            exact untied (.here inFirst inSecond isLeft isRight tie)
      | _ => cases same

theorem mem_pair_sublist {α : Type} {first second : α} {items : List α} (inFirst : first ∈ items)
    (inSecond : second ∈ items) (different : first ≠ second) :
    [first, second].Sublist items ∨ [second, first].Sublist items := by
  obtain ⟨before, behind, rfl⟩ := List.append_of_mem inFirst
  rcases List.mem_append.mp inSecond with earlier | later
  · right
    exact (List.singleton_sublist.mpr earlier).append (List.singleton_sublist.mpr (by simp))
  · left
    rcases List.mem_cons.mp later with same | behind_
    · exact absurd same.symm different
    · exact ((List.singleton_sublist.mpr behind_).cons_cons first).trans
        (List.sublist_append_right _ _)

theorem place_reverse_ne {α : Type} {members : List (JsString × α)}
    (distinct : (members.map Prod.fst).Nodup) {first second : JsString × α}
    (inFirst : first ∈ members) (inSecond : second ∈ members)
    (isFirst : isArrayIndex first.1 = false) (isSecond : isArrayIndex second.1 = false)
    (tie : collation.Tie first.1 second.1) :
    collation.placement.place members.reverse ≠ collation.placement.place members := by
  intro same
  have once : (collation.placement.place members).Nodup :=
    (collation.placement.perm members).nodup_iff.mpr distinct.of_map
  have different : first ≠ second := fun alike => tie.1 (congrArg Prod.fst alike)
  rcases mem_pair_sublist inFirst inSecond different with ordered | ordered
  · have swapped : [second, first].Sublist members.reverse := List.reverse_sublist.mpr ordered
    have forward := @pair_sublist_place collation _ _ _ _ ordered isFirst isSecond tie.2.1
    have backward := @pair_sublist_place collation _ _ _ _ swapped isSecond isFirst tie.2.2
    rw [same] at backward
    exact not_sublist_swap once forward backward
  · have swapped : [first, second].Sublist members.reverse := List.reverse_sublist.mpr ordered
    have forward := @pair_sublist_place collation _ _ _ _ ordered isSecond isFirst tie.2.2
    have backward := @pair_sublist_place collation _ _ _ _ swapped isFirst isSecond tie.2.1
    rw [same] at backward
    exact not_sublist_swap once forward backward

theorem forall_mem_replaced {α : Type} {front back : List α} {old new : α} {p : α → Prop}
    (each : ∀ item ∈ front ++ old :: back, p item) (replaced : p new) :
    ∀ item ∈ front ++ new :: back, p item := by
  intro item member
  rcases List.mem_append.mp member with early | late
  · exact each item (List.mem_append_left _ early)
  · rcases List.mem_cons.mp late with rfl | late
    · exact replaced
    · exact each item (List.mem_append_right _ (List.mem_cons_of_mem _ late))

theorem exists_written_ne {value : JsValue} (tied : Tied collation value) : value.isJson = true →
    ∃ other : JsValue, other.isJson = true ∧ SameButOrder other value ∧
      written collation other ≠ written collation value := by
  induction tied with
  | @here members first second inFirst inSecond isFirst isSecond tie =>
      intro json
      obtain ⟨distinct, inner⟩ := isJson_obj.mp json
      have otherJson : (JsValue.obj members.reverse).isJson = true := by
        rw [isJson_obj, List.map_reverse, List.nodup_reverse]
        exact ⟨distinct, fun member present => inner member (List.mem_reverse.mp present)⟩
      refine ⟨.obj members.reverse, otherJson,
        (sameButOrder_obj otherJson json).mpr (members.reverse_perm.map _), ?_⟩
      rw [written_obj, written_obj, List.map_reverse]
      intro same
      refine @place_reverse_ne collation _ (members.map (writtenMember collation)) ?_ _ _
        (List.mem_map_of_mem inFirst) (List.mem_map_of_mem inSecond) isFirst isSecond tie
        (JsValue.obj.inj same)
      rw [← keys_map (written collation)] at distinct
      exact distinct
  | @item items item present tied ih =>
      intro json
      obtain ⟨before, behind, rfl⟩ := List.append_of_mem present
      have inner := allJson_iff.mp json
      obtain ⟨other, otherJson, alike, differs⟩ := ih (inner item present)
      have wholeJson : allJson (before ++ other :: behind) = true := by
        rw [allJson_iff]
        exact forall_mem_replaced inner otherJson
      refine ⟨.arr (before ++ other :: behind), wholeJson, ?_, ?_⟩
      · rw [sameButOrder_arr wholeJson json]
        simp only [List.map_append, List.map_cons]
        rw [show Authority.normalize other = Authority.normalize item from alike]
      · rw [written_arr, written_arr]
        intro same
        have lists := JsValue.arr.inj same
        simp only [List.map_append, List.map_cons, List.append_cancel_left_eq,
          List.cons.injEq] at lists
        exact differs lists.1
  | @member members member present tied ih =>
      intro json
      obtain ⟨before, behind, rfl⟩ := List.append_of_mem present
      obtain ⟨distinct, inner⟩ := isJson_obj.mp json
      obtain ⟨other, otherJson, alike, differs⟩ := ih (inner member present)
      have wholeJson : (JsValue.obj (before ++ (member.1, other) :: behind)).isJson = true := by
        rw [isJson_obj]
        exact ⟨by simpa using distinct, forall_mem_replaced inner otherJson⟩
      refine ⟨.obj (before ++ (member.1, other) :: behind), wholeJson, ?_, ?_⟩
      · rw [sameButOrder_obj wholeJson json]
        simp only [List.map_append, List.map_cons, normalMember]
        rw [show Authority.normalize other = Authority.normalize member.2 from alike]
      · rw [written_obj, written_obj]
        intro same
        have lists := JsValue.obj.inj same
        have changed : writtenMember collation (member.1, other) ∈
            (before ++ member :: behind).map (writtenMember collation) := by
          rw [← @mem_place collation.placement, ← lists, mem_place]
          exact List.mem_map_of_mem (by simp)
        have kept : writtenMember collation member ∈
            (before ++ member :: behind).map (writtenMember collation) :=
          List.mem_map_of_mem present
        rw [← keys_map (written collation)] at distinct
        have equal := eq_of_key_eq distinct changed kept rfl
        exact differs (Prod.mk.inj equal).2

theorem written_written (value : JsValue) : value.isJson = true →
    written collation (written collation value) = written collation value := by
  unfold written
  rw [rearrange_after]
  induction value using JsValue.parts with
  | scalar value notArray notObject =>
      intro _
      rw [rearrange_scalar notArray notObject, rearrange_scalar notArray notObject]
  | arr items each =>
      intro json
      rw [rearrange_arr, rearrange_arr]
      congr 1
      apply List.map_congr_left
      exact fun item inside => each item inside (allJson_iff.mp json item inside)
  | obj members each =>
      intro json
      obtain ⟨distinct, inner⟩ := isJson_obj.mp json
      rw [rearrange_obj, rearrange_obj]
      have twice : (collation.placement.after collation.placement).place members =
          collation.placement.place members := place_place distinct
      rw [twice]
      congr 1
      apply List.map_congr_left
      intro member present
      exact Prod.ext rfl (each member (mem_place.mp present) (inner member (mem_place.mp present)))

/-- The canonical text is canonical exactly where no object has two names that tie. -/
theorem canonicalText_canonical (collation : Collation) (value : JsValue)
    (json : value.isJson = true) :
    ((∀ other : JsValue, other.isJson = true → SameButOrder other value →
        canonicalText collation other = canonicalText collation value) ∧
      (∀ other : JsValue, other.isJson = true →
        canonicalText collation other = canonicalText collation value →
        SameButOrder other value) ∧
      ∃ read, parseJson (canonicalText collation value) = some read ∧
        canonicalText collation read = canonicalText collation value) ↔
    ¬ Tied collation value := by
  constructor
  · rintro ⟨same, _, _⟩ tied
    obtain ⟨other, otherJson, alike, differs⟩ := exists_written_ne tied json
    exact differs ((canonicalText_eq_iff otherJson json).mp (same other otherJson alike))
  · intro untied
    refine ⟨fun other otherJson alike => ?_, fun other otherJson same =>
      sameButOrder_of_canonicalText otherJson json same, written collation value,
      parseJson_canonicalText json, ?_⟩
    · rw [canonicalText_eq_iff otherJson json]
      exact (written_eq_of_untied value other json otherJson alike.symm untied).symm
    · rw [canonicalText_eq_iff (isJson_written json) json]
      exact written_written value json

/-! Canonically equivalent keys, which every locale compares as equal. -/

def composeAcute : JsString → JsString
  | 0x65 :: 0x301 :: rest => 0xE9 :: composeAcute rest
  | unit :: rest => unit :: composeAcute rest
  | [] => []

def acuteCollation : Collation where
  inOrder first second := decide (composeAcute first ≤ composeAcute second)
  total first second := by
    simp only [decide_eq_true_eq]
    exact List.le_total _ _
  trans first second third low high := by
    rw [decide_eq_true_eq] at low high ⊢
    exact List.le_trans low high

def acuteMembers : List (JsString × JsValue) :=
  [([0xE9], .bool true), ([0x65, 0x301], .bool false)]

theorem acute_tied : Tied acuteCollation (.obj acuteMembers) :=
  @Tied.here _ _ ([0xE9], .bool true) ([0x65, 0x301], .bool false) (by simp [acuteMembers])
    (by simp [acuteMembers]) (by decide) (by decide) (by unfold Collation.Tie; decide)

theorem canonicalText_of_acute :
    (JsValue.obj acuteMembers).isJson = true ∧ (JsValue.obj acuteMembers.reverse).isJson = true ∧
      SameButOrder (.obj acuteMembers.reverse) (.obj acuteMembers) ∧
      canonicalText acuteCollation (.obj acuteMembers.reverse) ≠
        canonicalText acuteCollation (.obj acuteMembers) := by
  refine ⟨by decide, by decide, rfl, by decide +kernel⟩

theorem canonicalText_canonical_acute :
    ¬ ((∀ other : JsValue, other.isJson = true → SameButOrder other (.obj acuteMembers) →
        canonicalText acuteCollation other = canonicalText acuteCollation (.obj acuteMembers)) ∧
      (∀ other : JsValue, other.isJson = true →
        canonicalText acuteCollation other = canonicalText acuteCollation (.obj acuteMembers) →
        SameButOrder other (.obj acuteMembers)) ∧
      ∃ read, parseJson (canonicalText acuteCollation (.obj acuteMembers)) = some read ∧
        canonicalText acuteCollation read = canonicalText acuteCollation (.obj acuteMembers)) := by
  intro canonical
  exact (canonicalText_canonical acuteCollation (.obj acuteMembers) (by decide)).mp canonical
    acute_tied

end AshlrHub.Artifacts
