import AshlrHub.Js.Map
import AshlrHub.Lib.KeyedMerge
import AshlrHub.Lib.Ordering

namespace AshlrHub.Js.JsMap

open Lib

/-! Maps whose values carry their own key, and folding a list into one. -/

variable {α κ : Type} [DecidableEq κ] {key : α → κ}

def entriesBy (key : α → κ) (items : List α) : JsMap κ α :=
  items.map fun item => (key item, item)

omit [DecidableEq κ] in
theorem values_entriesBy (items : List α) : (entriesBy key items).map Prod.snd = items := by
  rw [entriesBy, List.map_map]
  exact List.map_id _

theorem get?_entriesBy (wanted : κ) : (items : List α) →
    (entriesBy key items).get? wanted = items.find? fun item => key item = wanted
  | [] => rfl
  | item :: items => by
      rw [entriesBy, List.map_cons, get?_cons, List.find?_cons]
      by_cases same : key item = wanted
      · rw [if_pos same, decide_eq_true same]
      · rw [if_neg same, decide_eq_false same]
        exact get?_entriesBy wanted items

theorem set_entriesBy (value : α) : {items : List α} → (items.map key).Nodup →
    (entriesBy key items).set (key value) value =
      entriesBy key (putKeyed key replaceWith items value)
  | [], _ => rfl
  | item :: items, once => by
      rw [List.map_cons, List.nodup_cons] at once
      rw [entriesBy, List.map_cons, set, putKeyed]
      by_cases same : key item = key value
      · have others : (items.map fun former =>
            if key former = key value then replaceWith former value else former) = items := by
          refine (List.map_congr_left fun former member => ?_).trans (List.map_id _)
          rw [if_neg, id]
          exact fun equal => once.1 (same.trans equal.symm ▸ List.mem_map_of_mem member)
        rw [if_pos same, if_pos (same ▸ List.mem_cons_self), List.map_cons, if_pos same, others]
        rfl
      · have rest := set_entriesBy value once.2
        have listed : key value ∈ (item :: items).map key ↔ key value ∈ items.map key := by
          rw [List.map_cons, List.mem_cons, or_iff_right (Ne.symm same)]
        rw [if_neg same]
        change (key item, item) :: (entriesBy key items).set (key value) value = _
        rw [rest, putKeyed]
        by_cases held : key value ∈ items.map key
        · rw [if_pos held, if_pos (listed.mpr held), List.map_cons, if_neg same]
          rfl
        · rw [if_neg held, if_neg (mt listed.mp held)]
          rfl

theorem set_same {key : κ} {value : α} : {map : JsMap κ α} → map.get? key = some value →
    map.set key value = map
  | [], found => by cases found
  | entry :: map, found => by
      rw [get?_cons] at found
      rw [set]
      split_ifs at found ⊢ with same
      · rw [← Option.some.inj found, ← same]
      · rw [set_same found]

variable {combine : α → α → α}

def meet (key : α → κ) (combine : α → α → α) (map : JsMap κ α) (item : α) : JsMap κ α :=
  match map.get? (key item) with
  | none => map.set (key item) item
  | some before => map.set (key item) (combine before item)

theorem meet_entriesBy (keeps : ∀ a b, key b = key a → key (combine a b) = key a)
    {items : List α} (once : (items.map key).Nodup) (item : α) :
    meet key combine (entriesBy key items) item =
      entriesBy key (putKeyed key combine items item) := by
  rw [meet, get?_entriesBy, putKeyed]
  cases found : items.find? fun former => key former = key item with
  | none =>
      have absent := find?_eq_none_of_key.mp found
      rw [if_neg absent]
      exact (set_entriesBy item once).trans (by rw [putKeyed, if_neg absent])
  | some before =>
      obtain ⟨member, same⟩ := (find?_eq_some_of_key once).mp found
      have held : key item ∈ items.map key := same ▸ List.mem_map_of_mem member
      have kept : key (combine before item) = key item := (keeps before item same.symm).trans same
      rw [if_pos held]
      have done := set_entriesBy (combine before item) once
      rw [putKeyed, kept, if_pos held] at done
      refine done.trans (congrArg _ (List.map_congr_left fun former also => ?_))
      by_cases equal : key former = key item
      · rw [if_pos equal, if_pos equal, replaceWith,
          List.inj_on_of_nodup_map once also member (equal.trans same.symm)]
      · rw [if_neg equal, if_neg equal]

theorem foldl_meet (keeps : ∀ a b, key b = key a → key (combine a b) = key a) :
    {top base : List α} → (top.map key).Nodup → (base.map key).Nodup →
    top.foldl (meet key combine) (entriesBy key base) =
      entriesBy key (mergeKeyed key combine base top)
  | [], base, _, _ => by rw [List.foldl_nil, mergeKeyed_nil]
  | item :: top, base, topOnce, baseOnce => by
      rw [List.map_cons, List.nodup_cons] at topOnce
      rw [List.foldl_cons, meet_entriesBy keeps baseOnce, mergeKeyed_cons keeps topOnce.1]
      exact foldl_meet keeps topOnce.2 (nodup_keys_putKeyed keeps baseOnce item)

theorem foldl_set_entriesBy {top base : List α} (topOnce : (top.map key).Nodup)
    (baseOnce : (base.map key).Nodup) :
    top.foldl (fun map item => map.set (key item) item) (entriesBy key base) =
      entriesBy key (overlay key base top) := by
  rw [overlay, ← foldl_meet key_replaceWith topOnce baseOnce]
  congr 1
  funext map item
  rw [meet]
  cases map.get? (key item) <;> rfl

/-- The map of a list: `new Map(items.map((item) => [key(item), item]))`. -/
theorem foldl_set_nil {items : List α} (once : (items.map key).Nodup) :
    items.foldl (fun (map : JsMap κ α) item => map.set (key item) item) [] =
      entriesBy key items := by
  refine (@foldl_set_entriesBy _ _ _ key items [] once List.nodup_nil).trans (congrArg _ ?_)
  rw [overlay, mergeKeyed, List.map_nil, List.nil_append, List.map_nil]
  exact List.filter_eq_self.mpr fun _ _ => rfl

/-! Maps filled along an order, each value from those set before it. -/

variable {α β : Type} [DecidableEq α] {value : JsMap α β → α → β}

def fillAlong (value : JsMap α β → α → β) (order : List α) (map : JsMap α β) : JsMap α β :=
  order.foldl (fun map key => map.set key (value map key)) map

theorem fillAlong_of_not_mem {key : α} : {order : List α} → (map : JsMap α β) → key ∉ order →
    (fillAlong value order map).get? key = map.get? key
  | [], _, _ => rfl
  | other :: order, map, absent => by
      rw [List.mem_cons, not_or] at absent
      rw [fillAlong, List.foldl_cons, ← fillAlong, fillAlong_of_not_mem _ absent.2,
        get?_set_ne absent.1]

theorem fillAlong_spec {needs : α → List α} : {done order : List α} → (map : JsMap α β) →
    Ranked needs done order → done.Nodup → ∀ key ∈ order, ∃ before : JsMap α β,
      (∀ need ∈ needs key, before.get? need = (fillAlong value order map).get? need) ∧
      before.get? key = map.get? key ∧
      (fillAlong value order map).get? key = some (value before key)
  | _, [], _, _, _, _, member => by cases member
  | done, first :: order, map, ranked, once, key, member => by
      have distinct := ranked.nodup once
      obtain ⟨fresh, ready, rest⟩ := ranked
      rw [List.nodup_append, List.nodup_cons] at distinct
      obtain ⟨-, ⟨apart, -⟩, separate⟩ := distinct
      rw [fillAlong, List.foldl_cons, ← fillAlong]
      rcases List.mem_cons.mp member with rfl | later
      · refine ⟨map, fun need inside => ?_, rfl, ?_⟩
        · have early := ready need inside
          have other : need ≠ key := fun same => fresh (same ▸ early)
          have behind : need ∉ order := fun late =>
            separate need early need (List.mem_cons_of_mem _ late) rfl
          rw [fillAlong_of_not_mem _ behind, get?_set_ne other]
        · rw [fillAlong_of_not_mem _ apart, get?_set_self]
      · have more : (done ++ [first]).Nodup := by
          rw [List.nodup_append]
          refine ⟨once, List.nodup_singleton _, ?_⟩
          rintro old old_ other here rfl
          exact fresh ((List.mem_singleton.mp here) ▸ old_)
        obtain ⟨before, agrees, own, found⟩ := fillAlong_spec (map.set first (value map first)) rest
          more key later
        refine ⟨before, agrees, ?_, found⟩
        have other : key ≠ first := fun same => apart (same ▸ later)
        rw [own, get?_set_ne other]

end AshlrHub.Js.JsMap
