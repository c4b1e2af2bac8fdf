import Mathlib.Algebra.BigOperators.Group.List.Basic
import Mathlib.Algebra.GroupWithZero.Nat
import Mathlib.Data.List.Nodup

namespace AshlrHub.Js

/-! JavaScript maps: entries in insertion order, a key set again keeps its place. -/

abbrev JsMap (α β : Type) := List (α × β)

namespace JsMap

variable {α β : Type} [DecidableEq α]

def get? : JsMap α β → α → Option β
  | [], _ => none
  | (other, value) :: entries, key => if other = key then some value else get? entries key

def set (key : α) (value : β) : JsMap α β → JsMap α β
  | [] => [(key, value)]
  | entry :: entries =>
      if entry.1 = key then (key, value) :: entries else entry :: set key value entries

def delete (key : α) (map : JsMap α β) : JsMap α β :=
  map.filter fun entry => entry.1 ≠ key

def has (map : JsMap α β) (key : α) : Bool :=
  (map.get? key).isSome

/-- `new Map(entries)` -/
def ofEntries (entries : List (α × β)) : JsMap α β :=
  entries.foldl (fun map entry => map.set entry.1 entry.2) []

@[simp] theorem get?_nil (key : α) : get? ([] : JsMap α β) key = none := rfl

theorem get?_cons (entry : α × β) (entries : JsMap α β) (key : α) :
    get? (entry :: entries) key = if entry.1 = key then some entry.2 else get? entries key :=
  rfl

@[simp] theorem get?_set_self (key : α) (value : β) : (map : JsMap α β) →
    (map.set key value).get? key = some value
  | [] => by simp [set, get?_cons]
  | entry :: entries => by
      rw [set]
      split_ifs with same
      · simp [get?_cons]
      · rw [get?_cons, if_neg same, get?_set_self key value entries]

variable {key other : α}

theorem get?_set_ne (different : other ≠ key) (value : β) :
    (map : JsMap α β) → (map.set key value).get? other = map.get? other
  | [] => by simp [set, get?_cons, different.symm]
  | entry :: entries => by
      rw [set]
      split_ifs with same
      · rw [get?_cons, get?_cons, if_neg different.symm, if_neg (same ▸ different.symm)]
      · rw [get?_cons, get?_cons, get?_set_ne different value entries]

theorem get?_set (key other : α) (value : β) (map : JsMap α β) :
    (map.set key value).get? other = if other = key then some value else map.get? other := by
  split_ifs with same
  · rw [same, get?_set_self]
  · exact get?_set_ne same value map

@[simp] theorem get?_delete_self (key : α) : (map : JsMap α β) →
    (map.delete key).get? key = none
  | [] => rfl
  | entry :: entries => by
      have tail := get?_delete_self key entries
      by_cases same : entry.1 = key
      · simpa [delete, same] using tail
      · simpa [delete, same, get?_cons] using tail

theorem get?_delete_ne (different : other ≠ key) : (map : JsMap α β) →
    (map.delete key).get? other = map.get? other
  | [] => rfl
  | entry :: entries => by
      have tail := get?_delete_ne different entries
      by_cases same : entry.1 = key
      · simpa [delete, same, get?_cons, different.symm] using tail
      · simpa [delete, same, get?_cons] using congrArg
          (fun rest => if entry.1 = other then some entry.2 else rest) tail

def keys (map : JsMap α β) : List α :=
  map.map Prod.fst

theorem set_of_not_mem (value : β) : {map : JsMap α β} → key ∉ map.keys →
    map.set key value = map ++ [(key, value)]
  | [], _ => rfl
  | entry :: entries, absent => by
      simp only [keys, List.map_cons, List.mem_cons, not_or] at absent
      rw [set, if_neg (Ne.symm absent.1), set_of_not_mem value absent.2, List.cons_append]

theorem delete_cons (value : β) {map : JsMap α β} (absent : key ∉ map.keys) :
    delete key ((key, value) :: map) = map := by
  have kept : ∀ entry ∈ map, entry.1 ≠ key := fun entry member same =>
    absent (same ▸ List.mem_map_of_mem member)
  simpa [delete] using kept

theorem get?_eq_none : {map : JsMap α β} → key ∉ map.keys → map.get? key = none
  | [], _ => rfl
  | entry :: entries, absent => by
      simp only [keys, List.map_cons, List.mem_cons, not_or] at absent
      rw [get?_cons, if_neg (Ne.symm absent.1), get?_eq_none absent.2]

theorem get?_foldl_set_entries {γ : Type} (key : γ → α) (value : γ → β) {entry : γ} :
    {entries : List γ} → (map : JsMap α β) → (entries.map key).Nodup → entry ∈ entries →
    (entries.foldl (fun map entry => map.set (key entry) (value entry)) map).get? (key entry) =
      some (value entry)
  | [], _, _, member => by cases member
  | first :: entries, map, once, member => by
      rw [List.map_cons, List.nodup_cons] at once
      rw [List.foldl_cons]
      rcases List.mem_cons.mp member with rfl | later
      · have untouched : ∀ (others : List γ) (map : JsMap α β), key entry ∉ others.map key →
            (others.foldl (fun map other => map.set (key other) (value other)) map).get? (key entry)
              = map.get? (key entry) := by
          intro others
          induction others with
          | nil => exact fun _ _ => rfl
          | cons other others ih =>
              intro map absent
              rw [List.map_cons, List.mem_cons, not_or] at absent
              rw [List.foldl_cons, ih _ absent.2, get?_set_ne absent.1]
        rw [untouched entries _ once.1, get?_set_self]
      · exact get?_foldl_set_entries key value _ once.2 later

theorem foldl_set_eq_append : {entries map : List (α × β)} →
    ((map ++ entries).map Prod.fst).Nodup →
    entries.foldl (fun map entry => JsMap.set entry.1 entry.2 map) map = map ++ entries
  | [], map, _ => (List.append_nil map).symm
  | entry :: entries, map, once => by
      have apart : entry.1 ∉ keys map := by
        rw [List.map_append, List.map_cons, List.nodup_append] at once
        exact fun member => once.2.2 _ member _ List.mem_cons_self rfl
      rw [List.foldl_cons, set_of_not_mem entry.2 apart,
        foldl_set_eq_append (by simpa using once), List.append_assoc, List.singleton_append]

theorem ofEntries_eq {entries : List (α × β)} (once : (entries.map Prod.fst).Nodup) :
    ofEntries entries = entries :=
  foldl_set_eq_append once

variable {value : β}

theorem mem_of_get? : {map : JsMap α β} → map.get? key = some value →
    (key, value) ∈ map
  | [], found => by cases found
  | entry :: entries, found => by
      rw [get?_cons] at found
      split_ifs at found with same
      · cases found
        rw [← same]
        exact List.mem_cons_self
      · exact List.mem_cons_of_mem _ (mem_of_get? found)

theorem get?_of_mem : {map : JsMap α β} → map.keys.Nodup →
    (key, value) ∈ map → map.get? key = some value
  | [], _, member => absurd member List.not_mem_nil
  | entry :: entries, once, member => by
      rw [keys, List.map_cons, List.nodup_cons] at once
      rw [get?_cons]
      rcases List.mem_cons.mp member with rfl | later
      · rw [if_pos rfl]
      · have apart : entry.1 ≠ key := fun same =>
          once.1 (same ▸ List.mem_map_of_mem later)
        rw [if_neg apart]
        exact get?_of_mem once.2 later

theorem keys_set {old : β} : {map : JsMap α β} → map.get? key = some old →
    (map.set key value).keys = map.keys
  | [], found => by cases found
  | entry :: entries, found => by
      rw [get?_cons] at found
      rw [set]
      split_ifs at found ⊢ with same
      · rw [keys, keys, List.map_cons, List.map_cons, same]
      · have rest : keys (set key value entries) = keys entries := keys_set found
        rw [keys] at rest ⊢
        rw [List.map_cons, rest, keys, keys, List.map_cons]

theorem mem_keys_set :
    {map : JsMap α β} → other ∈ (map.set key value).keys → other = key ∨ other ∈ map.keys
  | [], present => .inl (List.mem_singleton.mp present)
  | entry :: map, present => by
      rw [set] at present
      split_ifs at present with same
      · rcases List.mem_cons.mp present with rfl | later
        · exact .inl rfl
        · exact .inr (List.mem_cons_of_mem _ later)
      · rcases List.mem_cons.mp present with rfl | later
        · exact .inr List.mem_cons_self
        · exact (mem_keys_set later).imp_right (List.mem_cons_of_mem _)

theorem nodup_keys_set (key : α) (value : β) :
    {map : JsMap α β} → map.keys.Nodup → (map.set key value).keys.Nodup
  | [], _ => List.nodup_singleton _
  | entry :: map, once => by
      obtain ⟨fresh, once⟩ := List.nodup_cons.mp once
      rw [set]
      split_ifs with same
      · rw [keys, List.map_cons, List.nodup_cons]
        exact ⟨same ▸ fresh, once⟩
      · rw [keys, List.map_cons, List.nodup_cons]
        refine ⟨fun present => ?_, nodup_keys_set key value once⟩
        rcases mem_keys_set present with equal | later
        · exact same equal
        · exact fresh later

theorem mem_entries_set {entry : α × β} :
    {map : JsMap α β} → entry ∈ map.set key value → entry = (key, value) ∨ entry ∈ map
  | [], present => .inl (List.mem_singleton.mp present)
  | first :: map, present => by
      rw [set] at present
      split_ifs at present with same
      · rcases List.mem_cons.mp present with rfl | later
        · exact .inl rfl
        · exact .inr (List.mem_cons_of_mem _ later)
      · rcases List.mem_cons.mp present with rfl | later
        · exact .inr List.mem_cons_self
        · exact (mem_entries_set later).imp_right (List.mem_cons_of_mem _)

theorem sum_set (weight : β → ℕ) (value : β) {old : β} : {map : JsMap α β} →
    map.get? key = some old →
    ((map.set key value).map fun entry => weight entry.2).sum + weight old =
      (map.map fun entry => weight entry.2).sum + weight value
  | [], found => by cases found
  | entry :: entries, found => by
      rw [get?_cons] at found
      rw [set]
      split_ifs at found ⊢ with same
      · cases found
        simp only [List.map_cons, List.sum_cons]
        omega
      · have rest := sum_set weight value found
        simp only [List.map_cons, List.sum_cons]
        omega

end JsMap

end AshlrHub.Js
