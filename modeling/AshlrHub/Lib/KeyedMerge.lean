import Mathlib.Data.List.Nodup
import Mathlib.Data.List.Perm.Basic

namespace AshlrHub.Lib

/-! Lists whose members stand once under a key, and merging two of them: a member of the second
meets the member of its key in the first, or comes after all of the first. -/

variable {α κ : Type} [DecidableEq κ] {key : α → κ}

theorem nodup_eraseDups [BEq α] [LawfulBEq α] : (items : List α) → items.eraseDups.Nodup
  | [] => by simp
  | item :: items => by
      rw [List.eraseDups_cons, List.nodup_cons]
      refine ⟨?_, nodup_eraseDups _⟩
      rw [List.mem_eraseDups, List.mem_filter]
      simp
termination_by items => items.length
decreasing_by exact Nat.lt_succ_of_le (List.length_filter_le _ _)

theorem exists_of_forall₂ {β γ : Type} {related : β → γ → Prop} {firsts : List β}
    {seconds : List γ} (matched : List.Forall₂ related firsts seconds) {second : γ}
    (member : second ∈ seconds) : ∃ first ∈ firsts, related first second := by
  induction matched with
  | nil => cases member
  | cons pair _ ih =>
      cases member with
      | head => exact ⟨_, List.mem_cons_self, pair⟩
      | tail _ later =>
          obtain ⟨first, inside, holds⟩ := ih later
          exact ⟨first, List.mem_cons_of_mem _ inside, holds⟩

variable {wanted : κ} {item : α}

theorem find?_eq_some_of_key {items : List α} (once : (items.map key).Nodup) :
    items.find? (fun other => key other = wanted) = some item ↔ item ∈ items ∧ key item =
    wanted := by
  constructor
  · intro found
    exact ⟨List.mem_of_find?_eq_some found, by simpa using List.find?_some found⟩
  · rintro ⟨member, rfl⟩
    cases found : items.find? fun other => key other = key item with
    | none =>
        have missing := List.find?_eq_none.mp found item member
        simp at missing
    | some other =>
        have same : key other = key item := by simpa using List.find?_some found
        rw [List.inj_on_of_nodup_map once (List.mem_of_find?_eq_some found) member same]

theorem find?_eq_none_of_key {items : List α} :
    items.find? (fun other => key other = wanted) = none ↔ wanted ∉ items.map key := by
  simp only [List.find?_eq_none, decide_eq_true_eq, List.mem_map, not_exists, not_and]

def meetKeyed (key : α → κ) (combine : α → α → α) (top : List α) (item : α) : α :=
  match top.find? fun other => key other = key item with
  | some other => combine item other
  | none => item

def putKeyed (key : α → κ) (combine : α → α → α) (base : List α) (item : α) : List α :=
  if key item ∈ base.map key then
    base.map fun former => if key former = key item then combine former item else former
  else base ++ [item]

def mergeKeyed (key : α → κ) (combine : α → α → α) (base top : List α) : List α :=
  base.map (meetKeyed key combine top) ++ top.filter fun item => key item ∉ base.map key

section Merging

variable {combine : α → α → α} {base top : List α}

theorem meetKeyed_of_mem (once : (top.map key).Nodup) {other : α} (member : other ∈ top)
    (same : key other = key item) : meetKeyed key combine top item = combine item other := by
  rw [meetKeyed, (find?_eq_some_of_key once).mpr ⟨member, same⟩]

theorem meetKeyed_of_not_mem (absent : key item ∉ top.map key) :
    meetKeyed key combine top item = item := by
  rw [meetKeyed, find?_eq_none_of_key.mpr absent]

theorem meetKeyed_cases (key : α → κ) (combine : α → α → α) (top : List α) (item : α) :
    (∃ other ∈ top, key other = key item ∧ meetKeyed key combine top item = combine item other) ∨
      key item ∉ top.map key ∧ meetKeyed key combine top item = item := by
  unfold meetKeyed
  cases found : top.find? fun other => key other = key item with
  | some other =>
      exact .inl ⟨other, List.mem_of_find?_eq_some found, by simpa using List.find?_some found, rfl⟩
  | none => exact .inr ⟨find?_eq_none_of_key.mp found, rfl⟩

theorem key_meetKeyed (keeps : ∀ a b, key b = key a → key (combine a b) = key a) (item : α) :
    key (meetKeyed key combine top item) = key item := by
  rcases meetKeyed_cases key combine top item with ⟨other, _, same, met⟩ | ⟨_, met⟩
  · rw [met, keeps item other same]
  · rw [met]

section

variable (keeps : ∀ a b, key b = key a → key (combine a b) = key a)
include keeps

theorem keys_mergeKeyed :
    (mergeKeyed key combine base top).map key =
      base.map key ++ (top.filter fun item => key item ∉ base.map key).map key := by
  rw [mergeKeyed, List.map_append, List.map_map]
  congr 1
  exact List.map_congr_left fun item _ => key_meetKeyed keeps item

theorem nodup_keys_mergeKeyed (baseOnce : (base.map key).Nodup) (topOnce : (top.map key).Nodup) :
    ((mergeKeyed key combine base top).map key).Nodup := by
  rw [keys_mergeKeyed keeps, List.nodup_append]
  refine ⟨baseOnce, topOnce.sublist (List.filter_sublist.map key), ?_⟩
  rintro a inBase b inTop rfl
  obtain ⟨item, kept, rfl⟩ := List.mem_map.mp inTop
  exact (of_decide_eq_true (List.mem_filter.mp kept).2) inBase

end

theorem mem_mergeKeyed : item ∈ mergeKeyed key combine base top ↔
    (∃ former ∈ base, meetKeyed key combine top former = item) ∨
      item ∈ top ∧ key item ∉ base.map key := by
  rw [mergeKeyed, List.mem_append, List.mem_map, List.mem_filter, decide_eq_true_eq]

section

variable (keeps : ∀ a b, key b = key a → key (combine a b) = key a)
include keeps

theorem key_mem_mergeKeyed :
    wanted ∈ (mergeKeyed key combine base top).map key ↔
      wanted ∈ base.map key ∨ wanted ∈ top.map key := by
  rw [keys_mergeKeyed keeps, List.mem_append]
  constructor
  · rintro (inBase | inTop)
    · exact .inl inBase
    · exact .inr ((List.filter_sublist.map key).subset inTop)
  · rintro (inBase | inTop)
    · exact .inl inBase
    · by_cases inBase : wanted ∈ base.map key
      · exact .inl inBase
      · obtain ⟨item, member, rfl⟩ := List.mem_map.mp inTop
        exact .inr (List.mem_map_of_mem (List.mem_filter.mpr ⟨member, decide_eq_true inBase⟩))

theorem mergeKeyed_again {again : α → α → α} (topOnce : (top.map key).Nodup)
    (twice : ∀ a ∈ base, ∀ b ∈ top, key b = key a → again (combine a b) b = combine a b)
    (itself : ∀ b ∈ top, again b b = b) :
    mergeKeyed key again (mergeKeyed key combine base top) top =
      mergeKeyed key combine base top := by
  have none :
      (top.filter fun item => key item ∉ (mergeKeyed key combine base top).map key) = [] := by
    refine List.filter_eq_nil_iff.mpr fun item member => ?_
    rw [decide_eq_true_eq, not_not, key_mem_mergeKeyed keeps]
    exact .inr (List.mem_map_of_mem member)
  rw [mergeKeyed, none, List.append_nil]
  refine (List.map_congr_left fun item member => ?_).trans (List.map_id _)
  rw [id]
  rcases mem_mergeKeyed.mp member with ⟨former, held, rfl⟩ | ⟨inTop, _⟩
  · rcases meetKeyed_cases key combine top former with ⟨other, inTop, same, met⟩ | ⟨absent, met⟩
    · rw [met, meetKeyed_of_mem topOnce inTop (by rw [keeps former other same, same]),
        twice former held other inTop same]
    · rw [met, meetKeyed_of_not_mem absent]
  · rw [meetKeyed_of_mem topOnce inTop rfl, itself item inTop]

theorem mergeKeyed_cons (fresh : key item ∉ top.map key) :
    mergeKeyed key combine base (item :: top) =
      mergeKeyed key combine (putKeyed key combine base item) top := by
  have met : ∀ former, meetKeyed key combine (item :: top) former =
      if key former = key item then combine former item
      else meetKeyed key combine top former := by
    intro former
    unfold meetKeyed
    rw [List.find?_cons]
    by_cases same : key former = key item
    · rw [if_pos same, decide_eq_true same.symm]
    · rw [if_neg same, decide_eq_false (Ne.symm same)]
  unfold putKeyed
  by_cases held : key item ∈ base.map key
  · rw [if_pos held]
    have keys : (base.map fun former => if key former = key item then combine former item
        else former).map key = base.map key := by
      rw [List.map_map]
      refine List.map_congr_left fun former _ => ?_
      rw [Function.comp_apply]
      by_cases same : key former = key item
      · rw [if_pos same, keeps former item same.symm]
      · rw [if_neg same]
    rw [mergeKeyed, mergeKeyed, keys, List.filter_cons_of_neg (by simpa using held), List.map_map]
    congr 1
    refine List.map_congr_left fun former _ => ?_
    rw [met, Function.comp_apply]
    by_cases same : key former = key item
    · rw [if_pos same, if_pos same, meetKeyed_of_not_mem]
      rw [keeps former item same.symm, same]
      exact fresh
    · rw [if_neg same, if_neg same]
  · rw [if_neg held, mergeKeyed, mergeKeyed, List.filter_cons_of_pos (by simpa using held),
      List.map_append, List.append_assoc, List.map_singleton, List.singleton_append,
      meetKeyed_of_not_mem fresh]
    congr 1
    · refine List.map_congr_left fun former member => ?_
      rw [met, if_neg]
      exact fun same => held (same ▸ List.mem_map_of_mem member)
    · congr 1
      refine List.filter_congr fun other member => ?_
      have apart : key other ≠ key item := fun same => fresh (same ▸ List.mem_map_of_mem member)
      simp [apart]

end

theorem mergeKeyed_nil : mergeKeyed key combine base [] = base := by
  rw [mergeKeyed, List.filter_nil, List.append_nil]
  refine (List.map_congr_left fun item _ => ?_).trans (List.map_id _)
  rfl

theorem nodup_keys_putKeyed (keeps : ∀ a b, key b = key a → key (combine a b) = key a)
    (once : (base.map key).Nodup) (item : α) :
    ((putKeyed key combine base item).map key).Nodup := by
  have one : ([item].map key).Nodup := List.nodup_singleton (key item)
  have merged := nodup_keys_mergeKeyed keeps once one
  rw [mergeKeyed_cons keeps (by exact List.not_mem_nil), mergeKeyed_nil] at merged
  exact merged

end Merging

/-! Laying one list over another: the second's members replace those of their keys. -/

def replaceWith (_ item : α) : α := item

omit [DecidableEq κ] in
theorem key_replaceWith (a b : α) (same : key b = key a) : key (replaceWith a b) = key a :=
  same

def overlay (key : α → κ) (base top : List α) : List α :=
  mergeKeyed key replaceWith base top

variable {base top : List α}

theorem nodup_keys_overlay (baseOnce : (base.map key).Nodup) (topOnce : (top.map key).Nodup) :
    ((overlay key base top).map key).Nodup :=
  nodup_keys_mergeKeyed key_replaceWith baseOnce topOnce

theorem mem_of_mem_overlay (member : item ∈ overlay key base top) :
    item ∈ base ∧ key item ∉ top.map key ∨ item ∈ top := by
  rcases mem_mergeKeyed.mp member with ⟨former, held, rfl⟩ | ⟨inTop, _⟩
  · rcases meetKeyed_cases key replaceWith top former with ⟨other, inTop, _, met⟩ | ⟨absent, met⟩
    · rw [met]
      exact .inr inTop
    · rw [met]
      exact .inl ⟨held, absent⟩
  · exact .inr inTop

theorem mem_overlay_of_top (topOnce : (top.map key).Nodup) (member : item ∈ top) :
    item ∈ overlay key base top := by
  refine mem_mergeKeyed.mpr ?_
  by_cases held : key item ∈ base.map key
  · obtain ⟨former, inBase, same⟩ := List.mem_map.mp held
    exact .inl ⟨former, inBase, meetKeyed_of_mem topOnce member same.symm⟩
  · exact .inr ⟨member, held⟩

theorem mem_overlay_of_base (member : item ∈ base) (absent : key item ∉ top.map key) :
    item ∈ overlay key base top :=
  mem_mergeKeyed.mpr (.inl ⟨item, member, meetKeyed_of_not_mem absent⟩)

theorem overlay_overlay (baseOnce : (base.map key).Nodup) (topOnce : (top.map key).Nodup) :
    overlay key base (overlay key base top) = overlay key base top := by
  have once := nodup_keys_overlay baseOnce topOnce
  unfold overlay at once ⊢
  rw [mergeKeyed]
  conv_rhs => rw [mergeKeyed]
  congr 1
  · refine List.map_congr_left fun item member => ?_
    have held : meetKeyed key replaceWith top item ∈ mergeKeyed key replaceWith base top :=
      mem_mergeKeyed.mpr (.inl ⟨item, member, rfl⟩)
    rw [meetKeyed_of_mem once held (key_meetKeyed key_replaceWith item), replaceWith]
  · rw [mergeKeyed, List.filter_append]
    have front : ((base.map (meetKeyed key replaceWith top)).filter fun item =>
        key item ∉ base.map key) = [] := by
      refine List.filter_eq_nil_iff.mpr fun item member => ?_
      obtain ⟨former, inBase, rfl⟩ := List.mem_map.mp member
      rw [decide_eq_true_eq, not_not, @key_meetKeyed _ _ _ key _ _ key_replaceWith]
      exact List.mem_map_of_mem inBase
    rw [front, List.nil_append, List.filter_filter]
    exact List.filter_congr fun item _ => Bool.and_self _

/-! Several trees over one base, laid on one another: each place holds what the trees that change
it agree on, or what the base holds. -/

variable {Place Content : Type}

def Compatible (base : Place → Content) (trees : List (Place → Content)) : Prop :=
  ∀ first ∈ trees, ∀ second ∈ trees, ∀ place,
    first place ≠ base place → second place ≠ base place → first place = second place

structure IsOverlay (base : Place → Content) (trees : List (Place → Content))
    (result : Place → Content) : Prop where
  changed : ∀ tree ∈ trees, ∀ place, tree place ≠ base place → result place = tree place
  kept : ∀ place, (∀ tree ∈ trees, tree place = base place) → result place = base place

variable {base result other : Place → Content} {trees others : List (Place → Content)}

section

variable (overlay : IsOverlay base trees result)
include overlay

theorem IsOverlay.compatible : Compatible base trees := by
  intro first firstMember second secondMember place firstChanges secondChanges
  rw [← overlay.changed first firstMember place firstChanges,
    ← overlay.changed second secondMember place secondChanges]

theorem IsOverlay.unique (again : IsOverlay base trees other) : result = other := by
  funext place
  by_cases untouched : ∀ tree ∈ trees, tree place = base place
  · rw [overlay.kept place untouched, again.kept place untouched]
  · push Not at untouched
    obtain ⟨tree, member, changes⟩ := untouched
    rw [overlay.changed tree member place changes, again.changed tree member place changes]

theorem IsOverlay.perm (perm : trees.Perm others) :
    IsOverlay base others result where
  changed := fun tree member => overlay.changed tree (perm.mem_iff.mpr member)
  kept := fun place untouched => overlay.kept place fun tree member =>
    untouched tree (perm.mem_iff.mp member)

end

end AshlrHub.Lib
