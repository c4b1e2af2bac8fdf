import Mathlib.Data.List.Sort
import Mathlib.Tactic.Linarith

namespace AshlrHub.Lib

/-! Sorting by a function that compares two members and answers with a number. -/

/-- Less than zero where the first stands before the second. -/
abbrev Comparator (α : Type) := α → α → ℚ

section Comparing

variable {α : Type}

structure Consistent (compare : Comparator α) (members : List α) : Prop where
  flips : ∀ a ∈ members, ∀ b ∈ members, compare a b < 0 ↔ 0 < compare b a
  trans : ∀ a ∈ members, ∀ b ∈ members, ∀ c ∈ members,
    compare a b ≤ 0 → compare b c ≤ 0 → compare a c ≤ 0

/-- Irreflexive and transitive, and so is not being ordered. -/
structure StrictWeakOrder (before : α → α → Prop) (members : List α) : Prop where
  irrefl : ∀ a ∈ members, ¬ before a a
  trans : ∀ a ∈ members, ∀ b ∈ members, ∀ c ∈ members, before a b → before b c → before a c
  ties : ∀ a ∈ members, ∀ b ∈ members, ∀ c ∈ members,
    ¬ before a b ∧ ¬ before b a → ¬ before b c ∧ ¬ before c b → ¬ before a c ∧ ¬ before c a

variable {compare first second : Comparator α} {members : List α}

theorem Consistent.mono {others : List α} (consistent : Consistent compare members)
    (within : others ⊆ members) : Consistent compare others where
  flips := fun a inA b inB => consistent.flips a (within inA) b (within inB)
  trans := fun a inA b inB c inC =>
    consistent.trans a (within inA) b (within inB) c (within inC)

variable {a b : α}

section

variable (consistent : Consistent compare members)
include consistent

section

variable (inA : a ∈ members) (inB : b ∈ members)
include inA inB

theorem Consistent.le_or_le : compare a b ≤ 0 ∨ compare b a ≤ 0 := by
  apply or_iff_not_imp_left.mpr
  intro above
  exact ((consistent.flips b inB a inA).mpr (not_le.mp above)).le

theorem Consistent.le_of_not_lt (not : ¬ compare b a < 0) : compare a b ≤ 0 := by
  apply not_lt.mp
  intro above
  exact not ((consistent.flips b inB a inA).mpr above)

theorem Consistent.not_lt_of_le (le : compare a b ≤ 0) : ¬ compare b a < 0 := by
  intro below
  exact absurd ((consistent.flips b inB a inA).mp below) (not_lt.mpr le)

theorem Consistent.lt_of_le_of_lt {c : α} (inC : c ∈ members) (ab : compare a b ≤ 0)
    (bc : compare b c < 0) : compare a c < 0 := by
  by_contra not
  have cb := consistent.trans c inC a inA b inB (consistent.le_of_not_lt inC inA not) ab
  exact consistent.not_lt_of_le inC inB cb bc

theorem Consistent.lt_of_lt_of_le {c : α} (inC : c ∈ members) (ab : compare a b < 0)
    (bc : compare b c ≤ 0) : compare a c < 0 := by
  by_contra not
  have ba := consistent.trans b inB c inC a inA bc (consistent.le_of_not_lt inC inA not)
  exact consistent.not_lt_of_le inB inA ba ab

end

theorem Consistent.strictWeakOrder :
    StrictWeakOrder (fun a b => compare a b < 0) members where
  irrefl := by
    intro a inA before
    exact consistent.not_lt_of_le inA inA before.le before
  trans := by
    intro a inA b inB c inC ab bc
    exact consistent.lt_of_le_of_lt inA inB inC ab.le bc
  ties := by
    intro a inA b inB c inC ab bc
    have ac := consistent.trans a inA b inB c inC (consistent.le_of_not_lt inA inB ab.2)
      (consistent.le_of_not_lt inB inC bc.2)
    have ca := consistent.trans c inC b inB a inA (consistent.le_of_not_lt inC inB bc.1)
      (consistent.le_of_not_lt inB inA ab.1)
    exact ⟨consistent.not_lt_of_le inC inA ca, consistent.not_lt_of_le inA inC ac⟩

end

theorem Consistent.ofKey (key : α → ℚ) (members : List α) :
    Consistent (fun a b => key a - key b) members where
  flips := fun a _ b _ => by
    rw [sub_neg, sub_pos]
  trans := fun a _ b _ c _ ab bc => by
    linarith

def Comparator.thenBy (first second : Comparator α) : Comparator α :=
  fun a b => if first a b = 0 then second a b else first a b

theorem Comparator.thenBy_neg :
    first.thenBy second a b < 0 ↔ first a b < 0 ∨ first a b = 0 ∧ second a b < 0 := by
  unfold Comparator.thenBy
  split_ifs with tie
  · simp [tie]
  · simp [tie]

theorem Comparator.thenBy_pos :
    0 < first.thenBy second a b ↔ 0 < first a b ∨ first a b = 0 ∧ 0 < second a b := by
  unfold Comparator.thenBy
  split_ifs with tie
  · simp [tie]
  · simp [tie]

theorem Comparator.thenBy_nonpos :
    first.thenBy second a b ≤ 0 ↔ first a b < 0 ∨ first a b = 0 ∧ second a b ≤ 0 := by
  unfold Comparator.thenBy
  split_ifs with tie
  · simp [tie]
  · simp [tie, le_iff_lt_or_eq]

theorem Comparator.thenBy_eq_zero :
    first.thenBy second a b = 0 ↔ first a b = 0 ∧ second a b = 0 := by
  unfold Comparator.thenBy
  split_ifs with tie
  · simp [tie]
  · simp [tie]

theorem Consistent.tie_comm (consistent : Consistent compare members) (inA : a ∈ members)
    (inB : b ∈ members) : compare a b = 0 ↔ compare b a = 0 := by
  have forth := consistent.flips a inA b inB
  have back := consistent.flips b inB a inA
  constructor
  · intro tie
    rw [tie] at forth back
    exact le_antisymm (not_lt.mp fun above => lt_irrefl _ (forth.mpr above))
      (not_lt.mp fun below => lt_irrefl _ (back.mp below))
  · intro tie
    rw [tie] at forth back
    exact le_antisymm (not_lt.mp fun above => lt_irrefl _ (back.mpr above))
      (not_lt.mp fun below => lt_irrefl _ (forth.mp below))

theorem Consistent.thenBy (byFirst : Consistent first members)
    (bySecond : Consistent second members) : Consistent (first.thenBy second) members where
  flips := by
    intro a inA b inB
    rw [Comparator.thenBy_neg, Comparator.thenBy_pos, byFirst.flips a inA b inB,
      byFirst.tie_comm inA inB, bySecond.flips a inA b inB]
  trans := by
    intro a inA b inB c inC ab bc
    rw [Comparator.thenBy_nonpos] at ab bc ⊢
    cases ab with
    | inl less =>
        have le : first b c ≤ 0 := bc.elim le_of_lt fun tie => tie.1.le
        exact .inl (byFirst.lt_of_lt_of_le inA inB inC less le)
    | inr tied =>
        cases bc with
        | inl less => exact .inl (byFirst.lt_of_le_of_lt inA inB inC tied.1.le less)
        | inr ties =>
            have down := byFirst.trans a inA b inB c inC tied.1.le ties.1.le
            have up := byFirst.trans c inC b inB a inA
              ((byFirst.tie_comm inB inC).mp ties.1).le ((byFirst.tie_comm inA inB).mp tied.1).le
            have tie := le_antisymm down (not_lt.mp (byFirst.not_lt_of_le inC inA up))
            exact .inr ⟨tie, bySecond.trans a inA b inB c inC tied.2 ties.2⟩

theorem Consistent.unique (consistent : Consistent compare members)
    (apart : ∀ a ∈ members, ∀ b ∈ members, compare a b = 0 → a = b) {left right : List α}
    (fromLeft : left.Perm members) (fromRight : right.Perm members)
    (sortedLeft : left.Pairwise fun a b => compare a b ≤ 0)
    (sortedRight : right.Pairwise fun a b => compare a b ≤ 0) : left = right := by
  refine List.Perm.eq_of_pairwise ?_ sortedLeft sortedRight (fromLeft.trans fromRight.symm)
  intro a b inA inB ab ba
  have memA := fromLeft.subset inA
  have memB := fromRight.subset inB
  apply apart a memA b memB
  refine le_antisymm ab (not_lt.mp fun below => ?_)
  exact absurd ((consistent.flips a memA b memB).mp below) (not_lt.mpr ba)

end Comparing

structure SortAlgorithm where
  sort : {α : Type} → Comparator α → List α → List α
  perm : ∀ {α : Type} (compare : Comparator α) (items : List α), (sort compare items).Perm items
  sorted : ∀ {α : Type} {compare : Comparator α} {items : List α}, Consistent compare items →
    (sort compare items).Pairwise fun a b => compare a b ≤ 0

theorem pairwise_mergeSort_of_consistent {α : Type} {compare : Comparator α} {items : List α}
    (consistent : Consistent compare items) :
    (items.mergeSort fun a b => compare a b ≤ 0).Pairwise fun a b => compare a b ≤ 0 := by
  let le : { item // item ∈ items } → { item // item ∈ items } → Bool :=
    fun a b => compare a.val b.val ≤ 0
  have sorted : (items.attach.mergeSort le).Pairwise fun a b => le a b = true := by
    refine List.pairwise_mergeSort ?_ ?_ _
    · intro a b c ab bc
      exact decide_eq_true (consistent.trans a.1 a.2 b.1 b.2 c.1 c.2 (of_decide_eq_true ab)
        (of_decide_eq_true bc))
    · intro a b
      rw [Bool.or_eq_true, decide_eq_true_eq, decide_eq_true_eq]
      exact consistent.le_or_le a.2 b.2
  have image : (items.attach.mergeSort le).map Subtype.val =
      items.mergeSort fun a b => compare a b ≤ 0 := by
    have mapped := List.map_mergeSort (r := le) (s := fun a b => decide (compare a b ≤ 0))
      (f := Subtype.val) (l := items.attach) fun _ _ _ _ => rfl
    rw [mapped, List.attach_map_subtype_val]
  rw [← image, List.pairwise_map]
  exact sorted.imp of_decide_eq_true

def mergeSorting : SortAlgorithm where
  sort := fun compare items => items.mergeSort fun a b => compare a b ≤ 0
  perm := fun _ items => List.mergeSort_perm items _
  sorted := pairwise_mergeSort_of_consistent

theorem SortAlgorithm.sort_eq {α : Type} (first second : SortAlgorithm) {compare : Comparator α}
    {items others : List α} (consistent : Consistent compare items)
    (apart : ∀ a ∈ items, ∀ b ∈ items, compare a b = 0 → a = b) (same : others.Perm items) :
    first.sort compare others = second.sort compare items := by
  refine consistent.unique apart ((first.perm compare others).trans same)
    (second.perm compare items) ?_ (second.sorted consistent)
  exact first.sorted (consistent.mono same.subset)

theorem insertionSort_eq_of_perm {α : Type} {before : α → α → Prop} [DecidableRel before]
    [Std.Total before] [IsTrans α before] {items others : List α}
    (apart : ∀ a ∈ items, ∀ b ∈ items, before a b → before b a → a = b) (perm : items.Perm others) :
    items.insertionSort before = others.insertionSort before := by
  refine List.Perm.eq_of_pairwise ?_ (List.pairwise_insertionSort before items)
    (List.pairwise_insertionSort before others) ?_
  · intro a b left right
    exact apart a (List.mem_insertionSort before |>.mp left) b
      (perm.mem_iff.mpr (List.mem_insertionSort before |>.mp right))
  · exact (List.perm_insertionSort before items).trans
      (perm.trans (List.perm_insertionSort before others).symm)

theorem take_insertionSort_eq {α : Type} {before : α → α → Prop} [DecidableRel before]
    [Std.Total before] [IsTrans α before] {items first : List α} {count : ℕ}
    (apart : ∀ a ∈ items, ∀ b ∈ items, before a b → before b a → a = b) (once : items.Nodup)
    (firstOnce : first.Nodup) (within : first ⊆ items) (sorted : first.Pairwise before)
    (ahead : ∀ a ∈ first, ∀ b ∈ items, b ∉ first → before a b)
    (full : first.length = count ∨ first.length ≤ count ∧ items ⊆ first) :
    (items.insertionSort before).take count = first := by
  classical
  set rest := (items.filter fun item => item ∉ first).insertionSort before with rests
  have inRest : ∀ {b}, b ∈ rest ↔ b ∈ items ∧ b ∉ first := by
    intro b
    rw [rests, List.mem_insertionSort, List.mem_filter, decide_eq_true_eq]
  have whole : (first ++ rest).Perm items := by
    refine (List.perm_ext_iff_of_nodup ?_ once).mpr fun item => ?_
    · rw [List.nodup_append]
      refine ⟨firstOnce, ?_, ?_⟩
      · rw [rests]
        exact (List.perm_insertionSort before _).nodup_iff.mpr (once.sublist List.filter_sublist)
      · rintro a inFirst b inOthers rfl
        exact (inRest.mp inOthers).2 inFirst
    · rw [List.mem_append, inRest]
      constructor
      · exact fun either => either.elim (@within item) And.left
      · intro member
        by_cases held : item ∈ first
        · exact .inl held
        · exact .inr ⟨member, held⟩
  have ordered : (first ++ rest).Pairwise before := by
    rw [List.pairwise_append]
    refine ⟨sorted, List.pairwise_insertionSort before _, fun a inFirst b inOthers => ?_⟩
    exact ahead a inFirst b (inRest.mp inOthers).1 (inRest.mp inOthers).2
  have same : items.insertionSort before = first ++ rest := by
    refine List.Perm.eq_of_pairwise ?_ (List.pairwise_insertionSort before items) ordered
      ((List.perm_insertionSort before items).trans whole.symm)
    intro a b inA inB ab ba
    exact apart a ((List.mem_insertionSort before).mp inA) b (whole.subset inB) ab ba
  rw [same]
  rcases full with exact_ | ⟨short, covers⟩
  · rw [← exact_, List.take_left]
  · have none : rest = [] := by
      refine List.eq_nil_iff_forall_not_mem.mpr fun b member => ?_
      exact (inRest.mp member).2 (covers (inRest.mp member).1)
    rw [none, List.append_nil, List.take_of_length_le short]

end AshlrHub.Lib
