import Mathlib.Data.List.Induction
import Mathlib.Data.List.Sort

namespace AshlrHub.Lib

/-! Bounded histories: rows in the order of their times, of which the newest are kept. -/

variable {α : Type}

/-- Push a row, and drop the oldest where there are more than `max`. -/
def pushBounded (max : ℕ) (rows : List α) (row : α) : List α :=
  if max < (rows ++ [row]).length then (rows ++ [row]).tail else rows ++ [row]

/-- The last `max` rows. -/
def newest (max : ℕ) (rows : List α) : List α :=
  rows.drop (rows.length - max)

theorem pushBounded_newest (max : ℕ) (rows : List α) (row : α) :
    pushBounded max (newest max rows) row = newest max (rows ++ [row]) := by
  unfold pushBounded newest
  rw [List.length_append, List.length_drop, List.length_singleton, List.length_append,
    List.length_singleton]
  split
  · rename_i full
    rw [← List.drop_one, ← List.drop_append_of_le_length (by omega), List.drop_drop]
    congr 1
    omega
  · rename_i room
    rw [← List.drop_append_of_le_length (by omega)]
    congr 1
    omega

theorem newest_sublist (max : ℕ) (rows : List α) : (newest max rows).Sublist rows :=
  List.drop_sublist _ _

variable {row : α}

/-- A row with fewer than `max` after it is kept, with those. -/
theorem newest_split {max : ℕ} {front back : List α} (few : back.length < max) :
    ∃ kept, kept.Sublist front ∧ newest max (front ++ row :: back) = kept ++ row :: back := by
  refine ⟨front.drop ((front ++ row :: back).length - max), List.drop_sublist _ _, ?_⟩
  have inside : (front ++ row :: back).length - max ≤ front.length := by
    rw [List.length_append, List.length_cons]
    omega
  rw [newest, List.drop_append_of_le_length inside]

section

variable (time : α → ℤ)

def byTime (rows : List α) : List α :=
  rows.insertionSort fun first second => time first ≤ time second

abbrev InOrder (rows : List α) : Prop :=
  rows.Pairwise fun first second => time first ≤ time second

instance timesTotal : Std.Total fun first second : α => time first ≤ time second :=
  ⟨fun first second => le_total (time first) (time second)⟩

instance timesTrans : IsTrans α fun first second => time first ≤ time second :=
  ⟨fun _ _ _ => le_trans⟩

variable {time}

theorem inOrder_byTime (rows : List α) : InOrder time (byTime time rows) :=
  List.pairwise_insertionSort _ rows

theorem perm_byTime (rows : List α) : (byTime time rows).Perm rows :=
  List.perm_insertionSort _ rows

variable {rows : List α}

theorem byTime_of_inOrder (ordered : InOrder time rows) :
    byTime time rows = rows :=
  ordered.insertionSort_eq

theorem orderedInsert_behind {front : List α} (behind : ∀ other ∈ front, time other < time row)
    (back : List α) :
    (front ++ back).orderedInsert (fun first second => time first ≤ time second) row =
      front ++ back.orderedInsert (fun first second => time first ≤ time second) row := by
  induction front with
  | nil => rfl
  | cons first front ih =>
      rw [List.cons_append, List.orderedInsert_cons,
        if_neg (Int.not_le.mpr (behind first List.mem_cons_self)),
        ih fun other present => behind other (List.mem_cons_of_mem _ present), List.cons_append]

theorem orderedInsert_ahead (ahead : ∀ other ∈ rows, time row ≤ time other) :
    rows.orderedInsert (fun first second => time first ≤ time second) row = row :: rows := by
  cases rows with
  | nil => rfl
  | cons first rows => rw [List.orderedInsert_cons, if_pos (ahead first List.mem_cons_self)]

theorem filter_orderedInsert (keep : α → Bool) (row : α) (ordered : InOrder time rows) :
    (rows.orderedInsert (fun first second => time first ≤ time second) row).filter keep =
      if keep row then (rows.filter keep).orderedInsert
        (fun first second => time first ≤ time second) row
      else rows.filter keep := by
  induction rows with
  | nil => by_cases kept : keep row = true <;> simp [kept]
  | cons first rows ih =>
      obtain ⟨least, ordered⟩ := List.pairwise_cons.mp ordered
      have rest := ih ordered
      rw [List.orderedInsert_cons]
      by_cases before : time row ≤ time first
      · rw [if_pos before]
        by_cases kept : keep row = true
        · rw [List.filter_cons_of_pos kept, if_pos kept, orderedInsert_ahead]
          intro other present
          rcases List.mem_cons.mp (List.mem_of_mem_filter present) with rfl | later
          · exact before
          · exact before.trans (least other later)
        · rw [List.filter_cons_of_neg kept, if_neg kept]
      · rw [if_neg before]
        by_cases kept : keep first = true
        · rw [List.filter_cons_of_pos kept, List.filter_cons_of_pos kept, rest]
          by_cases mine : keep row = true
          · rw [if_pos mine, if_pos mine, List.orderedInsert_cons, if_neg before]
          · rw [if_neg mine, if_neg mine]
        · rw [List.filter_cons_of_neg kept, List.filter_cons_of_neg kept, rest]

theorem filter_byTime (keep : α → Bool) (rows : List α) :
    (byTime time rows).filter keep = byTime time (rows.filter keep) := by
  induction rows with
  | nil => rfl
  | cons row rows ih =>
      rw [byTime, List.insertionSort_cons]
      change (List.orderedInsert _ row (byTime time rows)).filter keep = _
      rw [filter_orderedInsert keep row (inOrder_byTime rows)]
      by_cases kept : keep row = true
      · rw [if_pos kept, List.filter_cons_of_pos kept, ih]
        rfl
      · rw [if_neg kept, List.filter_cons_of_neg kept]
        exact ih

section

variable (ordered : InOrder time rows)
include ordered

/-- Rows in order: the earlier ones, then those from `since` on. -/
theorem inOrder_split (since : ℤ) :
    rows = rows.filter (fun row => time row < since) ++
      rows.filter (fun row => since ≤ time row) := by
  induction rows with
  | nil => rfl
  | cons row rows ih =>
      obtain ⟨least, ordered⟩ := List.pairwise_cons.mp ordered
      by_cases early : time row < since
      · rw [List.filter_cons_of_pos (by simpa using early),
          List.filter_cons_of_neg (by simpa using early), List.cons_append, ← ih ordered]
      · have late : ∀ other ∈ row :: rows, since ≤ time other := by
          intro other present
          rcases List.mem_cons.mp present with rfl | later
          · exact Int.not_lt.mp early
          · exact (Int.not_lt.mp early).trans (least other later)
        rw [List.filter_eq_nil_iff.mpr fun other present => by
            have := late other present
            simpa using this,
          List.filter_eq_self.mpr fun other present => decide_eq_true (late other present),
          List.nil_append]

/-- Of the rows from `since` on, the newest `max` rows have `max` or all. -/
theorem length_newest_since (max : ℕ) (since : ℤ) :
    ((newest max rows).filter fun row => since ≤ time row).length =
      min max (rows.filter fun row => since ≤ time row).length := by
  have split := inOrder_split ordered since
  generalize early : rows.filter (fun row => time row < since) = front at split
  generalize late : rows.filter (fun row => since ≤ time row) = back at split
  have sooner : ∀ row ∈ front, decide (since ≤ time row) = false := by
    intro row present
    rw [← early] at present
    simpa using (List.mem_filter.mp present).2
  have later : ∀ row ∈ back, decide (since ≤ time row) = true := by
    intro row present
    rw [← late] at present
    exact (List.mem_filter.mp present).2
  rw [newest, split, List.drop_append, List.filter_append,
    List.filter_eq_nil_iff.mpr fun row present => by
      rw [sooner row (List.mem_of_mem_drop present)]
      exact Bool.false_ne_true,
    List.nil_append, List.filter_eq_self.mpr fun row present =>
      later row (List.mem_of_mem_drop present), List.length_drop, List.length_append]
  omega

theorem byTime_append_same {added : List α} {now : ℤ}
    (same : ∀ row ∈ added, time row = now) :
    byTime time (rows ++ added) = rows.filter (fun row => time row ≤ now) ++
      (added ++ rows.filter fun row => now < time row) := by
  induction rows with
  | nil =>
      rw [List.nil_append, List.filter_nil, List.filter_nil, List.nil_append, List.append_nil]
      refine byTime_of_inOrder (List.pairwise_of_forall_mem_list fun first one second other => ?_)
      rw [same first one, same second other]
  | cons row rows ih =>
      obtain ⟨least, ordered⟩ := List.pairwise_cons.mp ordered
      rw [List.cons_append, byTime, List.insertionSort_cons]
      change List.orderedInsert _ row (byTime time (rows ++ added)) = _
      rw [ih ordered]
      by_cases early : time row ≤ now
      · rw [List.filter_cons_of_pos (by simpa using early),
          List.filter_cons_of_neg (by simpa using early), List.cons_append]
        have ahead : ∀ other ∈ rows.filter (fun row => time row ≤ now) ++
            (added ++ rows.filter fun row => now < time row), time row ≤ time other := by
          intro other present
          simp only [List.mem_append, List.mem_filter] at present
          rcases present with ⟨later, -⟩ | fresh | ⟨later, -⟩
          · exact least other later
          · exact early.trans (same other fresh).ge
          · exact least other later
        exact orderedInsert_ahead ahead
      · have late : ∀ other ∈ rows, now < time other :=
          fun other present => (Int.not_le.mp early).trans_le (least other present)
        rw [List.filter_cons_of_neg (by simpa using early),
          List.filter_cons_of_pos (by simpa using early),
          List.filter_eq_nil_iff.mpr fun other present => by
            have := late other present
            simpa using this, List.filter_eq_self.mpr fun other present =>
              decide_eq_true (late other present), List.nil_append, List.nil_append]
        rw [orderedInsert_behind fun other fresh => (same other fresh).trans_lt
          (Int.not_le.mp early), orderedInsert_ahead least]

end

end

end AshlrHub.Lib
