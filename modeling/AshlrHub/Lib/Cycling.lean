import Mathlib.Data.Int.CardIntervalMod

namespace AshlrHub.Lib

/-! Walking around a list: consecutive members, from the first one again after the last. -/

variable {α : Type}

def around (items : List α) (start length : ℕ) : List α :=
  (List.range length).filterMap fun step => items[(start + step) % items.length]?

section Walks

variable {items : List α} {start length more : ℕ}

theorem around_mod (items : List α) (start length : ℕ) :
    around items (start % items.length) length = around items start length := by
  unfold around
  congr 1
  funext step
  rw [Nat.mod_add_mod]

theorem around_add (items : List α) (start length more : ℕ) :
    around items start (length + more) =
      around items start length ++ around items (start + length) more := by
  unfold around
  rw [List.range_add, List.filterMap_append, List.filterMap_map]
  congr 2
  funext step
  rw [Function.comp_apply, Nat.add_assoc]

theorem length_around (nonempty : items ≠ []) : (around items start length).length = length := by
  induction length with
  | zero => rfl
  | succ length ih =>
      have inside : (start + length) % items.length < items.length :=
        Nat.mod_lt _ (List.length_pos_of_ne_nil nonempty)
      rw [around_add, List.length_append, ih]
      simp [around, inside]

theorem flatMap_around (items : List α) (start length : ℕ) : (rounds : ℕ) →
    (List.range rounds).flatMap (fun round => around items (start + round * length) length) =
      around items start (rounds * length)
  | 0 => by simp [around]
  | rounds + 1 => by
      rw [List.range_succ, List.flatMap_append, flatMap_around items start length rounds,
        List.flatMap_singleton, Nat.succ_mul, around_add]

variable [DecidableEq α]

theorem count_around (once : items.Nodup) {item : α} {position : ℕ}
    (found : items[position]? = some item) :
    (around items start length).count item =
      length.count (· ≡ position + (items.length - start % items.length) [MOD items.length]) := by
  have inside : position < items.length := (List.getElem?_eq_some_iff.mp found).1
  have start_lt := Nat.mod_lt start (Nat.zero_lt_of_lt inside)
  have met : ∀ step, items[(start + step) % items.length]? = some item ↔
      step ≡ position + (items.length - start % items.length) [MOD items.length] := by
    intro step
    have same : items[(start + step) % items.length]? = some item ↔
        (start + step) % items.length = position := by
      constructor
      · intro other
        exact (List.Nodup.getElem_inj_iff once).mp
          ((List.getElem?_eq_some_iff.mp other).2.trans (List.getElem?_eq_some_iff.mp found).2.symm)
      · intro equal
        rw [equal, found]
    rw [same, ← Nat.ModEq.add_iff_left (Nat.ModEq.refl (start % items.length))]
    constructor
    · intro equal
      rw [Nat.ModEq, Nat.mod_add_mod, equal,
        show start % items.length + (position + (items.length - start % items.length)) =
          position + items.length by omega, Nat.add_mod_right, Nat.mod_eq_of_lt inside]
    · intro equal
      rw [Nat.ModEq, Nat.mod_add_mod,
        show start % items.length + (position + (items.length - start % items.length)) =
          position + items.length by omega, Nat.add_mod_right, Nat.mod_eq_of_lt inside] at equal
      exact equal
  induction length with
  | zero => simp [around]
  | succ length ih =>
      rw [around_add, List.count_append, ih, Nat.count_succ]
      congr 1
      by_cases here : length ≡ position + (items.length - start % items.length) [MOD items.length]
      · rw [if_pos here]
        simp [around, (met length).mpr here]
      · rw [if_neg here]
        cases other : items[(start + length) % items.length]? with
        | none => simp [around, other]
        | some reached =>
            have differ : reached ≠ item := fun equal => here ((met length).mp (equal ▸ other))
            simp [around, other, differ]

theorem count_around_bounds (once : items.Nodup) {item : α} (member : item ∈ items) :
    length / items.length ≤ (around items start length).count item ∧
      (around items start length).count item ≤ length / items.length + 1 := by
  obtain ⟨position, found⟩ := List.mem_iff_getElem?.mp member
  have inside : position < items.length := (List.getElem?_eq_some_iff.mp found).1
  rw [count_around once found, Nat.count_modEq_card length (Nat.zero_lt_of_lt inside)]
  split_ifs <;> omega

theorem nodup_around (once : items.Nodup) (short : length ≤ items.length) :
    (around items start length).Nodup := by
  rw [List.nodup_iff_count_le_one]
  intro item
  by_cases met : item ∈ around items start length
  · obtain ⟨step, _, found⟩ := List.mem_filterMap.mp met
    have inside := (List.getElem?_eq_some_iff.mp found).1
    rw [count_around once found, Nat.count_modEq_card length (Nat.zero_lt_of_lt inside)]
    rcases Nat.lt_or_eq_of_le short with less | equal
    · rw [Nat.div_eq_of_lt less]
      split_ifs <;> omega
    · rw [equal, Nat.div_self (Nat.zero_lt_of_lt inside), Nat.mod_self, if_neg (Nat.not_lt_zero _)]
  · rw [List.count_eq_zero_of_not_mem met]
    exact Nat.zero_le 1

theorem mem_around (once : items.Nodup) (long : items.length ≤ length) {item : α}
    (member : item ∈ items) : item ∈ around items start length := by
  have positive := List.length_pos_of_mem member
  have bound := (@count_around_bounds _ items start length _ once item member).1
  exact List.count_pos_iff.mp ((Nat.div_pos long positive).trans_le bound)

end Walks

end AshlrHub.Lib
