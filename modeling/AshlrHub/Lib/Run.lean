import Mathlib.Data.List.Basic

namespace AshlrHub.Lib

/-! Runs of a labelled transition system. -/

theorem snoc_split {α : Type} {trace front back : List α} {last entry : α}
    (same : trace ++ [last] = front ++ entry :: back) :
    (front = trace ∧ entry = last ∧ back = []) ∨
      ∃ rest, back = rest ++ [last] ∧ trace = front ++ entry :: rest := by
  rcases List.eq_nil_or_concat back with rfl | ⟨rest, tail, rfl⟩
  · obtain ⟨rfl, tail⟩ := List.append_inj' same rfl
    exact .inl ⟨rfl, (List.singleton_inj.mp tail).symm, rfl⟩
  · rw [List.concat_eq_append, ← List.cons_append, ← List.append_assoc] at same
    obtain ⟨earlier, tail⟩ := List.append_inj' same rfl
    obtain rfl := List.singleton_inj.mp tail
    exact .inr ⟨rest, List.concat_eq_append, earlier⟩

variable {State Label : Type} {step : State → Label → State → Prop}

/-- The runs from `start`: the labels in order, and the state reached. -/
inductive Run (step : State → Label → State → Prop) (start : State) :
    List Label → State → Prop
  | nil : Run step start [] start
  | snoc {labels : List Label} {state next : State} {label : Label}
      (run : Run step start labels state) (taken : step state label next) :
      Run step start (labels ++ [label]) next

namespace Run

variable {start state : State} {labels : List Label}

theorem single {label : Label} {next : State} (taken : step start label next) :
    Run step start [label] next :=
  snoc nil taken

theorem append {more : List Label} {last : State} (first : Run step start labels state)
    (second : Run step state more last) : Run step start (labels ++ more) last := by
  induction second with
  | nil => rwa [List.append_nil]
  | snoc _ taken ih =>
      rw [← List.append_assoc]
      exact snoc ih taken

theorem mono {other : State → Label → State → Prop}
    (steps : ∀ {state label next}, step state label next → other state label next)
    (run : Run step start labels state) : Run other start labels state := by
  induction run with
  | nil => exact nil
  | snoc _ taken ih => exact ih.snoc (steps taken)

theorem invariant {inv : State → Prop}
    (keep : ∀ {state label next}, inv state → step state label next → inv next)
    (run : Run step start labels state) (initial : inv start) : inv state := by
  induction run with
  | nil => exact initial
  | snoc _ taken ih => exact keep ih taken

theorem climbs {inv : State → Prop} {below : State → State → Prop} [IsPreorder State below]
    (keep : ∀ {state label next}, inv state → step state label next → inv next)
    (climb : ∀ {state label next}, inv state → step state label next → below state next)
    (run : Run step start labels state) (initial : inv start) : below start state := by
  induction run with
  | nil => exact refl start
  | snoc before taken ih =>
      exact IsTrans.trans _ _ _ ih (climb (before.invariant keep initial) taken)

end Run

end AshlrHub.Lib
