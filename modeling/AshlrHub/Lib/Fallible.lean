import Mathlib.Data.Option.Basic
import Mathlib.Data.List.Forall2

namespace AshlrHub.Lib

/-! Fallible steps: what a result says of the steps before it. -/

variable {ε α β : Type}

variable {first : Except ε α}

variable {result : β}

theorem bind_eq_ok {next : α → Except ε β} :
    (first >>= next) = .ok result ↔ ∃ value, first = .ok value ∧ next value = .ok result := by
  cases first with
  | error refusal =>
      constructor
      · intro answered
        cases answered
      · rintro ⟨value, answered, _⟩
        cases answered
  | ok value =>
      constructor
      · intro answered
        exact ⟨value, rfl, answered⟩
      · rintro ⟨_, answered, rest⟩
        cases answered
        exact rest

theorem map_eq_ok {next : α → β} :
    first.map next = .ok result ↔ ∃ value, first = .ok value ∧ next value = result := by
  cases first with
  | error refusal =>
      constructor
      · intro answered
        cases answered
      · rintro ⟨value, answered, _⟩
        cases answered
  | ok value =>
      constructor
      · intro answered
        exact ⟨value, rfl, Except.ok.inj answered⟩
      · rintro ⟨_, answered, rest⟩
        cases answered
        exact congrArg Except.ok rest

variable {refused : Prop}

theorem refuse_eq_ok [Decidable refused] {refusal : ε} {next : PUnit → Except ε β} :
    (if refused then (do let mark ← throw refusal; next mark) else next ⟨⟩) = .ok result ↔
      ¬ refused ∧ next ⟨⟩ = .ok result := by
  by_cases met : refused
  · rw [if_pos met]
    constructor
    · intro answered
      cases answered
    · intro both
      exact absurd met both.1
  · rw [if_neg met]
    exact (and_iff_right met).symm

variable {value : α}

theorem mapError_eq_ok {φ : Type} {rename : ε → φ} :
    first.mapError rename = .ok value ↔ first = .ok value := by
  cases first <;> simp [Except.mapError]

theorem bind_eq_error {next : α → Except ε β} {refusal : ε} :
    (first >>= next) = .error refusal ↔
      first = .error refusal ∨ ∃ value, first = .ok value ∧ next value = .error refusal := by
  cases first with
  | error other =>
      constructor
      · intro refused
        cases refused
        exact .inl rfl
      · rintro (same | ⟨value, answered, _⟩)
        · cases same
          rfl
        · cases answered
  | ok value =>
      constructor
      · intro refused
        exact .inr ⟨value, rfl, refused⟩
      · rintro (other | ⟨_, answered, refused⟩)
        · cases other
        · cases answered
          exact refused

theorem refuse_eq_error [Decidable refused] {refusal other : ε} {next : PUnit → Except ε β} :
    (if refused then (do let mark ← throw refusal; next mark) else next ⟨⟩) = .error other ↔
      (refused ∧ refusal = other) ∨ (¬ refused ∧ next ⟨⟩ = .error other) := by
  by_cases met : refused
  · rw [if_pos met]
    constructor
    · intro answered
      cases answered
      exact .inl ⟨met, rfl⟩
    · rintro (⟨_, rfl⟩ | ⟨unmet, _⟩)
      · rfl
      · exact absurd met unmet
  · rw [if_neg met]
    constructor
    · exact fun answered => .inr ⟨met, answered⟩
    · rintro (⟨holds, _⟩ | ⟨_, answered⟩)
      · exact absurd holds met
      · exact answered

theorem pure_eq_ok {result : α} :
    (pure value : Except ε α) = .ok result ↔ value = result :=
  ⟨Except.ok.inj, congrArg Except.ok⟩

theorem mem_of_mapM_eq_ok {step : α → Except ε β} :
    {items : List α} → {results : List β} → items.mapM step = .ok results → result ∈ results →
    ∃ item ∈ items, step item = .ok result
  | [], results, mapped, member => by
      cases mapped
      cases member
  | item :: items, results, mapped, member => by
      rw [List.mapM_cons] at mapped
      obtain ⟨first, stepped, mapped⟩ := bind_eq_ok.mp mapped
      obtain ⟨others, rest, mapped⟩ := bind_eq_ok.mp mapped
      rw [← pure_eq_ok.mp mapped] at member
      rcases List.mem_cons.mp member with rfl | later
      · exact ⟨item, List.mem_cons_self, stepped⟩
      · obtain ⟨source, held, stepped⟩ := mem_of_mapM_eq_ok rest later
        exact ⟨source, List.mem_cons_of_mem _ held, stepped⟩

theorem forM_eq_ok {step : α → Except ε Unit} : {items : List α} →
    (items.forM step = .ok () ↔ ∀ item ∈ items, step item = .ok ())
  | [] => iff_of_true rfl (List.forall_mem_nil _)
  | item :: items => by
      rw [List.forM, bind_eq_ok, List.forall_mem_cons]
      constructor
      · rintro ⟨_, stepped, rest⟩
        exact ⟨stepped, forM_eq_ok.mp rest⟩
      · rintro ⟨stepped, rest⟩
        exact ⟨(), stepped, forM_eq_ok.mpr rest⟩

theorem foldlM_invariant {σ : Type} {step : σ → α → Except ε σ} {holds : σ → Prop}
    (keeps : ∀ state item next, holds state → step state item = .ok next → holds next) :
    {items : List α} → {state last : σ} → holds state → items.foldlM step state = .ok last →
      holds last
  | [], _, _, held, folded => by
      cases pure_eq_ok.mp folded
      exact held
  | item :: items, state, last, held, folded => by
      rw [List.foldlM_cons] at folded
      obtain ⟨next, stepped, rest⟩ := bind_eq_ok.mp folded
      exact foldlM_invariant keeps (keeps state item next held stepped) rest

theorem guard_eq_some {passed : Prop} [Decidable passed] {mark : Unit} :
    (guard passed : Option Unit) = some mark ↔ passed := by
  by_cases met : passed
  · rw [guard, if_pos met]
    exact iff_of_true rfl met
  · rw [guard, if_neg met]
    constructor
    · intro answered
      cases answered
    · exact fun holds => absurd holds met

/-! What a fallible call answers, and for which reasons alone it refuses. -/

/-- The answer meets `post`, or the refusal is one that `refusal` allows. -/
inductive Outcome (refusal : ε → Prop) (post : α → Prop) : Except ε α → Prop
  | ok {value : α} (met : post value) : Outcome refusal post (.ok value)
  | error {error : ε} (allowed : refusal error) : Outcome refusal post (.error error)

namespace Outcome

variable {refusal : ε → Prop} {post other : α → Prop} {result : Except ε α}

theorem ok_iff : Outcome refusal post (.ok value) ↔ post value := by
  constructor
  · intro outcome
    cases outcome with
    | ok met => exact met
  · exact .ok

theorem error_iff {error : ε} :
    Outcome refusal post (.error error : Except ε α) ↔ refusal error := by
  constructor
  · intro outcome
    cases outcome with
    | error allowed => exact allowed
  · exact .error

theorem of_forall (refusals : ∀ error, refusal error) (values : ∀ value, post value) :
    Outcome refusal post result := by
  cases result with
  | ok value => exact .ok (values value)
  | error error => exact .error (refusals error)

theorem imp (outcome : Outcome refusal post result) (weaken : ∀ value, post value → other value) :
    Outcome refusal other result := by
  cases outcome with
  | ok met => exact .ok (weaken _ met)
  | error allowed => exact .error allowed

theorem bind {first : Except ε β} {middle : β → Prop} {next : β → Except ε α}
    (outcome : Outcome refusal middle first)
    (continued : ∀ value, middle value → Outcome refusal post (next value)) :
    Outcome refusal post (first >>= next) := by
  cases outcome with
  | ok met => exact continued _ met
  | error allowed => exact .error allowed

theorem check [Decidable refused] {error : ε} {next : PUnit → Except ε α}
    (allowed : refused → refusal error) (continued : ¬ refused → Outcome refusal post (next ⟨⟩)) :
    Outcome refusal post (if refused then (do let mark ← throw error; next mark) else next ⟨⟩) := by
  by_cases met : refused
  · rw [if_pos met]
    exact .error (allowed met)
  · rw [if_neg met]
    exact continued met

theorem mapM {γ : Type} {step : γ → Except ε β} {related : γ → β → Prop} :
    {inputs : List γ} → (∀ input ∈ inputs, Outcome refusal (related input) (step input)) →
    Outcome refusal (List.Forall₂ related inputs) (inputs.mapM step)
  | [], _ => .ok .nil
  | input :: inputs, each => by
      rw [List.mapM_cons]
      refine (each input List.mem_cons_self).bind fun first met => ?_
      refine (mapM fun later member => each later (List.mem_cons_of_mem input member)).bind
        fun rest all => ?_
      exact .ok (.cons met all)

end Outcome

end AshlrHub.Lib
