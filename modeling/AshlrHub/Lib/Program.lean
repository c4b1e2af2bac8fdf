import Mathlib.Data.List.Forall2

namespace AshlrHub.Lib

/-! Programs that pass through states a crash can leave behind. -/

/-- How a program went: the states behind each of its steps, the last one, and its result,
none where it threw. -/
structure Course (State α : Type) where
  passed : List State
  last : State
  result : Option α

def Program (State α : Type) := State → Course State α

namespace Course

variable {State Other α β : Type}

def done (state : State) (value : α) : Course State α := ⟨[], state, some value⟩

def thrown (state : State) : Course State α := ⟨[], state, none⟩

def after (state : State) (course : Course State α) : Course State α :=
  ⟨state :: course.passed, course.last, course.result⟩

def andThen (course : Course State α) (next : α → Program State β) : Course State β :=
  match course.result with
  | none => ⟨course.passed, course.last, none⟩
  | some value =>
      let rest := next value course.last
      ⟨course.passed ++ rest.passed, rest.last, rest.result⟩

def orElse (course : Course State α) (fallback : α) : Course State α :=
  ⟨course.passed, course.last, some (course.result.getD fallback)⟩

variable {value : α} {next : α → Program State β}

variable {state : State}

@[simp] theorem done_andThen : (done state value).andThen next = next value state := rfl

@[simp] theorem thrown_andThen : (thrown state).andThen next = thrown state := rfl

@[simp] theorem after_andThen {course : Course State α} :
    (course.after state).andThen next = (course.andThen next).after state := by
  obtain ⟨passed, last, result⟩ := course
  cases result <;> rfl

theorem andThen_andThen {γ : Type} {course : Course State α} {more : β → Program State γ} :
    (course.andThen next).andThen more =
      course.andThen fun value state => (next value state).andThen more := by
  obtain ⟨passed, last, result⟩ := course
  cases result with
  | none => rfl
  | some value =>
      simp only [andThen]
      cases (next value last).result <;> simp

variable {fallback : α}

@[simp] theorem done_orElse : (done state value).orElse fallback = done state value := rfl

@[simp] theorem thrown_orElse : (thrown state).orElse fallback = done state fallback := rfl

@[simp] theorem after_orElse {course : Course State α} :
    (course.after state).orElse fallback = (course.orElse fallback).after state := rfl

def Leaves (start : State) (course : Course State α) (state : State) : Prop :=
  state = start ∨ state ∈ course.passed

inductive Ends (start : State) (course : Course State α) : Option α → State → Prop
  | answered {value : α} (result : course.result = some value) :
      Ends start course (some value) course.last
  | crashed {state : State} (left : course.Leaves start state) : Ends start course none state

theorem exists_related {related : State → Other → Prop} {states : List State}
    {others : List Other} (each : List.Forall₂ related states others)
    (member : state ∈ states) : ∃ other ∈ others, related state other := by
  induction each with
  | nil => cases member
  | cons first _ ih =>
      rcases List.mem_cons.mp member with rfl | member
      · exact ⟨_, List.mem_cons_self, first⟩
      · obtain ⟨other, inside, same⟩ := ih member
        exact ⟨other, List.mem_cons_of_mem _ inside, same⟩

structure Follows (related : State → Other → Prop) (course : Course State α)
    (other : Course Other α) : Prop where
  passed : List.Forall₂ related course.passed other.passed
  last : related course.last other.last
  result : course.result = other.result

namespace Follows

variable {related : State → Other → Prop} {state : State} {shape : Other}
  {course : Course State α} {other : Course Other α}

theorem done (last : related state shape) :
    Follows related (.done state value) (.done shape value) :=
  ⟨.nil, last, rfl⟩

theorem after (first : related state shape) (rest : Follows related course other) :
    Follows related (course.after state) (other.after shape) :=
  ⟨.cons first rest.passed, rest.last, rest.result⟩

theorem orElse (follows : Follows related course other) (some : other.result.isSome = true) :
    Follows related (course.orElse fallback) other where
  passed := follows.passed
  last := follows.last
  result := by
    obtain ⟨value, found⟩ := Option.isSome_iff_exists.mp some
    rw [Course.orElse, follows.result, found, Option.getD_some]

theorem andThen_orElse {more : α → Program Other β} {fallback : β}
    (first : Follows related course other) (some : other.result.isSome = true)
    (rest : ∀ value, other.result = Option.some value → related course.last other.last →
      Follows related ((next value course.last).orElse fallback) (more value other.last)) :
    Follows related ((course.andThen next).orElse fallback) (other.andThen more) := by
  obtain ⟨passed, last, result⟩ := course
  obtain ⟨otherPassed, otherLast, otherResult⟩ := other
  obtain rfl : result = otherResult := first.result
  cases result with
  | none => cases some
  | some value =>
      have behind := rest value rfl first.last
      exact ⟨List.rel_append first.passed behind.passed, behind.last, behind.result⟩

variable {start : State}

section

variable (follows : Follows related course other) (first : related start shape)
include follows first

theorem leaves (left : course.Leaves start state) :
    ∃ reached, related state reached ∧ other.Leaves shape reached := by
  rcases left with rfl | member
  · exact ⟨shape, first, .inl rfl⟩
  · obtain ⟨reached, inside, same⟩ := exists_related follows.passed member
    exact ⟨reached, same, .inr inside⟩

theorem ends {next : State}
    {answer : Option α} (ends : course.Ends start answer next) :
    ∃ reached, related next reached ∧ other.Ends shape answer reached := by
  cases ends with
  | answered result => exact ⟨_, follows.last, .answered (follows.result.symm.trans result)⟩
  | crashed left =>
      obtain ⟨reached, same, left⟩ := follows.leaves first left
      exact ⟨reached, same, .crashed left⟩

end

end Follows

/-- The states of the course meet `each`; where it does not throw, the last one meets
`final` with the result. -/
structure Ensures (each : State → Prop) (final : α → State → Prop) (course : Course State α) :
    Prop where
  passed : ∀ state ∈ course.passed, each state
  last : each course.last
  result : ∀ value, course.result = some value → final value course.last

namespace Ensures

variable {each : State → Prop} {final : α → State → Prop} {state : State} {course : Course State α}

theorem done (meets : each state) (ended : final value state) :
    Ensures each final (.done state value) where
  passed _ member := by cases member
  last := meets
  result _ same := by cases same; exact ended

theorem thrown (meets : each state) : Ensures each final (.thrown state) where
  passed _ member := by cases member
  last := meets
  result _ same := by cases same

theorem after (meets : each state) (rest : Ensures each final course) :
    Ensures each final (course.after state) where
  passed other member := by
    rcases List.mem_cons.mp member with rfl | member
    · exact meets
    · exact rest.passed other member
  last := rest.last
  result := rest.result

theorem andThen {middle : α → State → Prop} {final : β → State → Prop}
    (first : Ensures each middle course)
    (rest : ∀ value state, each state → middle value state →
      Ensures each final (next value state)) :
    Ensures each final (course.andThen next) := by
  obtain ⟨passed, last, result⟩ := course
  cases result with
  | none => exact ⟨first.passed, first.last, fun _ same => by cases same⟩
  | some value =>
      have behind := rest value last first.last (first.result value rfl)
      refine ⟨?_, behind.last, behind.result⟩
      intro state member
      rcases List.mem_append.mp member with member | member
      · exact first.passed state member
      · exact behind.passed state member

theorem orElse (ensures : Ensures each final course)
    (fell : ∀ state, each state → final fallback state) :
    Ensures each final (course.orElse fallback) where
  passed := ensures.passed
  last := ensures.last
  result value same := by
    obtain ⟨passed, last, result⟩ := course
    cases result with
    | none =>
        obtain rfl : fallback = value := Option.some.inj same
        exact fell last ensures.last
    | some found =>
        obtain rfl : found = value := Option.some.inj same
        exact ensures.result found rfl

theorem ite {condition : Prop} [Decidable condition] {yes no : Program State α}
    (positive : condition → Ensures each final (yes state))
    (negative : ¬ condition → Ensures each final (no state)) :
    Ensures each final ((if condition then yes else no) state) := by
  split_ifs with met
  · exact positive met
  · exact negative met

theorem imp {weaker : State → Prop} {other : α → State → Prop}
    (ensures : Ensures each final course) (meets : ∀ state, each state → weaker state)
    (ended : ∀ value state, each state → final value state → other value state) :
    Ensures weaker other course where
  passed state member := meets state (ensures.passed state member)
  last := meets _ ensures.last
  result value same := ended value _ ensures.last (ensures.result value same)

theorem ends (ensures : Ensures each final course) {next : State} {answer : Option α}
    (first : each start) (ends : course.Ends start answer next) :
    each next ∧ ∀ value, answer = some value → final value next := by
  cases ends with
  | answered result =>
      refine ⟨ensures.last, fun value same => ?_⟩
      exact ensures.result value (result.trans same)
  | crashed left =>
      refine ⟨?_, fun value same => by cases same⟩
      rcases left with rfl | member
      · exact first
      · exact ensures.passed _ member

end Ensures

end Course

namespace Program

variable {State α β : Type}

def throw : Program State α := .thrown

def step (change : State → State) : Program State Unit := fun state =>
  (Course.done (change state) ()).after (change state)

def look (value : State → α) : Program State α := fun state => .done state (value state)

/-- `try { … } catch { return fallback }` -/
def attempt (program : Program State α) (fallback : α) : Program State α := fun state =>
  (program state).orElse fallback

instance : Monad (Program State) where
  pure value := fun state => .done state value
  bind program next := fun state => (program state).andThen next

section

variable {state : State}

@[simp] theorem pure_apply : (pure value : Program State α) state = .done state value := rfl

variable {program : Program State α}

@[simp] theorem bind_apply : (program >>= next) state = (program state).andThen next := rfl

@[simp] theorem map_apply {change : α → β} :
    (change <$> program) state = (program state).andThen fun value => pure (change value) := rfl

@[simp] theorem throw_apply : (throw : Program State α) state = .thrown state := rfl

@[simp] theorem step_apply {change : State → State} :
    step change state = (Course.done (change state) ()).after (change state) := rfl

@[simp] theorem look_apply {value : State → α} : look value state = .done state (value state) := rfl

@[simp] theorem attempt_apply :
    attempt program fallback state = (program state).orElse fallback := rfl

end

instance : LawfulMonad (Program State) :=
  LawfulMonad.mk' (Program State)
    (fun program => by
      funext state
      change (program state).andThen pure = program state
      obtain ⟨passed, last, result⟩ := program state
      cases result with
      | none => rfl
      | some value => simp [Course.andThen, Course.done])
    (fun _ _ => rfl)
    (fun _ _ _ => funext fun _ => Course.andThen_andThen)

end Program

end AshlrHub.Lib
