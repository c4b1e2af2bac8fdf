import AshlrHub.Lib.Run

namespace AshlrHub.Lib

/-! Programs that talk to their surroundings, one request at a time. -/

inductive Dialogue (Request : Type) (Answer : Request → Type) (α : Type) : Type
  | done (value : α)
  | ask (request : Request) (next : Answer request → Dialogue Request Answer α)

namespace Dialogue

variable {Request : Type} {Answer : Request → Type} {α β γ : Type}

def andThen : Dialogue Request Answer α → (α → Dialogue Request Answer β) →
    Dialogue Request Answer β
  | .done value, more => more value
  | .ask request next, more => .ask request fun answer => (next answer).andThen more

def request (asked : Request) : Dialogue Request Answer (Answer asked) := .ask asked .done

instance : Monad (Dialogue Request Answer) where
  pure := .done
  bind := andThen

@[simp] theorem done_andThen (value : α) (more : α → Dialogue Request Answer β) :
    (done value).andThen more = more value := rfl

/-! What a dialogue keeps. -/

variable {World : Type}

abbrev Reaction (World : Type) (Request : Type) (Answer : Request → Type) :=
  World → (request : Request) → Answer request → World → Prop

/-- Every world that the dialogue passes through meets `each`; the one in which it is done
meets `final`. -/
def Keeps (reacts : Reaction World Request Answer) (each : World → Prop)
    (final : α → World → Prop) : Dialogue Request Answer α → World → Prop
  | .done value, world => final value world
  | .ask request next, world => ∀ answer after, reacts world request answer after →
      each after ∧ Keeps reacts each final (next answer) after

section

variable {reacts : Reaction World Request Answer} {each : World → Prop}
  {final other : α → World → Prop} {world : World}

theorem Keeps.imp : (dialogue : Dialogue Request Answer α) → {world : World} →
    (∀ value after, final value after → other value after) →
      Keeps reacts each final dialogue world → Keeps reacts each other dialogue world
  | .done _, _, implies, keeps => implies _ _ keeps
  | .ask _ next, _, implies, keeps => fun answer after reacted =>
      ⟨(keeps answer after reacted).1,
        Keeps.imp (next answer) implies (keeps answer after reacted).2⟩

theorem Keeps.andThen {middle : α → World → Prop} {final : β → World → Prop}
    {more : α → Dialogue Request Answer β} : {dialogue : Dialogue Request Answer α} →
      {world : World} → Keeps reacts each middle dialogue world →
        (∀ value after, middle value after → Keeps reacts each final (more value) after) →
          Keeps reacts each final (dialogue.andThen more) world
  | .done _, _, keeps, rest => rest _ _ keeps
  | .ask _ _, _, keeps, rest => fun answer after reacted =>
      ⟨(keeps answer after reacted).1, (keeps answer after reacted).2.andThen rest⟩

theorem Keeps.ite {condition : Prop} [Decidable condition] {yes no : Dialogue Request Answer α}
    (positive : condition → Keeps reacts each final yes world)
    (negative : ¬ condition → Keeps reacts each final no world) :
    Keeps reacts each final (if condition then yes else no) world := by
  by_cases met : condition
  · rw [if_pos met]
    exact positive met
  · rw [if_neg met]
    exact negative met

end

def Only (allowed : Request → Prop) : Dialogue Request Answer α → Prop
  | .done _ => True
  | .ask request next => allowed request ∧ ∀ answer, Only allowed (next answer)

section

variable {allowed : Request → Prop}

theorem Only.andThen {more : α → Dialogue Request Answer β} :
    {dialogue : Dialogue Request Answer α} → Only allowed dialogue →
      (∀ value, Only allowed (more value)) → Only allowed (dialogue.andThen more)
  | .done _, _, rest => rest _
  | .ask _ _, only, rest => ⟨only.1, fun answer => (only.2 answer).andThen rest⟩

theorem Only.ite {condition : Prop} [Decidable condition] {yes no : Dialogue Request Answer α}
    (positive : Only allowed yes) (negative : Only allowed no) :
    Only allowed (if condition then yes else no) := by
  by_cases met : condition
  · rw [if_pos met]
    exact positive
  · rw [if_neg met]
    exact negative

theorem Only.keeps {reacts : Reaction World Request Answer} {each : World → Prop}
    (keep : ∀ world request answer after, each world → allowed request →
      reacts world request answer after → each after) :
    (dialogue : Dialogue Request Answer α) → {world : World} → Only allowed dialogue →
      each world → Keeps reacts each (fun _ after => each after) dialogue world
  | .done _, _, _, held => held
  | .ask request next, world, only, held => fun answer after reacted =>
      have still := keep world request answer after held only.1 reacted
      ⟨still, keeps keep (next answer) (only.2 answer) still⟩

end

end Dialogue

/-! One party at a time. -/

structure Parley (World Request : Type) (Answer : Request → Type) (α : Type) where
  world : World
  talk : Option (Dialogue Request Answer α)

inductive Parley.Step {World Request : Type} {Answer : Request → Type} {α : Type}
    (reacts : Dialogue.Reaction World Request Answer)
    (opens : World → Dialogue Request Answer α → World → Prop)
    (moves breaks : World → World → Prop) :
    Parley World Request Answer α → Unit → Parley World Request Answer α → Prop
  | opened {world next : World} {dialogue : Dialogue Request Answer α}
      (begun : opens world dialogue next) : Step reacts opens moves breaks ⟨world, none⟩ ()
        ⟨next, some dialogue⟩
  | answered {world after : World} {request : Request}
      {next : Answer request → Dialogue Request Answer α} {answer : Answer request}
      (reacted : reacts world request answer after) :
      Step reacts opens moves breaks ⟨world, some (.ask request next)⟩ ()
        ⟨after, some (next answer)⟩
  | ended {world : World} {value : α} :
      Step reacts opens moves breaks ⟨world, some (.done value)⟩ () ⟨world, none⟩
  | broken {world after : World} {dialogue : Dialogue Request Answer α}
      (broke : breaks world after) :
      Step reacts opens moves breaks ⟨world, some dialogue⟩ () ⟨after, none⟩
  | moved {world after : World} (move : moves world after) :
      Step reacts opens moves breaks ⟨world, none⟩ () ⟨after, none⟩

namespace Parley

variable {World Request : Type} {Answer : Request → Type} {α : Type}
  {reacts : Dialogue.Reaction World Request Answer}
  {opens : World → Dialogue Request Answer α → World → Prop} {moves breaks : World → World → Prop}
  {inv each : World → Prop}

/-- Between dialogues the world meets `inv`; a dialogue under way keeps what it passes through
in `each` and comes back to `inv`. -/
def Holds (reacts : Dialogue.Reaction World Request Answer) (inv each : World → Prop)
    (parley : Parley World Request Answer α) : Prop :=
  match parley.talk with
  | none => inv parley.world
  | some dialogue =>
      each parley.world ∧ dialogue.Keeps reacts each (fun _ after => inv after) parley.world

theorem Holds.step (opened : ∀ world dialogue next, inv world → opens world dialogue next →
      each next ∧ dialogue.Keeps reacts each (fun _ after => inv after) next)
    (moved : ∀ world after, inv world → moves world after → inv after)
    (broke : ∀ world after, each world → breaks world after → inv after)
    {parley next : Parley World Request Answer α} {mark : Unit}
      (holds : parley.Holds reacts inv each)
    (step : Step reacts opens moves breaks parley mark next) : next.Holds reacts inv each := by
  cases step with
  | opened begun => exact opened _ _ _ holds begun
  | answered reacted => exact holds.2 _ _ reacted
  | ended => exact holds.2
  | broken broken => exact broke _ _ holds.1 broken
  | moved move => exact moved _ _ holds move

theorem run_holds (opened : ∀ world dialogue next, inv world → opens world dialogue next →
      each next ∧ dialogue.Keeps reacts each (fun _ after => inv after) next)
    (moved : ∀ world after, inv world → moves world after → inv after)
    (broke : ∀ world after, each world → breaks world after → inv after)
    {parley next : Parley World Request Answer α} {marks : List Unit}
    (run : Run (Step reacts opens moves breaks) parley marks next)
    (holds : parley.Holds reacts inv each) : next.Holds reacts inv each := by
  induction run with
  | nil => exact holds
  | snoc _ taken ih => exact ih.step opened moved broke taken

/-- Surroundings that answer by a function: `count` answers, or as many as are asked for. -/
def play (respond : World → (request : Request) → Answer request × World) :
    Nat → Parley World Request Answer α → Parley World Request Answer α
  | 0, parley => parley
  | count + 1, ⟨world, some (.ask request next)⟩ =>
      play respond count ⟨(respond world request).2, some (next (respond world request).1)⟩
  | _ + 1, ⟨world, some (.done _)⟩ => ⟨world, none⟩
  | _ + 1, ⟨world, none⟩ => ⟨world, none⟩

theorem run_play {respond : World → (request : Request) → Answer request × World}
    (answers : ∀ world request, inv world →
      reacts world request (respond world request).1 (respond world request).2 ∧
        inv (respond world request).2) :
    (count : Nat) → (parley : Parley World Request Answer α) → inv parley.world →
      inv (play respond count parley).world ∧ ∃ marks,
        Run (Step reacts opens moves breaks) parley marks (play respond count parley)
  | 0, _, held => ⟨held, [], .nil⟩
  | _ + 1, ⟨_, none⟩, held => ⟨held, [], .nil⟩
  | _ + 1, ⟨_, some (.done _)⟩, held => ⟨held, _, .single .ended⟩
  | count + 1, ⟨world, some (.ask request next)⟩, held => by
      obtain ⟨reacted, kept⟩ := answers world request held
      obtain ⟨still, marks, run⟩ := run_play answers count
        ⟨(respond world request).2, some (next (respond world request).1)⟩ kept
      exact ⟨still, _, (Run.single (.answered reacted)).append run⟩

end Parley

end AshlrHub.Lib
