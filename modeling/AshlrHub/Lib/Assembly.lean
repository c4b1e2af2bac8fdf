import AshlrHub.Lib.Dialogue
import Mathlib.Logic.Relation

namespace AshlrHub.Lib

/-! Many parties at once, request by request, and what each may rely on. -/

namespace Dialogue

variable {World Request : Type} {Answer : Request → Type} {α β : Type}

/-- A step that `rely` allows, to a world that meets `inv`. -/
def Disturbs (rely : World → World → Prop) (inv : World → Prop) (world after : World) : Prop :=
  rely world after ∧ inv after

/-- Before each answer others may do what `rely` allows; the answer then does what `guar` allows
and keeps `inv`. Where the dialogue is done `final` is met. -/
def Proper (reacts : Reaction World Request Answer) (rely guar : World → World → Prop)
    (inv : World → Prop) (final : α → World → Prop) :
    Dialogue Request Answer α → World → Prop
  | .done value, world => final value world
  | .ask request next, world => ∀ before answer after,
      Relation.ReflTransGen (Disturbs rely inv) world before → inv before →
        reacts before request answer after →
          inv after ∧ guar before after ∧ Proper reacts rely guar inv final (next answer) after

section

variable {reacts : Reaction World Request Answer} {rely guar : World → World → Prop}
  {inv : World → Prop} {final : α → World → Prop} {world : World}

theorem Proper.disturbed
    (stable : ∀ {value world after}, final value world → Disturbs rely inv world after →
      final value after) : {dialogue : Dialogue Request Answer α} → {world after : World} →
      Proper reacts rely guar inv final dialogue world → Disturbs rely inv world after →
        Proper reacts rely guar inv final dialogue after
  | .done _, _, _, proper, disturbed => stable proper disturbed
  | .ask _ _, _, _, proper, disturbed => fun before answer last between met reacted =>
      proper before answer last (.head disturbed between) met reacted

theorem Proper.andThen {middle : β → World → Prop} {more : β → Dialogue Request Answer α} :
    {dialogue : Dialogue Request Answer β} → {world : World} →
      Proper reacts rely guar inv middle dialogue world →
        (∀ value after, middle value after → Proper reacts rely guar inv final (more value) after) →
          Proper reacts rely guar inv final (dialogue.andThen more) world
  | .done _, _, proper, rest => rest _ _ proper
  | .ask _ _, _, proper, rest => fun before answer after between met reacted =>
      have kept := proper before answer after between met reacted
      ⟨kept.1, kept.2.1, kept.2.2.andThen rest⟩

theorem Disturbs.keeps (fact : World → Prop)
    (stable : ∀ {world after}, fact world → Disturbs rely inv world after → fact after)
    {before : World} (between : Relation.ReflTransGen (Disturbs rely inv) world before)
    (held : fact world) : fact before := by
  induction between with
  | refl => exact held
  | tail _ disturbed ih => exact stable ih disturbed

theorem Proper.frame {fact : World → Prop}
    (stable : ∀ {world after}, fact world → Disturbs rely inv world after → fact after)
    (kept : ∀ {world request answer after}, fact world → reacts world request answer after →
      fact after) : {dialogue : Dialogue Request Answer α} → {world : World} →
      Proper reacts rely guar inv final dialogue world → fact world →
        Proper reacts rely guar inv (fun value after => final value after ∧ fact after) dialogue
          world
  | .done _, _, proper, held => ⟨proper, held⟩
  | .ask _ _, _, proper, held => by
      intro before answer after between met reacted
      obtain ⟨keeps, allowed, rest⟩ := proper before answer after between met reacted
      have lasted : fact before := Disturbs.keeps fact stable between held
      exact ⟨keeps, allowed, rest.frame stable kept (kept lasted reacted)⟩

theorem Proper.ite {condition : Prop} [Decidable condition] {yes no : Dialogue Request Answer α}
    (positive : condition → Proper reacts rely guar inv final yes world)
    (negative : ¬ condition → Proper reacts rely guar inv final no world) :
    Proper reacts rely guar inv final (if condition then yes else no) world := by
  by_cases met : condition
  · rw [if_pos met]
    exact positive met
  · rw [if_neg met]
    exact negative met

end

inductive Leads (reacts : Reaction World Request Answer) :
    Dialogue Request Answer α → World → Dialogue Request Answer α → World → Prop
  | refl (dialogue : Dialogue Request Answer α) (world : World) :
      Leads reacts dialogue world dialogue world
  | answer {request : Request} {next : Answer request → Dialogue Request Answer α}
      {world after last : World} {answer : Answer request} {rest : Dialogue Request Answer α}
      (reacted : reacts world request answer after)
      (leads : Leads reacts (next answer) after rest last) :
      Leads reacts (.ask request next) world rest last

def follow (respond : World → (request : Request) → Answer request × World) :
    ℕ → Dialogue Request Answer α → World → Dialogue Request Answer α × World
  | 0, dialogue, world => (dialogue, world)
  | _ + 1, .done value, world => (.done value, world)
  | count + 1, .ask request next, world =>
      follow respond count (next (respond world request).1) (respond world request).2

theorem leads_follow {reacts : Reaction World Request Answer}
    {respond : World → (request : Request) → Answer request × World}
    (answers : ∀ world request,
      reacts world request (respond world request).1 (respond world request).2) :
    (count : ℕ) → (dialogue : Dialogue Request Answer α) → (world : World) →
      Leads reacts dialogue world (follow respond count dialogue world).1
        (follow respond count dialogue world).2
  | 0, dialogue, world => .refl dialogue world
  | _ + 1, .done value, world => .refl (.done value) world
  | count + 1, .ask _ _, _ => .answer (answers _ _) (leads_follow answers count _ _)

def Vetted (allowed : World → Request → Prop)
    (respond : World → (request : Request) → Answer request × World) :
    ℕ → Dialogue Request Answer α → World → Prop
  | 0, _, _ => True
  | _ + 1, .done _, _ => True
  | count + 1, .ask request next, world => allowed world request ∧
      Vetted allowed respond count (next (respond world request).1) (respond world request).2

instance decidableVetted {allowed : World → Request → Prop}
    [∀ world request, Decidable (allowed world request)]
    {respond : World → (request : Request) → Answer request × World} :
    (count : ℕ) → (dialogue : Dialogue Request Answer α) → (world : World) →
      Decidable (Vetted allowed respond count dialogue world)
  | 0, _, _ => isTrue trivial
  | _ + 1, .done _, _ => isTrue trivial
  | count + 1, .ask _ _, _ => @instDecidableAnd _ _ _ (decidableVetted count _ _)

theorem leads_vetted {reacts : Reaction World Request Answer} {allowed : World → Request → Prop}
    {respond : World → (request : Request) → Answer request × World}
    (answers : ∀ world request, allowed world request →
      reacts world request (respond world request).1 (respond world request).2) :
    (count : ℕ) → (dialogue : Dialogue Request Answer α) → (world : World) →
      Vetted allowed respond count dialogue world →
        Leads reacts dialogue world (follow respond count dialogue world).1
          (follow respond count dialogue world).2
  | 0, dialogue, world, _ => .refl dialogue world
  | _ + 1, .done value, world, _ => .refl (.done value) world
  | count + 1, .ask _ _, _, vetted =>
      .answer (answers _ _ vetted.1) (leads_vetted answers count _ _ vetted.2)

end Dialogue

structure Assembly (Party World Request : Type) (Answer : Request → Type) (α : Type) where
  world : World
  talks : Party → Option (Dialogue Request Answer α)

namespace Assembly

variable {Party World Request : Type} {Answer : Request → Type} {α : Type}

inductive Step [DecidableEq Party] (reacts : Party → Dialogue.Reaction World Request Answer)
    (opens : Party → World → Dialogue Request Answer α → World → Prop) :
    Assembly Party World Request Answer α → Party → Assembly Party World Request Answer α → Prop
  | opened {party : Party} {world next : World}
      {talks : Party → Option (Dialogue Request Answer α)} {dialogue : Dialogue Request Answer α}
      (idle : talks party = none) (begun : opens party world dialogue next) :
      Step reacts opens ⟨world, talks⟩ party ⟨next, Function.update talks party (some dialogue)⟩
  | answered {party : Party} {world after : World}
      {talks : Party → Option (Dialogue Request Answer α)} {request : Request}
      {next : Answer request → Dialogue Request Answer α} {answer : Answer request}
      (busy : talks party = some (.ask request next))
      (reacted : reacts party world request answer after) :
      Step reacts opens ⟨world, talks⟩ party
        ⟨after, Function.update talks party (some (next answer))⟩
  | ended {party : Party} {world : World} {talks : Party → Option (Dialogue Request Answer α)}
      {value : α} (busy : talks party = some (.done value)) :
      Step reacts opens ⟨world, talks⟩ party ⟨world, Function.update talks party none⟩

variable {reacts : Party → Dialogue.Reaction World Request Answer}
  {opens : Party → World → Dialogue Request Answer α → World → Prop}

variable {party : Party}

theorem run_leads [DecidableEq Party] {world last : World}
    {dialogue rest : Dialogue Request Answer α}
    (leads : Dialogue.Leads (reacts party) dialogue world rest last) :
    {talks : Party → Option (Dialogue Request Answer α)} → talks party = some dialogue →
      ∃ marks, Run (Step reacts opens) ⟨world, talks⟩ marks
        ⟨last, Function.update talks party (some rest)⟩ := by
  induction leads with
  | refl dialogue world =>
      intro talks busy
      refine ⟨[], ?_⟩
      rw [← busy, Function.update_eq_self]
      exact .nil
  | answer reacted _ ih =>
      intro talks busy
      obtain ⟨marks, run⟩ := ih (Function.update_self party (some _) talks)
      rw [Function.update_idem] at run
      exact ⟨_, (Run.single (.answered busy reacted)).append run⟩

section

variable (guar : Party → World → World → Prop)

def Rely (party : Party) (world after : World) : Prop :=
  ∃ other, other ≠ party ∧ guar other world after

structure Rules (reacts : Party → Dialogue.Reaction World Request Answer)
    (opens : Party → World → Dialogue Request Answer α → World → Prop)
    (inv : World → Prop) (idle : Party → World → Prop) : Prop where
  opened : ∀ {party world dialogue next}, inv world → idle party world →
    opens party world dialogue next → inv next ∧ guar party world next ∧
      dialogue.Proper (reacts party) (Rely guar party) (guar party) inv (fun _ => idle party) next
  stable : ∀ {party world after}, idle party world →
    Dialogue.Disturbs (Rely guar party) inv world after → idle party after

def Stands (reacts : Party → Dialogue.Reaction World Request Answer) (inv : World → Prop)
    (idle : Party → World → Prop) (party : Party) (world : World) :
    Option (Dialogue Request Answer α) → Prop
  | none => idle party world
  | some dialogue => dialogue.Proper (reacts party) (Rely guar party) (guar party) inv
      (fun _ => idle party) world

/-- The world meets `inv`, and every party stands. -/
structure Holds (reacts : Party → Dialogue.Reaction World Request Answer) (inv : World → Prop)
    (idle : Party → World → Prop) (assembly : Assembly Party World Request Answer α) : Prop where
  met : inv assembly.world
  stands : ∀ party, Stands guar reacts inv idle party assembly.world (assembly.talks party)

variable {guar} {inv : World → Prop} {idle : Party → World → Prop}

theorem Stands.disturbed (rules : Rules guar reacts opens inv idle) {world after : World} :
    {talk : Option (Dialogue Request Answer α)} →
      Stands guar reacts inv idle party world talk →
        Dialogue.Disturbs (Rely guar party) inv world after →
          Stands guar reacts inv idle party after talk
  | none, stands, disturbed => rules.stable stands disturbed
  | some _, stands, disturbed => Dialogue.Proper.disturbed rules.stable stands disturbed

variable [DecidableEq Party]

section

variable (rules : Rules guar reacts opens inv idle)
include rules

theorem Holds.advance {world after : World}
    {talks : Party → Option (Dialogue Request Answer α)}
    {talk : Option (Dialogue Request Answer α)}
    (holds : Holds guar reacts inv idle ⟨world, talks⟩) (kept : inv after)
    (allowed : guar party world after) (stands : Stands guar reacts inv idle party after talk) :
    Holds guar reacts inv idle ⟨after, Function.update talks party talk⟩ where
  met := kept
  stands other := by
    change Stands guar reacts inv idle other after (Function.update talks party talk other)
    by_cases same : other = party
    · subst same
      rw [Function.update_self]
      exact stands
    · rw [Function.update_of_ne same]
      exact (holds.stands other).disturbed rules ⟨⟨party, Ne.symm same, allowed⟩, kept⟩

theorem Holds.step {assembly next : Assembly Party World Request Answer α}
    (holds : Holds guar reacts inv idle assembly) (step : Step reacts opens assembly party next) :
    Holds guar reacts inv idle next := by
  cases step with
  | opened free begun =>
      have stands := holds.stands party
      dsimp only at stands
      rw [free] at stands
      obtain ⟨kept, allowed, proper⟩ := rules.opened holds.met stands begun
      exact holds.advance rules kept allowed proper
  | answered busy reacted =>
      have stands := holds.stands party
      dsimp only at stands
      rw [busy] at stands
      obtain ⟨kept, allowed, proper⟩ := stands _ _ _ .refl holds.met reacted
      exact holds.advance rules kept allowed proper
  | ended busy =>
      refine ⟨holds.met, fun other => ?_⟩
      have stands := holds.stands other
      dsimp only at stands ⊢
      by_cases same : other = party
      · subst same
        rw [busy] at stands
        rw [Function.update_self]
        exact stands
      · rw [Function.update_of_ne same]
        exact stands

theorem run_holds {assembly next : Assembly Party World Request Answer α} {marks : List Party}
    (run : Run (Step reacts opens) assembly marks next)
    (holds : Holds guar reacts inv idle assembly) : Holds guar reacts inv idle next := by
  induction run with
  | nil => exact holds
  | snoc _ taken ih => exact ih.step rules taken

end

end

end Assembly

end AshlrHub.Lib
