import Mathlib.Algebra.BigOperators.Group.List.Basic
import Mathlib.Tactic.Ring

namespace AshlrHub.Lib

/-! Searching a graph from a stack of nodes: each node is looked at once. -/

variable {Node Result : Type} [DecidableEq Node]

def explore (following : Node → Option (List Node)) (note : Result → Node → Result) :
    ℕ → List Node → List Node → Result → Option Result
  | 0, _, _, _ => none
  | _ + 1, [], _, result => some result
  | fuel + 1, node :: stack, visited, result =>
      if node ∈ visited then explore following note fuel stack visited result
      else
        match following node with
        | none => none
        | some more =>
            explore following note fuel (more ++ stack) (visited ++ [node]) (note result node)

def Follows (following : Node → Option (List Node)) (node other : Node) : Prop :=
  ∃ more, following node = some more ∧ other ∈ more

structure Searched (following : Node → Option (List Node)) (stack visited fresh : List Node) :
    Prop where
  pushed : ∀ node ∈ stack, node ∈ visited ++ fresh
  closed : ∀ node ∈ fresh, ∀ other, Follows following node other → other ∈ visited ++ fresh
  reached : ∀ node ∈ fresh, ∃ start ∈ stack, Relation.ReflTransGen (Follows following) start node

variable {following : Node → Option (List Node)} {note : Result → Node → Result}

omit [DecidableEq Node] in
theorem Searched.cons {node : Node} {more stack visited fresh : List Node}
    (entry : following node = some more)
    (rest : Searched following (more ++ stack) (visited ++ [node]) fresh) :
    Searched following (node :: stack) visited (node :: fresh) where
  pushed := by
    intro other member
    rcases List.mem_cons.mp member with rfl | later
    · exact List.mem_append_right _ List.mem_cons_self
    · simpa using rest.pushed other (List.mem_append_right _ later)
  closed := by
    intro source member other follows
    rcases List.mem_cons.mp member with rfl | later
    · obtain ⟨found, same, inside⟩ := follows
      rw [entry] at same
      cases same
      simpa using rest.pushed other (List.mem_append_left _ inside)
    · simpa using rest.closed source later other follows
  reached := by
    intro other member
    rcases List.mem_cons.mp member with rfl | later
    · exact ⟨other, List.mem_cons_self, .refl⟩
    · obtain ⟨start, pushed, path⟩ := rest.reached other later
      rcases List.mem_append.mp pushed with inside | below
      · exact ⟨node, List.mem_cons_self, path.head ⟨more, entry, inside⟩⟩
      · exact ⟨start, List.mem_cons_of_mem _ below, path⟩

theorem explore_searched : {fuel : ℕ} → {stack visited : List Node} → {start result : Result} →
    explore following note fuel stack visited start = some result →
    ∃ fresh, result = fresh.foldl note start ∧ Searched following stack visited fresh
  | 0, _, _, _, _, found => by cases found
  | _ + 1, [], visited, start, result, found => by
      cases found
      exact ⟨[], rfl, by simp, by simp, by simp⟩
  | fuel + 1, node :: stack, visited, start, result, found => by
      rw [explore] at found
      split_ifs at found with known
      · obtain ⟨fresh, folded, searched⟩ := explore_searched found
        refine ⟨fresh, folded, ?_, searched.closed, ?_⟩
        · intro other member
          rcases List.mem_cons.mp member with rfl | later
          · exact List.mem_append_left _ known
          · exact searched.pushed other later
        · intro other member
          obtain ⟨first, pushed, path⟩ := searched.reached other member
          exact ⟨first, List.mem_cons_of_mem _ pushed, path⟩
      · cases entry : following node with
        | none =>
            rw [entry] at found
            cases found
        | some more =>
            rw [entry] at found
            obtain ⟨fresh, folded, searched⟩ := explore_searched found
            exact ⟨node :: fresh, folded, searched.cons entry⟩

theorem explore_reaches {fuel : ℕ} {stack : List Node} {start result : Result}
    (found : explore following note fuel stack [] start = some result) :
    ∃ fresh : List Node, result = fresh.foldl note start ∧
      ∀ node, node ∈ fresh ↔
        ∃ first ∈ stack, Relation.ReflTransGen (Follows following) first node := by
  obtain ⟨fresh, folded, searched⟩ := explore_searched found
  refine ⟨fresh, folded, fun node => ⟨searched.reached node, ?_⟩⟩
  rintro ⟨first, pushed, path⟩
  induction path with
  | refl => exact searched.pushed first pushed
  | tail _ follows ih => exact searched.closed _ ih _ follows

end AshlrHub.Lib
