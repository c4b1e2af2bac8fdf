import Mathlib.Data.Fintype.Order
import Mathlib.Data.Set.Finite.List

namespace AshlrHub.Lib

/-! Cycles of a relation, and the points from which one is reached. -/

variable {Node : Type} {step : Node → Node → Prop} {node : Node}

def ReachesCycle (step : Node → Node → Prop) (node : Node) : Prop :=
  ∃ around, Relation.ReflTransGen step node around ∧ Relation.TransGen step around around

theorem reachesCycle_iff :
    ReachesCycle step node ↔ ∃ next, step node next ∧ ReachesCycle step next := by
  constructor
  · rintro ⟨around, path, cycle⟩
    rcases Relation.ReflTransGen.cases_head path with rfl | ⟨next, first, rest⟩
    · obtain ⟨next, first, rest⟩ := Relation.TransGen.head'_iff.mp cycle
      exact ⟨next, first, node, rest, cycle⟩
    · exact ⟨next, first, around, rest, cycle⟩
  · rintro ⟨next, first, around, path, cycle⟩
    exact ⟨around, path.head first, cycle⟩

theorem acyclic_iff :
    (∀ node, ¬ Relation.TransGen step node node) ↔ ∀ node, ¬ ReachesCycle step node := by
  constructor
  · rintro acyclic node ⟨around, _, cycle⟩
    exact acyclic around cycle
  · intro free node cycle
    exact free node ⟨node, .refl, cycle⟩

theorem reachesCycle_of_serial {nodes : List Node}
    (serial : ∀ node ∈ nodes, ∃ next ∈ nodes, step node next) :
    ∀ node ∈ nodes, ReachesCycle step node := by
  intro start member
  by_contra free
  let Free := { node // node ∈ nodes ∧ ¬ ReachesCycle step node }
  have finite : Finite Free :=
    Set.Finite.subset (List.finite_toSet nodes) fun _ inside => inside.1
  let back : Free → Free → Prop := fun next node => step node.1 next.1
  have irreflexive : Std.Irrefl (Relation.TransGen back) := ⟨fun node cycle => by
    have lifted : Relation.TransGen (fun next node => step node next) node.1 node.1 :=
      Relation.TransGen.lift Subtype.val (fun _ _ once => once) _ _ cycle
    exact node.2.2 ⟨node.1, .refl, Relation.transGen_swap.mp lifted⟩⟩
  have founded : WellFounded (Relation.TransGen back) :=
    Finite.wellFounded_of_trans_of_irrefl _
  obtain ⟨last, _, least⟩ := founded.has_min Set.univ ⟨⟨start, member, free⟩, trivial⟩
  obtain ⟨next, inside, goes⟩ := serial last.1 last.2.1
  have also : ¬ ReachesCycle step next := fun reaches =>
    last.2.2 (reachesCycle_iff.mpr ⟨next, goes, reaches⟩)
  exact least ⟨next, inside, also⟩ trivial (.single goes)

/-! Orders of the nodes of a graph, in which each node stands behind all that it depends on. -/

variable {needs : Node → List Node}

def Ranked (needs : Node → List Node) : List Node → List Node → Prop
  | _, [] => True
  | done, node :: order =>
      node ∉ done ∧ (∀ need ∈ needs node, need ∈ done) ∧ Ranked needs (done ++ [node]) order

namespace Ranked

theorem append : {done front back : List Node} →
    (Ranked needs done (front ++ back) ↔
      Ranked needs done front ∧ Ranked needs (done ++ front) back)
  | done, [], back => by
      rw [List.nil_append, List.append_nil]
      exact (and_iff_right trivial).symm
  | done, node :: front, back => by
      rw [List.cons_append, Ranked, Ranked, append, List.append_assoc, List.singleton_append,
        and_assoc, and_assoc]

variable {order : List Node}

theorem snoc {done : List Node} {node : Node} (ranked : Ranked needs done order)
    (fresh : node ∉ done ++ order) (ready : ∀ need ∈ needs node, need ∈ done ++ order) :
    Ranked needs done (order ++ [node]) :=
  append.mpr ⟨ranked, fresh, ready, trivial⟩

theorem nodup : {done order : List Node} → Ranked needs done order → done.Nodup →
    (done ++ order).Nodup
  | done, [], _, once => by rwa [List.append_nil]
  | done, node :: order, ranked, once => by
      obtain ⟨fresh, _, rest⟩ := ranked
      have more : (done ++ [node]).Nodup := by
        rw [List.nodup_append]
        refine ⟨once, List.nodup_singleton _, ?_⟩
        rintro old member other here rfl
        rw [List.mem_singleton] at here
        exact fresh (here ▸ member)
      have all := nodup rest more
      rwa [List.append_assoc, List.singleton_append] at all

theorem needs_before {done before behind : List Node} {node need : Node}
    (ranked : Ranked needs done (before ++ node :: behind)) (member : need ∈ needs node) :
    need ∈ done ++ before :=
  (append.mp ranked).2.2.1 need member

theorem closed (ranked : Ranked needs [] order) {node need : Node} (inside : node ∈ order)
    (member : need ∈ needs node) : need ∈ order := by
  obtain ⟨before, behind, rfl⟩ := List.append_of_mem inside
  exact List.mem_append_left _ (by simpa using ranked.needs_before member)

theorem holds_of_needs (ranked : Ranked needs [] order) {holds : Node → Prop}
    (step : ∀ node ∈ order, (∀ need ∈ needs node, holds need) → holds node) :
    ∀ node ∈ order, holds node := by
  have all : ∀ front back : List Node, order = front ++ back → ∀ node ∈ front, holds node := by
    intro front
    induction front using List.reverseRecOn with
    | nil =>
        intro _ _ _ member
        cases member
    | append_singleton front last ih =>
        intro back same node member
        rw [List.append_assoc, List.singleton_append] at same
        have before := ih (last :: back) same
        rcases List.mem_append.mp member with early | late
        · exact before node early
        · rw [List.mem_singleton] at late
          subst late
          apply step
          · rw [same]
            simp
          · intro need inside
            rw [same] at ranked
            exact before need (by simpa using ranked.needs_before inside)
  exact all order [] (List.append_nil _).symm

theorem acyclic (ranked : Ranked needs [] order) :
    ∀ node ∈ order, ¬ Relation.TransGen (fun node need => need ∈ needs node) node node := by
  refine ranked.holds_of_needs fun node _ below around => ?_
  obtain ⟨need, first, rest⟩ := Relation.TransGen.head'_iff.mp around
  exact below need first (Relation.TransGen.tail'_iff.mpr ⟨node, rest, first⟩)

theorem reverse {dependants : Node → List Node} (ranked : Ranked needs [] order)
    (inside : ∀ node ∈ order, ∀ dependant ∈ dependants node,
      dependant ∈ order ∧ node ∈ needs dependant) :
    Ranked dependants [] order.reverse := by
  have once := ranked.nodup List.nodup_nil
  rw [List.nil_append] at once
  have all : ∀ back front : List Node, order = front ++ back →
      Ranked dependants [] back.reverse := by
    intro back
    induction back with
    | nil => exact fun _ _ => trivial
    | cons node back ih =>
        intro front same
        have rest := ih (front ++ [node]) (by rw [same]; simp)
        rw [List.reverse_cons]
        have apart : node ∉ back := by
          have parts := (List.nodup_append.mp (same ▸ once)).2.1
          exact (List.nodup_cons.mp parts).1
        refine rest.snoc (by simpa using apart) fun dependant member => ?_
        obtain ⟨listed, uses⟩ := inside node (by rw [same]; simp) dependant member
        rw [List.nil_append, List.mem_reverse]
        -- A dependant further to the front would stand before what it needs.
        obtain ⟨before, behind, split⟩ := List.append_of_mem listed
        rw [split] at ranked
        have early : node ∈ before := by simpa using ranked.needs_before uses
        have cut : before ++ dependant :: behind = front ++ node :: back := by rw [← split, same]
        have distinct : (before ++ dependant :: behind).Nodup := split ▸ once
        obtain ⟨first, middle, rfl⟩ := List.append_of_mem early
        have whole : first ++ node :: (middle ++ dependant :: behind) = front ++ node :: back := by
          rw [← cut]
          simp
        have alone : node ∉ first ++ (middle ++ dependant :: behind) := by
          have shape : first ++ node :: middle ++ dependant :: behind =
              first ++ node :: (middle ++ dependant :: behind) := by simp
          rw [shape, List.nodup_middle, List.nodup_cons] at distinct
          exact distinct.1
        rw [List.mem_append, not_or] at alone
        obtain ⟨-, -, rest⟩ := (List.append_cons_inj_of_notMem alone.1 alone.2).mp whole
        rw [← rest]
        simp
  have whole := all order [] rfl
  exact whole

end Ranked

end AshlrHub.Lib
