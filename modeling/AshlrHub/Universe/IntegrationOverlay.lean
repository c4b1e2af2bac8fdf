import AshlrHub.Lib.KeyedMerge
import AshlrHub.Universe.IntegrationPlan

namespace AshlrHub.Universe

open Js Lib Artifacts

/-! How the edits of the sources come to stand in one composition. -/

/-! Reasons and conflicts. -/

def Degraded (reasons : List JsString) : Prop :=
  ∃ reason ∈ reasons, reason ≠ compositionConflicts

section State

variable {state : Composition} {reason : JsString} {value : UniverseIntegrationConflict}

theorem nodup_issue (once : state.reasons.Nodup) : (state.issue reason).reasons.Nodup := by
  unfold Composition.issue
  split
  · rename_i fresh
    simp only [Bool.and_eq_true, Bool.not_eq_true', List.contains_eq_mem,
      decide_eq_false_iff_not] at fresh
    exact List.nodup_append.mpr ⟨once, List.nodup_singleton _, fun a member b last => by
      rw [List.mem_singleton.mp last]
      exact fun same => fresh.1 (same ▸ member)⟩
  · exact once

theorem degraded_issue (once : state.reasons.Nodup) :
    Degraded (state.issue reason).reasons ↔
      Degraded state.reasons ∨ reason ≠ compositionConflicts := by
  unfold Composition.issue
  split
  · unfold Degraded
    simp only [List.mem_append, List.mem_singleton, or_and_right, exists_or, exists_eq_left]
  · rename_i stale
    constructor
    · exact .inl
    · rintro (degraded | other)
      · exact degraded
      · simp only [Bool.and_eq_true, Bool.not_eq_true', List.contains_eq_mem,
          decide_eq_false_iff_not, decide_eq_true_eq, not_and, not_lt] at stale
        by_cases given : reason ∈ state.reasons
        · exact ⟨reason, given, other⟩
        · by_contra sound
          have same : ∀ entry ∈ state.reasons, entry = compositionConflicts := by
            intro entry member
            by_contra differs
            exact sound ⟨entry, member, differs⟩
          have long := stale given
          have short : state.reasons.length ≤ 1 := by
            rw [List.eq_replicate_of_mem same] at once
            exact List.nodup_replicate.mp once
          unfold maxReasons at long
          omega

theorem issue_conflicts : (state.issue reason).conflicts = state.conflicts := by
  unfold Composition.issue
  split <;> rfl

theorem issue_overlays : (state.issue reason).overlays = state.overlays := by
  unfold Composition.issue
  split <;> rfl

theorem issue_summaries : (state.issue reason).summaries = state.summaries := by
  unfold Composition.issue
  split <;> rfl

theorem conflict_eq (state : Composition) (value : UniverseIntegrationConflict) :
    ∃ conflicts ≠ [], state.conflict value =
      Composition.issue { state with conflicts } compositionConflicts := by
  by_cases room : (state.conflicts.length < maxIntegrationConflicts &&
      !state.conflicts.contains value) = true
  · refine ⟨state.conflicts ++ [value], by simp, ?_⟩
    exact congrArg (Composition.issue · compositionConflicts) (if_pos room)
  · refine ⟨state.conflicts, fun empty => room ?_, ?_⟩
    · rw [empty]
      rfl
    · exact congrArg (Composition.issue · compositionConflicts) (if_neg room)

theorem conflict_conflicts : (state.conflict value).conflicts ≠ [] := by
  obtain ⟨conflicts, some, same⟩ := conflict_eq state value
  rw [same, issue_conflicts]
  exact some

theorem mem_conflict_conflicts {other : UniverseIntegrationConflict}
    (member : other ∈ (state.conflict value).conflicts) :
    other ∈ state.conflicts ∨ other = value := by
  unfold Composition.conflict at member
  simp only at member
  rw [issue_conflicts] at member
  split at member
  · exact (List.mem_append.mp member).imp_right List.mem_singleton.mp
  · exact .inl member

theorem conflict_overlays : (state.conflict value).overlays = state.overlays := by
  obtain ⟨conflicts, _, same⟩ := conflict_eq state value
  rw [same, issue_overlays]

theorem conflict_summaries : (state.conflict value).summaries = state.summaries := by
  obtain ⟨conflicts, _, same⟩ := conflict_eq state value
  rw [same, issue_summaries]

theorem nodup_conflict (once : state.reasons.Nodup) : (state.conflict value).reasons.Nodup := by
  obtain ⟨conflicts, _, same⟩ := conflict_eq state value
  rw [same]
  exact nodup_issue once

theorem degraded_conflict (once : state.reasons.Nodup) :
    Degraded (state.conflict value).reasons ↔ Degraded state.reasons := by
  obtain ⟨conflicts, _, same⟩ := conflict_eq state value
  have noted : ({ state with conflicts } : Composition).reasons.Nodup := once
  rw [same]
  exact (degraded_issue noted).trans (or_iff_left (· rfl))

end State

/-! The edits of a composition: each with the delivery it comes from. -/

abbrev Delivered := JsString × TreeEdit

def Agree (edits : List Delivered) : Prop :=
  ∀ first ∈ edits, ∀ second ∈ edits, first.2.path = second.2.path → first.2.after = second.2.after

theorem Agree.perm {edits others : List Delivered} (agree : Agree edits) (perm : edits.Perm others)
    :
    Agree others := fun first firstMember second secondMember =>
  agree first (perm.mem_iff.mpr firstMember) second (perm.mem_iff.mpr secondMember)

theorem agree_concat {edits : List Delivered} {edit : Delivered} :
    Agree (edits ++ [edit]) ↔ Agree edits ∧
      ∀ other ∈ edits, other.2.path = edit.2.path → other.2.after = edit.2.after := by
  constructor
  · intro agree
    constructor
    · intro first firstMember second secondMember
      exact agree first (List.mem_append_left _ firstMember) second
        (List.mem_append_left _ secondMember)
    · intro other member
      exact agree other (List.mem_append_left _ member) edit
        (List.mem_append_right _ (List.mem_singleton_self _))
  · rintro ⟨agree, last⟩ first firstMember second secondMember same
    rcases List.mem_append.mp firstMember with firstBefore | firstLast <;>
    rcases List.mem_append.mp secondMember with secondBefore | secondLast
    · exact agree first firstBefore second secondBefore same
    · rw [List.mem_singleton.mp secondLast] at same ⊢
      exact last first firstBefore same
    · rw [List.mem_singleton.mp firstLast] at same ⊢
      exact (last second secondBefore same.symm).symm
    · rw [List.mem_singleton.mp firstLast, List.mem_singleton.mp secondLast]

def editorsOf (edits : List Delivered) (path : JsString) : List JsString :=
  (edits.filter fun edit => edit.2.path = path).map Prod.fst

structure Laid (edits : List Delivered) (state : Composition) : Prop where
  agree : state.conflicts = [] ↔ Agree edits
  codes : ∀ conflict ∈ state.conflicts, conflict.code = .pathConflict
  untouched : ∀ path, state.overlays.get? path = none ↔ ∀ edit ∈ edits, edit.2.path ≠ path
  first : ∀ path overlay, state.overlays.get? path = some overlay →
    ∃ edit ∈ edits, edit.2.path = path ∧ edit.2.after = overlay.after
  editors : Agree edits → ∀ path overlay, state.overlays.get? path = some overlay →
    overlay.sourceDeliveryIds = editorsOf edits path
  distinct : state.overlays.keys.Nodup

section Edits

variable {edits : List Delivered} {state : Composition} {deliveryId : JsString} {edit : TreeEdit}

theorem editorsOf_concat (path : JsString) :
    editorsOf (edits ++ [(deliveryId, edit)]) path =
      if edit.path = path then editorsOf edits path ++ [deliveryId] else editorsOf edits path := by
  unfold editorsOf
  rw [List.filter_append, List.map_append]
  split
  · rename_i same
    rw [List.filter_cons_of_pos (by simpa using same)]
    rfl
  · rename_i differs
    rw [List.filter_cons_of_neg (by simpa using differs)]
    exact List.append_nil _

section

variable (laid : Laid edits state)
include laid

/-- One edit more under its path, where it disagrees with none before it. -/
theorem Laid.placed {overlay : Overlay}
    (agrees : Agree (edits ++ [(deliveryId, edit)]) ↔ Agree edits)
    (after : overlay.after = edit.after)
    (editors : Agree edits →
      overlay.sourceDeliveryIds = editorsOf edits edit.path ++ [deliveryId]) :
    Laid (edits ++ [(deliveryId, edit)])
      { state with overlays := state.overlays.set edit.path overlay } := by
  refine ⟨laid.agree.trans agrees.symm, laid.codes, ?_, ?_, ?_, JsMap.nodup_keys_set _ _
    laid.distinct⟩
  · intro path
    simp only [JsMap.get?_set]
    split
    · rename_i same
      simp only [reduceCtorEq, false_iff, not_forall]
      exact ⟨(deliveryId, edit), List.mem_append_right _ (List.mem_singleton_self _),
        fun differs => differs (by simpa using same.symm)⟩
    · rename_i differs
      rw [laid.untouched path]
      constructor
      · intro before other member
        rcases List.mem_append.mp member with earlier | last
        · exact before other earlier
        · rw [List.mem_singleton.mp last]
          exact fun same => differs (by simpa using same.symm)
      · intro all other member
        exact all other (List.mem_append_left _ member)
  · intro path other found
    simp only [JsMap.get?_set] at found
    split at found
    · rename_i same
      cases found
      exact ⟨(deliveryId, edit), List.mem_append_right _ (List.mem_singleton_self _),
        by simpa using same.symm, after.symm⟩
    · obtain ⟨earlier, member, same⟩ := laid.first path other found
      exact ⟨earlier, List.mem_append_left _ member, same⟩
  · intro agree path other found
    rw [editorsOf_concat]
    simp only [JsMap.get?_set] at found
    split at found
    · rename_i same
      cases found
      rw [same, if_pos rfl]
      exact editors (agrees.mp agree)
    · rename_i differs
      rw [if_neg (Ne.symm differs)]
      exact laid.editors (agrees.mp agree) path other found

theorem Laid.fresh (absent : state.overlays.get? edit.path = none) :
    Laid (edits ++ [(deliveryId, edit)])
      { state with overlays := state.overlays.set edit.path ⟨edit.after, [deliveryId]⟩ } := by
  have alone := (laid.untouched edit.path).mp absent
  have agrees : Agree (edits ++ [(deliveryId, edit)]) ↔ Agree edits := by
    rw [agree_concat]
    exact and_iff_left fun other member same => absurd same (alone other member)
  have none : editorsOf edits edit.path = [] := by
    unfold editorsOf
    rw [List.map_eq_nil_iff, List.filter_eq_nil_iff]
    intro other member
    simpa using alone other member
  exact laid.placed agrees rfl fun _ => by rw [none, List.nil_append]

section

variable {previous : Overlay} (found : state.overlays.get? edit.path = some previous)
include found

theorem Laid.alike (alike : previous.after = edit.after) :
    Laid (edits ++ [(deliveryId, edit)])
      { state with
        overlays := state.overlays.set edit.path
          ⟨previous.after, previous.sourceDeliveryIds ++ [deliveryId]⟩ } := by
  obtain ⟨witness, witnessed, witnessPath, witnessAfter⟩ := laid.first edit.path previous found
  have agrees : Agree (edits ++ [(deliveryId, edit)]) ↔ Agree edits := by
    rw [agree_concat]
    refine and_iff_left_of_imp fun agree other member same => ?_
    rw [agree other member witness witnessed (same.trans witnessPath.symm), witnessAfter, alike]
  exact laid.placed agrees alike fun agree => by
    rw [laid.editors agree edit.path previous found]

theorem Laid.apart {value : UniverseIntegrationConflict}
    (apart : previous.after ≠ edit.after) (code : value.code = .pathConflict) :
    Laid (edits ++ [(deliveryId, edit)]) (state.conflict value) := by
  obtain ⟨witness, witnessed, witnessPath, witnessAfter⟩ := laid.first edit.path previous found
  have disagree : ¬ Agree (edits ++ [(deliveryId, edit)]) := by
    intro agree
    have same := (agree_concat.mp agree).2 witness witnessed witnessPath
    exact apart (witnessAfter.symm.trans same)
  refine ⟨iff_of_false conflict_conflicts disagree, ?_, ?_, ?_,
    fun agree => absurd agree disagree, ?_⟩
  · intro conflict member
    rcases mem_conflict_conflicts member with before | rfl
    · exact laid.codes conflict before
    · exact code
  · intro path
    rw [conflict_overlays, laid.untouched path]
    constructor
    · intro before other member
      rcases List.mem_append.mp member with earlier | last
      · exact before other earlier
      · rw [List.mem_singleton.mp last]
        intro same
        exact before witness witnessed (witnessPath.trans same)
    · intro all other member
      exact all other (List.mem_append_left _ member)
  · intro path overlay placed
    rw [conflict_overlays] at placed
    obtain ⟨other, member, same⟩ := laid.first path overlay placed
    exact ⟨other, List.mem_append_left _ member, same⟩
  · rw [conflict_overlays]
    exact laid.distinct

end

theorem Laid.step :
    Laid (edits ++ [(deliveryId, edit)]) (applyEdit deliveryId state edit) := by
  unfold applyEdit
  cases found : state.overlays.get? edit.path with
  | none => exact laid.fresh found
  | some previous =>
      simp only
      split
      · rename_i alike
        exact laid.alike found alike
      · rename_i apart
        exact laid.apart found apart rfl

theorem Laid.run {more : List TreeEdit} :
    Laid (edits ++ more.map (deliveryId, ·)) (more.foldl (applyEdit deliveryId) state) := by
  induction more generalizing edits state with
  | nil => rwa [List.map_nil, List.append_nil]
  | cons edit more ih =>
      rw [List.map_cons, List.append_cons, List.foldl_cons]
      exact ih laid.step

end

theorem applyEdit_reasons (deliveryId : JsString) (edit : TreeEdit) (once : state.reasons.Nodup) :
    (applyEdit deliveryId state edit).reasons.Nodup ∧
      (Degraded (applyEdit deliveryId state edit).reasons ↔ Degraded state.reasons) ∧
        (applyEdit deliveryId state edit).summaries = state.summaries := by
  unfold applyEdit
  split
  · exact ⟨once, Iff.rfl, rfl⟩
  · split
    · exact ⟨once, Iff.rfl, rfl⟩
    · exact ⟨nodup_conflict once, degraded_conflict once, conflict_summaries⟩

theorem applyEdits_reasons (deliveryId : JsString) (more : List TreeEdit)
    (once : state.reasons.Nodup) :
    (more.foldl (applyEdit deliveryId) state).reasons.Nodup ∧
      (Degraded (more.foldl (applyEdit deliveryId) state).reasons ↔ Degraded state.reasons) ∧
        (more.foldl (applyEdit deliveryId) state).summaries = state.summaries := by
  induction more generalizing state with
  | nil => exact ⟨once, Iff.rfl, rfl⟩
  | cons edit more ih =>
      obtain ⟨first, degraded, summaries⟩ := applyEdit_reasons deliveryId edit once
      obtain ⟨rest, degradedRest, summariesRest⟩ := ih first
      exact ⟨rest, degradedRest.trans degraded, summariesRest.trans summaries⟩

end Edits

end AshlrHub.Universe
