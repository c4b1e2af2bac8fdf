import AshlrHub.Js.MapMerge
import AshlrHub.Lib.Sorting
import AshlrHub.Resources.PoolAdmission

namespace AshlrHub.Resources

open Js Artifacts Authority Lib

/-! Merging two observations in closed form: the old windows that a new reading cannot replace
lie over the new ones. -/

variable {nowMs : ℤ} {fresh : Bool} {before item : ResourceObservation}

def Recovers (nowMs : ℤ) (reading : ResourceQuotaWindow) : Bool :=
  reading.usedPercent.isSome && reading.resetsAt.any fun resets => nowMs < dateMs resets

def Raises (window reading : ResourceQuotaWindow) : Bool :=
  reading.usedPercent.any fun used => window.usedPercent.all fun known => known.val < used.val

def superseded (nowMs : ℤ) (fresh : Bool) (readings : List ResourceQuotaWindow)
    (window : ResourceQuotaWindow) : Bool :=
  (readings.find? fun reading => reading.id = window.id).any fun reading =>
    fresh && Recovers nowMs reading || Raises window reading

def keptWindows (nowMs : ℤ) (fresh : Bool) (item : ResourceObservation)
    (before : List ResourceQuotaWindow) : List ResourceQuotaWindow :=
  before.filter fun window => !superseded nowMs fresh item.windows window

def keepWindow (nowMs : ℤ) (fresh : Bool) :
    JsMap JsString ResourceQuotaWindow × Bool → ResourceQuotaWindow →
      JsMap JsString ResourceQuotaWindow × Bool :=
  fun (windows, retained) window =>
    let replacement := windows.get? window.id
    let freshRecovery := fresh && replacement.any fun other =>
      other.usedPercent.isSome && other.resetsAt.any fun resets => nowMs < dateMs resets
    let raised := replacement.any fun other => other.usedPercent.any fun used =>
      window.usedPercent.all fun known => known.val < used.val
    if freshRecovery || raised then (windows, retained)
    else (windows.set window.id window, true)

theorem keepWindow_eq (state : JsMap JsString ResourceQuotaWindow × Bool)
    (window : ResourceQuotaWindow) :
    keepWindow nowMs fresh state window =
      if (state.1.get? window.id).any (fun reading =>
          fresh && Recovers nowMs reading || Raises window reading) = true then state
      else (state.1.set window.id window, true) := by
  obtain ⟨windows, retained⟩ := state
  dsimp only [keepWindow]
  cases windows.get? window.id with
  | none => simp
  | some reading => rfl

theorem foldl_keepWindow {readings : List ResourceQuotaWindow} :
    {windows base : List ResourceQuotaWindow} → {retained : Bool} →
    (windows.map (·.id)).Nodup → (base.map (·.id)).Nodup →
    (∀ window ∈ windows, (JsMap.entriesBy (·.id) base).get? window.id =
      readings.find? fun reading => reading.id = window.id) →
    windows.foldl (keepWindow nowMs fresh) (JsMap.entriesBy (·.id) base, retained) =
      (JsMap.entriesBy (·.id) (overlay (·.id) base
        (windows.filter fun window => !superseded nowMs fresh readings window)),
        retained || (windows.filter fun window =>
          !superseded nowMs fresh readings window) ≠ [])
  | [], base, retained, _, _, _ => by
      rw [List.foldl_nil, List.filter_nil, overlay, mergeKeyed_nil]
      simp
  | window :: windows, base, retained, once, baseOnce, same => by
      rw [List.map_cons, List.nodup_cons] at once
      rw [List.foldl_cons, keepWindow_eq, same window List.mem_cons_self]
      have later : ∀ other ∈ windows, other.id ≠ window.id := fun other member equal =>
        once.1 (equal ▸ List.mem_map_of_mem member)
      by_cases gone : superseded nowMs fresh readings window = true
      · rw [List.filter_cons_of_neg (by simpa using gone)]
        refine Eq.trans ?_ (foldl_keepWindow once.2 baseOnce fun other member =>
          same other (List.mem_cons_of_mem _ member))
        exact congrArg (fun state => windows.foldl _ state) (if_pos gone)
      · rw [List.filter_cons_of_pos (by simpa using gone)]
        have placed := JsMap.set_entriesBy window baseOnce
        have nextOnce := nodup_keys_putKeyed key_replaceWith baseOnce window
        set next := putKeyed (·.id) replaceWith base window
        have replaced : overlay (·.id) base (window ::
            windows.filter fun window => !superseded nowMs fresh readings window) =
            overlay (·.id) next
              (windows.filter fun window => !superseded nowMs fresh readings window) := by
          refine mergeKeyed_cons key_replaceWith fun member => ?_
          obtain ⟨other, held, equal⟩ := List.mem_map.mp member
          exact later other (List.mem_filter.mp held).1 equal
        have untouched : ∀ other ∈ windows, (JsMap.entriesBy (·.id) next).get? other.id =
            readings.find? fun reading => reading.id = other.id := by
          intro other member
          rw [← same other (List.mem_cons_of_mem _ member), ← placed]
          exact JsMap.get?_set_ne (later other member) window _
        rw [replaced]
        refine Eq.trans ?_ ((@foldl_keepWindow readings windows next true once.2 nextOnce
          untouched).trans ?_)
        · rw [← placed]
          exact congrArg (fun state => windows.foldl _ state) (if_neg gone)
        · simp

theorem mergeWindows_eq {windows : List ResourceQuotaWindow} (once : (windows.map (·.id)).Nodup)
    (itemOnce : (item.windows.map (·.id)).Nodup) :
    mergeWindows nowMs fresh item windows =
      (JsMap.entriesBy (·.id) (overlay (·.id) item.windows
        (keptWindows nowMs fresh item windows)),
        decide (keptWindows nowMs fresh item windows ≠ [])) := by
  have folded := @foldl_keepWindow nowMs fresh item.windows windows item.windows false once itemOnce
    fun window _ => JsMap.get?_entriesBy window.id item.windows
  rw [Bool.false_or] at folded
  rw [mergeWindows, JsMap.foldl_set_nil itemOnce]
  exact folded

def joinedWindows (nowMs : ℤ) (before item : ResourceObservation) : List ResourceQuotaWindow :=
  overlay (·.id) item.windows (keptWindows nowMs (fullyFresh nowMs before item) item before.windows)

def marked (observation : ResourceObservation) : Bool :=
  observation.windows.any fun window => window.id = observationOverflow

def overflows (nowMs : ℤ) (before item : ResourceObservation) : Bool :=
  maxObservationWindows < (joinedWindows nowMs before item).length || marked before

def foldedWindows (windows : List ResourceQuotaWindow) : List ResourceQuotaWindow :=
  ((windows.filter fun window => window.id ≠ observationOverflow).insertionSort
    fun left right => fullerFirst left right).take (maxObservationWindows - 1) ++ [overflowWindow]

def retains (nowMs : ℤ) (before item : ResourceObservation) : Bool :=
  decide (keptWindows nowMs (fullyFresh nowMs before item) item before.windows ≠ []) ||
    overflows nowMs before item

theorem mergeObservation_eq (once : (before.windows.map (·.id)).Nodup)
    (itemOnce : (item.windows.map (·.id)).Nodup) :
    mergeObservation nowMs before item =
      { item with
        health :=
          if overflows nowMs before item ||
            (!fullyFresh nowMs before item && before.health = .unavailable) then .unavailable
          else item.health
        windows :=
          if overflows nowMs before item then foldedWindows (joinedWindows nowMs before item)
          else joinedWindows nowMs before item
        updatedAt := some item.capturedAt
        observedAt :=
          if retains nowMs before item && before.observedAt < item.observedAt then
            before.observedAt
          else item.observedAt
        expiresAt :=
          if retains nowMs before item && before.expiresAt < item.expiresAt then before.expiresAt
          else item.expiresAt
        retryAfter := latest (before.retryAfter.toList ++ item.retryAfter.toList) } := by
  have merged := @mergeWindows_eq nowMs (fullyFresh nowMs before item) item before.windows once
    itemOnce
  have length : (JsMap.entriesBy (·.id) (joinedWindows nowMs before item)).length =
      (joinedWindows nowMs before item).length := List.length_map _
  have values : (JsMap.entriesBy (·.id) (joinedWindows nowMs before item)).map (·.2) =
      joinedWindows nowMs before item := JsMap.values_entriesBy _
  unfold mergeObservation
  dsimp only
  rw [merged]
  dsimp only
  rw [show overlay (·.id) item.windows (keptWindows nowMs (fullyFresh nowMs before item) item
    before.windows) = joinedWindows nowMs before item from rfl, length, values]
  rfl

/-! The merge of two lists. -/

variable {host : PoolHost}

def outdated (host : PoolHost) (before item : ResourceObservation) : Bool :=
  item.capturedAt < before.capturedAt || (item.capturedAt = before.capturedAt &&
    canonical host.keysInOrder item.json = canonical host.keysInOrder before.json)

def absorb (host : PoolHost) (nowMs : ℤ) (before item : ResourceObservation) :
    ResourceObservation :=
  if outdated host before item then before else mergeObservation nowMs before item

theorem workerId_absorb (before item : ResourceObservation) (same : item.workerId = before.workerId)
    :
    (absorb host nowMs before item).workerId = before.workerId := by
  unfold absorb
  split_ifs
  · rfl
  · exact same

theorem mergeResourceObservations_eq {previous incoming : List ResourceObservation}
    (once : (previous.map (·.workerId)).Nodup) (newOnce : (incoming.map (·.workerId)).Nodup) :
    mergeResourceObservations host nowMs previous incoming =
      mergeKeyed (·.workerId) (absorb host nowMs) previous incoming := by
  have folded := @JsMap.foldl_meet _ _ _ (·.workerId) (absorb host nowMs) workerId_absorb
    incoming previous newOnce once
  unfold mergeResourceObservations
  dsimp only
  rw [JsMap.foldl_set_nil once]
  refine Eq.trans (congrArg _ ?_) ((congrArg (List.map Prod.snd) folded).trans
    (JsMap.values_entriesBy _))
  refine congrArg (fun step => incoming.foldl step _) ?_
  funext merged item
  rw [JsMap.meet]
  cases found : merged.get? item.workerId with
  | none => rfl
  | some before =>
      dsimp only
      unfold absorb outdated
      split_ifs with skip
      · exact (JsMap.set_same found).symm
      · rfl

end AshlrHub.Resources
