import AshlrHub.Authority.Patterns
import AshlrHub.Js.Map

namespace AshlrHub.Routing

open Js Authority

/-! The operator's budget: mode defaults, and the policy of one seat. -/

inductive BudgetMode where
  | reserve
  | balanced
  | allIn
deriving DecidableEq

/-- `BUDGET_MODE_RANK` -/
def BudgetMode.rank : BudgetMode → ℕ
  | .reserve => 0
  | .balanced => 1
  | .allIn => 2

inductive BudgetEngine where
  | claude
  | claudeApi
  | codex
  | grok
  | local
  | devin
deriving DecidableEq

/-- A seat id, spelled as `BUDGET_SEAT_ID_RE` asks. -/
structure SeatId where
  text : JsString
  spelled : seatIdPattern text = true
deriving DecidableEq

theorem spelled_local : seatIdPattern (js "local") = true := by decide

theorem spelled_claude : seatIdPattern (js "claude") = true := by decide

theorem spelled_codex : seatIdPattern (js "codex") = true := by decide

/-- What `toLowerCase` makes of a unit of a seat id: these are all ASCII. -/
def lowerUnit (unit : CodeUnit) : CodeUnit :=
  if isUpper unit then unit + 0x20 else unit

def SeatId.lower (seatId : SeatId) : JsString :=
  seatId.text.map lowerUnit

def claudeApiSeatId : JsString := js "claude-api"

def engineOfSeatId (seatId : SeatId) : BudgetEngine :=
  let id := seatId.lower
  if id = claudeApiSeatId then .claudeApi
  else if id = js "local" ∨ (js "local:").isPrefixOf id then .local
  else if (js "codex").isPrefixOf id then .codex
  else if (js "grok").isPrefixOf id then .grok
  else if (js "devin").isPrefixOf id then .devin
  else .claude

abbrev Percent := Set.Icc (0 : ℚ) 100

def percent (n : ℕ) (bound : n ≤ 100 := by decide) : Percent :=
  ⟨n, by positivity, by exact_mod_cast bound⟩

theorem zero_inside : 0 ≤ 100 := by decide

theorem forty_inside : 40 ≤ 100 := by decide

theorem hundred_inside : 100 ≤ 100 := by decide

@[simp] theorem percent_le_percent {a b : ℕ} (boundA : a ≤ 100) (boundB : b ≤ 100) :
    percent a boundA ≤ percent b boundB ↔ a ≤ b := by
  rw [← Subtype.coe_le_coe]
  exact Nat.cast_le

structure SeatBudgetPolicy where
  seatId : SeatId
  resetSpending : Option Bool
  enabled : Bool
  reservePercent : Percent
  maxSessionWindowPercent : Option Percent
  dailyUsdCap : Option ℚ
deriving DecidableEq

structure BudgetPolicy where
  mode : BudgetMode
  seats : JsMap SeatId SeatBudgetPolicy
  updatedAt : JsString
  resetSpending : Option Bool

/-- One cell of `MODE_DEFAULTS`. -/
structure EngineDefault where
  enabled : Bool
  reservePercent : Percent
  maxSessionWindowPercent : Option Percent
  dailyUsdCap : Option ℚ
deriving DecidableEq

/-- `MODE_DEFAULTS` -/
def modeDefaults : BudgetMode → BudgetEngine → EngineDefault
  | .allIn, .claude => ⟨true, percent 0, none, none⟩
  | .allIn, .claudeApi => ⟨false, percent 0, none, none⟩
  | .allIn, .codex => ⟨false, percent 0, none, none⟩
  | .allIn, .grok => ⟨true, percent 0, none, none⟩
  | .allIn, .local => ⟨true, percent 0, none, none⟩
  | .allIn, .devin => ⟨true, percent 0, none, none⟩
  | .balanced, .claude => ⟨true, percent 40, some (percent 70), none⟩
  | .balanced, .claudeApi => ⟨false, percent 0, none, none⟩
  | .balanced, .codex => ⟨true, percent 40, some (percent 70), none⟩
  | .balanced, .grok => ⟨true, percent 0, none, none⟩
  | .balanced, .local => ⟨true, percent 0, none, none⟩
  | .balanced, .devin => ⟨true, percent 0, none, none⟩
  | .reserve, .claude => ⟨true, percent 85, some (percent 50), none⟩
  | .reserve, .claudeApi => ⟨false, percent 0, none, none⟩
  | .reserve, .codex => ⟨false, percent 85, some (percent 50), none⟩
  | .reserve, .grok => ⟨true, percent 85, none, none⟩
  | .reserve, .local => ⟨true, percent 0, none, none⟩
  | .reserve, .devin => ⟨false, percent 100, none, none⟩

def defaultSeatPolicy (mode : BudgetMode) (seatId : SeatId) (engine : BudgetEngine) :
    SeatBudgetPolicy :=
  let base := modeDefaults mode engine
  ⟨seatId, none, base.enabled, base.reservePercent, base.maxSessionWindowPercent, base.dailyUsdCap⟩

section Defaults

variable (mode : BudgetMode) (seatId : SeatId) (engine : BudgetEngine)

@[simp] theorem defaultSeatPolicy_enabled :
    (defaultSeatPolicy mode seatId engine).enabled = (modeDefaults mode engine).enabled := rfl

@[simp] theorem defaultSeatPolicy_reservePercent :
    (defaultSeatPolicy mode seatId engine).reservePercent =
      (modeDefaults mode engine).reservePercent := rfl

@[simp] theorem defaultSeatPolicy_maxSessionWindowPercent :
    (defaultSeatPolicy mode seatId engine).maxSessionWindowPercent =
      (modeDefaults mode engine).maxSessionWindowPercent := rfl

@[simp] theorem defaultSeatPolicy_dailyUsdCap :
    (defaultSeatPolicy mode seatId engine).dailyUsdCap = none := by
  cases mode <;> cases engine <;> rfl

end Defaults

def effectiveSeatPolicy (policy : BudgetPolicy) (seatId : SeatId) (engine : BudgetEngine) :
    SeatBudgetPolicy :=
  match policy.seats.get? seatId with
  | some stored => { stored with seatId := seatId }
  | none => defaultSeatPolicy policy.mode seatId engine

theorem effectiveSeatPolicy_stored {policy : BudgetPolicy} {seatId : SeatId}
    {stored : SeatBudgetPolicy} (found : policy.seats.get? seatId = some stored)
    (engine : BudgetEngine) :
    effectiveSeatPolicy policy seatId engine = { stored with seatId := seatId } := by
  rw [effectiveSeatPolicy, found]

theorem effectiveSeatPolicy_default {policy : BudgetPolicy} {seatId : SeatId}
    (absent : policy.seats.get? seatId = none) (engine : BudgetEngine) :
    effectiveSeatPolicy policy seatId engine = defaultSeatPolicy policy.mode seatId engine := by
  rw [effectiveSeatPolicy, absent]

/-! One policy that leaves autonomy no more room than another. -/

/-- An upper bound, where an absent one is no bound: `tight` is at most `loose`. -/
def CapAtMost {α : Type} [LE α] (tight loose : Option α) : Prop :=
  ∀ bound ∈ loose, ∃ cap ∈ tight, cap ≤ bound

theorem CapAtMost.refl {α : Type} [Preorder α] (cap : Option α) : CapAtMost cap cap :=
  fun bound present => ⟨bound, present, le_refl bound⟩

theorem CapAtMost.none {α : Type} [LE α] (tight : Option α) : CapAtMost tight none :=
  fun _ absent => nomatch absent

/-- `tight` allows autonomy nothing that `loose` does not. -/
structure SeatBudgetPolicy.Tightens (tight loose : SeatBudgetPolicy) : Prop where
  enabled : tight.enabled = true → loose.enabled = true
  reserve : loose.reservePercent ≤ tight.reservePercent
  session : CapAtMost tight.maxSessionWindowPercent loose.maxSessionWindowPercent
  usd : CapAtMost tight.dailyUsdCap loose.dailyUsdCap

theorem modeDefaults_mono {low high : BudgetMode} (le : low.rank ≤ high.rank)
    (engine : BudgetEngine) :
    ((modeDefaults low engine).enabled = true →
      ¬ (low = .balanced ∧ high = .allIn ∧ engine = .codex) →
        (modeDefaults high engine).enabled = true) ∧
      (modeDefaults high engine).reservePercent ≤ (modeDefaults low engine).reservePercent ∧
      CapAtMost (modeDefaults low engine).maxSessionWindowPercent
        (modeDefaults high engine).maxSessionWindowPercent := by
  refine ⟨?_, ?_, ?_⟩
  · cases low <;> cases high <;> cases engine <;> first | exact absurd le (by decide) | decide
  · cases low <;> cases high <;>
      first | exact absurd le (by decide) | (cases engine <;> first | exact le_refl _ | decide)
  · cases low <;> cases high <;>
      first
        | exact absurd le (by decide)
        | exact CapAtMost.refl _
        | (cases engine <;> first | exact CapAtMost.none _ | simp [modeDefaults, CapAtMost])

end AshlrHub.Routing
