import AshlrHub.Js.Number
import AshlrHub.Lib.Cycling

namespace AshlrHub.Universe

open Js

/-! Manifests of a universe: its metric, its budget and its variants. -/

inductive GenerationKind where
  | localChat (endpoint model : JsString)
  | resourcePool (poolId poolDigest : JsString) (allowedWorkerIds : List JsString)
deriving DecidableEq

structure UniverseGenerationConfig where
  kind : GenerationKind
  files : List JsString
  maxOutputTokens : ℕ
  /-- The context files, where file operations are opted in. -/
  fileOperations : Option (List JsString)
deriving DecidableEq

structure UniverseVariant where
  id : JsString
  niche : JsString
  hypothesis : JsString
  command : Option (List JsString)
  model : Option JsString
  generation : Option UniverseGenerationConfig
deriving DecidableEq

inductive MetricDirection where
  | maximize
  | minimize

structure UniverseMetric where
  direction : MetricDirection
  minImprovement : ℚ

structure UniverseBudget where
  maxTrials : ℕ

structure UniverseManifest where
  id : JsString
  metric : UniverseMetric
  budget : UniverseBudget
  variants : List UniverseVariant
  improves : 0 ≤ metric.minImprovement
  trials : 1 ≤ budget.maxTrials ∧ budget.maxTrials ≤ 64
  bounded : 1 ≤ variants.length ∧ variants.length ≤ 64
  distinct : (variants.map (·.id)).Nodup

open Lib

/-! Which variants a generation runs: the next ones around the list, as many as the budget has. -/

def scheduledCount (manifest : UniverseManifest) : ℕ :=
  min manifest.budget.maxTrials manifest.variants.length

/-- The product stays far below `2 ** 53`: a run's generation is ten thousand at most. -/
def scheduledVariants (manifest : UniverseManifest) (generation : ℕ) : List UniverseVariant :=
  let count := scheduledCount manifest
  let offset := (generation - 1) * count % manifest.variants.length
  (List.range count).filterMap fun index =>
    manifest.variants[(offset + index) % manifest.variants.length]?

def scheduledFrom (manifest : UniverseManifest) (generation generations : ℕ) :
    List UniverseVariant :=
  (List.range generations).flatMap fun later => scheduledVariants manifest (generation + later)

variable {manifest : UniverseManifest} {generation generations : ℕ}

theorem UniverseManifest.nodup_variants (manifest : UniverseManifest) : manifest.variants.Nodup :=
  manifest.distinct.of_map

theorem scheduledVariants_eq_around (manifest : UniverseManifest) (generation : ℕ) :
    scheduledVariants manifest generation =
      around manifest.variants ((generation - 1) * scheduledCount manifest)
        (scheduledCount manifest) :=
  around_mod _ _ _

theorem scheduledFrom_eq_around (started : 1 ≤ generation) :
    scheduledFrom manifest generation generations =
      around manifest.variants ((generation - 1) * scheduledCount manifest)
        (generations * scheduledCount manifest) := by
  rw [← flatMap_around, scheduledFrom]
  congr 1
  funext later
  rw [scheduledVariants_eq_around, ← Nat.add_mul]
  congr 2
  omega

theorem scheduledVariants_nodup (manifest : UniverseManifest) (generation : ℕ) :
    (scheduledVariants manifest generation).Nodup := by
  rw [scheduledVariants_eq_around]
  exact nodup_around manifest.nodup_variants (min_le_right _ _)

/-- `ceil(n / count)` generations. -/
def generationsAround (manifest : UniverseManifest) : ℕ :=
  (manifest.variants.length + scheduledCount manifest - 1) / scheduledCount manifest

theorem length_le_generationsAround (manifest : UniverseManifest) :
    manifest.variants.length ≤ generationsAround manifest * scheduledCount manifest := by
  have positive : 0 < scheduledCount manifest :=
    lt_min (Nat.lt_of_lt_of_le Nat.zero_lt_one manifest.trials.1)
      (Nat.lt_of_lt_of_le Nat.zero_lt_one manifest.bounded.1)
  have rounded := Nat.lt_div_mul_add positive
    (a := manifest.variants.length + scheduledCount manifest - 1)
  unfold generationsAround
  omega

theorem scheduledVariants_fair (manifest : UniverseManifest) (generation generations : ℕ)
    (started : 1 ≤ generation) :
    (∀ first ∈ manifest.variants, ∀ second ∈ manifest.variants,
      (scheduledFrom manifest generation generations).count first ≤
        (scheduledFrom manifest generation generations).count second + 1) ∧
    (∀ later, (scheduledVariants manifest later).Nodup ∧
      (scheduledVariants manifest later).length =
        min manifest.budget.maxTrials manifest.variants.length) ∧
    ∀ variant ∈ manifest.variants,
      variant ∈ scheduledFrom manifest generation (generationsAround manifest) := by
  refine ⟨fun first isFirst second isSecond => ?_,
    fun later => ⟨scheduledVariants_nodup manifest later, ?_⟩, fun variant member => ?_⟩
  · rw [scheduledFrom_eq_around started]
    have more := (@count_around_bounds _ _ ((generation - 1) * scheduledCount manifest)
      (generations * scheduledCount manifest) _ manifest.nodup_variants first isFirst).2
    have less := (@count_around_bounds _ _ ((generation - 1) * scheduledCount manifest)
      (generations * scheduledCount manifest) _ manifest.nodup_variants second isSecond).1
    omega
  · rw [scheduledVariants_eq_around]
    exact length_around (List.length_pos_iff.mp manifest.bounded.1)
  · rw [scheduledFrom_eq_around started]
    exact mem_around manifest.nodup_variants (length_le_generationsAround manifest) member

def threeVariants : UniverseManifest where
  id := js "u"
  metric := ⟨.maximize, 0⟩
  budget := ⟨2⟩
  variants := [js "a", js "b", js "c"].map fun id =>
    ⟨id, js "n", js "h", some [js "run"], none, none⟩
  improves := le_rfl
  trials := by decide
  bounded := by decide
  distinct := by decide

theorem scheduledVariants_fair_three : 1 ≤ 5 ∧ ∀ variant ∈ threeVariants.variants,
    variant ∈ scheduledFrom threeVariants 5 (generationsAround threeVariants) :=
  ⟨by decide, (scheduledVariants_fair threeVariants 5 7 (by decide)).2.2⟩

end AshlrHub.Universe
