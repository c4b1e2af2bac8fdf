import AshlrHub.Authority.Clamp
import AshlrHub.Js.LowerCase

namespace AshlrHub.MergeGates

open Js Authority

/-! Model families, and who may judge whose work. -/

inductive ReviewModelFamily where
  | claude
  | openai
  | xai
  | localModel
  | unknown
  | devin
  -- what the table of engines inherits from the prototype of every object
  | inherited (key : JsString)
deriving DecidableEq

def ReviewModelFamily.text : ReviewModelFamily → JsString
  | .claude => js "claude"
  | .openai => js "openai"
  | .xai => js "xai"
  | .localModel => js "local"
  | .unknown => js "unknown"
  | .devin => js "devin"
  | .inherited key =>
      if key = js "constructor" then js "function Object() \x7b [native code] \x7d"
      else js "[object Object]"

/-- `/[/:._-]/` -/
def isTokenBreak (unit : CodeUnit) : Bool :=
  unit = 0x2F || unit = 0x3A || unit = 0x2E || unit = 0x5F || unit = 0x2D

def hasToken (model token : JsString) : Bool :=
  (model.splitOnP isTokenBreak).contains token

def localTokens : List JsString :=
  [js "local", js "ollama", js "qwen", js "llama", js "deepseek", js "kimi", js "nim",
    js "builtin", js "ashlrcode", js "aw", js "hermes", js "gemini", js "mistral", js "moonshot"]

def agentSemanticModelFamily (value : JsString) : ReviewModelFamily :=
  let model := toLowerCase value
  if [js "claude", js "anthropic"].any (hasToken model) then .claude
  else if [js "gpt", js "codex", js "openai"].any (hasToken model) then .openai
  else if [js "grok", js "xai"].any (hasToken model) then .xai
  else if localTokens.any (hasToken model) then .localModel
  else .unknown

def reviewEngineFamilies : List (JsString × ReviewModelFamily) :=
  [(js "anthropic", .claude), (js "claude", .claude), (js "claude-cli", .claude),
    (js "codex", .openai), (js "openai", .openai), (js "grok", .xai), (js "grok-cli", .xai),
    (js "xai", .xai), (js "local", .localModel), (js "local-coder", .localModel),
    (js "llama-server", .localModel), (js "builtin", .localModel),
    (js "ashlrcode", .localModel), (js "aw", .localModel), (js "hermes", .localModel),
    (js "kimi", .localModel), (js "nim", .localModel), (js "ollama", .localModel),
    (js "opencode", .localModel), (js "gemini", .localModel), (js "mistral", .localModel),
    (js "moonshot", .localModel), (js "moonshotai", .localModel), (js "devin", .devin),
    (js "devin-cli", .devin),
    -- the inherited members whose names `toLowerCase` leaves as they are
    (js "constructor", .inherited (js "constructor")),
    (js "__proto__", .inherited (js "__proto__"))]

def engineKeepsFamily (engineFamily : ReviewModelFamily) : Bool :=
  engineFamily = .devin

def separatorIndex (normalized : JsString) : Option ℕ :=
  normalized.findIdx? fun unit => unit = 0x3A || unit = 0x2F

def compositeFamily (modelFamily : JsString → ReviewModelFamily) :
    Option JsString → ReviewModelFamily
  | none => .unknown
  | some value =>
      let normalized := toLowerCase (trim value)
      if normalized = [] then .unknown
      else match separatorIndex normalized with
        | none | some 0 => modelFamily normalized
        | some separator =>
            match reviewEngineFamilies.lookup (normalized.take separator) with
            | none => .unknown
            | some engineFamily =>
                if engineKeepsFamily engineFamily then engineFamily
                else
                  let model := modelFamily (normalized.drop (separator + 1))
                  if model ≠ .unknown ∧ model ≠ engineFamily then .unknown else engineFamily

def reviewModelFamily : Option JsString → ReviewModelFamily :=
  compositeFamily agentSemanticModelFamily

def producerModelFamily : Option JsString → ReviewModelFamily :=
  compositeFamily fun model => reviewModelFamily (some model)

structure ReviewerIndependenceVerdict where
  independent : Bool
  producerFamily : ReviewModelFamily
  reviewerFamily : ReviewModelFamily
  reason : JsString

section

variable (producerModel : Option JsString)

def evaluateReviewerIndependence (reviewerModel : JsString) : ReviewerIndependenceVerdict :=
  let producer := producerModelFamily producerModel
  let reviewer := reviewModelFamily (some reviewerModel)
  if producer = .unknown then
    ⟨false, producer, reviewer,
      js "reviewer independence denied: signed producer family is unknown"⟩
  else if reviewer = .unknown then
    ⟨false, producer, reviewer, js "reviewer independence denied: reviewer family is unknown"⟩
  else if producer = reviewer then
    ⟨false, producer, reviewer, js "reviewer independence denied: producer and reviewer are both "
      ++ producer.text ++ js " family"⟩
  else
    ⟨true, producer, reviewer, js "reviewer independence proven: " ++ producer.text ++
      js " producer and " ++ reviewer.text ++ js " reviewer"⟩

def isLowerAlnum (unit : CodeUnit) : Bool :=
  isLower unit || isDigit unit

/-- `/^grok-\d+(?:\.\d+)*(?:-[a-z0-9]+)*$/` -/
def grokJudgeModel (model : JsString) : Bool :=
  match model.splitOnP (· = 0x2D) with
  | grok :: version :: suffixes =>
      grok = js "grok" &&
        (version.splitOnP (· = 0x2E)).all (fun part => !part.isEmpty && part.all isDigit) &&
        suffixes.all fun part => !part.isEmpty && part.all isLowerAlnum
  | _ => false

def claudeJudgeEngines : List JsString := [js "claude", js "claude-cli", js "anthropic"]

def openaiJudgeEngines : List JsString := [js "codex", js "openai"]

def isOpenAiFrontierModel (model : JsString) : Bool :=
  (js "gpt-5").isPrefixOf model || (js "gpt-6").isPrefixOf model ||
    (js "codex-").isPrefixOf model || model = js "codex"

/-- Whether a recorded judge identity may carry merge authority. -/
def isFrontierJudgeId (judgeEngine : JsString) : Bool :=
  let lc := toLowerCase (trim judgeEngine)
  if lc = [] ∨ lc = js "unknown" ∨ lc = js "local" then false
  else match separatorIndex lc with
    | none | some 0 =>
        if agentSemanticModelFamily lc = .xai then false
        else if lc.tails.any (js "claude").isPrefixOf then true
        else isOpenAiFrontierModel lc
    | some separator =>
        let engine := lc.take separator
        let model := lc.drop (separator + 1)
        if model = [] then false
        else if engine = js "grok-cli" then
          lc[separator]? = some 0x3A && grokJudgeModel model &&
            agentSemanticModelFamily model = .xai
        else if engine ∈ claudeJudgeEngines then agentSemanticModelFamily model = .claude
        else if engine ∈ openaiJudgeEngines then isOpenAiFrontierModel model
        else false

structure JudgeEligibility where
  eligible : Bool
  frontier : Bool
  independence : ReviewerIndependenceVerdict
  reason : JsString

def evaluateJudgeEligibility (judgeId : JsString) : JudgeEligibility :=
  let independence := evaluateReviewerIndependence producerModel judgeId
  let frontier := isFrontierJudgeId judgeId
  if frontier = false then
    ⟨false, frontier, independence, js ("judge refused: not a frontier judge (a local, " ++
      "unknown or non-seat xAI judge never attests)")⟩
  else if independence.independent = false then
    ⟨false, frontier, independence, js "judge refused: " ++ independence.reason⟩
  else ⟨true, frontier, independence, independence.reason⟩

def devinMinJudgeFamilies : ℕ := 2

def requiresTwoJudges (producerFamily : ReviewModelFamily) : Bool :=
  producerFamily = .devin

structure TwoJudgeVerdict where
  satisfied : Bool
  families : List ReviewModelFamily
  reason : JsString

def countedFamily (judgeId : JsString) : Option ReviewModelFamily :=
  if (evaluateJudgeEligibility producerModel judgeId).eligible = false then none
  else
    let family := reviewModelFamily (some judgeId)
    if family = .devin ∨ family = .unknown ∨ family = .localModel then none else some family

def addFamily (families : List ReviewModelFamily) :
    Option ReviewModelFamily → List ReviewModelFamily
  | none => families
  | some family => if family ∈ families then families else families ++ [family]

def evaluateTwoJudgeRule (judgeIds : List JsString) : TwoJudgeVerdict :=
  let families :=
    (judgeIds.map (countedFamily producerModel)).foldl addFamily []
  let satisfied : Bool := devinMinJudgeFamilies ≤ families.length
  ⟨satisfied, families,
    if satisfied then
      js "two-judge rule met: " ++
        List.intercalate (js " and ") (families.map ReviewModelFamily.text) ++
        js " judges both shipped it"
    else match families with
      | [only] => js "two-judge rule: only a " ++ only.text ++
          js " judge has shipped it; a judge from a second family must too"
      | _ => js "two-judge rule: no eligible judge has shipped it yet"⟩

end

theorem eligible_families {producerModel : Option JsString} {judgeId : JsString}
    (eligible : (evaluateJudgeEligibility producerModel judgeId).eligible = true) :
    reviewModelFamily (some judgeId) ≠ .unknown ∧
      producerModelFamily producerModel ≠ reviewModelFamily (some judgeId) := by
  have independent :
      (evaluateReviewerIndependence producerModel judgeId).independent = true := by
    dsimp only [evaluateJudgeEligibility] at eligible
    split_ifs at eligible with refused denied
    exact eq_true_of_ne_false denied
  dsimp only [evaluateReviewerIndependence] at independent
  split_ifs at independent with noProducer noReviewer same
  exact ⟨noReviewer, same⟩

theorem evaluateTwoJudgeRule_pair {producerModel : Option JsString} {first second : JsString}
    (devin : producerModelFamily producerModel = .devin)
    (firstEligible : (evaluateJudgeEligibility producerModel first).eligible = true)
    (secondEligible : (evaluateJudgeEligibility producerModel second).eligible = true)
    (apart : reviewModelFamily (some first) ≠ reviewModelFamily (some second)) :
    (evaluateTwoJudgeRule producerModel [first, second]).satisfied = true ↔
      reviewModelFamily (some first) ≠ .localModel ∧
        reviewModelFamily (some second) ≠ .localModel := by
  have counts : ∀ judgeId, (evaluateJudgeEligibility producerModel judgeId).eligible = true →
      countedFamily producerModel judgeId =
        if reviewModelFamily (some judgeId) = .localModel then none
        else some (reviewModelFamily (some judgeId)) := by
    intro judgeId eligible
    obtain ⟨known, other⟩ := eligible_families eligible
    rw [devin] at other
    simp [countedFamily, eligible, known, other.symm]
  simp only [evaluateTwoJudgeRule, List.map_cons, List.map_nil, counts first firstEligible,
    counts second secondEligible, List.foldl_cons, List.foldl_nil, decide_eq_true_eq]
  by_cases firstLocal : reviewModelFamily (some first) = .localModel
  · by_cases secondLocal : reviewModelFamily (some second) = .localModel
    · simp [firstLocal, secondLocal, addFamily, devinMinJudgeFamilies]
    · simp [firstLocal, secondLocal, addFamily, devinMinJudgeFamilies]
  · by_cases secondLocal : reviewModelFamily (some second) = .localModel
    · simp [firstLocal, secondLocal, addFamily, devinMinJudgeFamilies]
    · simp [firstLocal, secondLocal, addFamily, devinMinJudgeFamilies, apart.symm]

end AshlrHub.MergeGates
