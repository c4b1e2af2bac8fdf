import AshlrHub.Js.Line
import AshlrHub.Authority.PathGlob

namespace AshlrHub.Authority

open Js

/-! The paths a fleet may not merge. -/

inductive ProtectedPathScope where
  | allRepos
  | selfRepo
deriving DecidableEq

structure ProtectedPathRule where
  id : JsString
  scope : ProtectedPathScope
  patterns : List String
  why : JsString

structure ProtectedPathHit where
  path : JsString
  ruleId : JsString
  why : JsString

def tier1SourcePatterns : List String :=
  ["src/core/integrations/locus-job-env.ts", "src/core/integrations/locus.ts",
    "src/core/vision/leader-display-text.ts", "src/core/authority/**", "src/core/desktop/**",
    "desktop/src-tauri/src/native_metadata_launch.rs", "desktop/src-tauri/src/main.rs",
    "desktop/src-tauri/src/lib.rs", "src/core/run/desktop-metadata-launch-trust.ts",
    "src/cli/desktop-update.ts", "src/cli/desktop.ts", "scripts/desktop-release-policy.mjs",
    "scripts/finalize-desktop-update.mjs", "src/core/daemon/activation-permit.ts",
    "src/core/daemon/tick-hooks.ts", "src/core/daemon/loop.ts",
    "src/core/daemon/count-preferences.ts", "src/core/daemon/outcome-*.ts",
    "src/core/daemon/post-merge-halt.ts", "src/core/daemon/liveness.ts",
    "src/core/devin/session-state.ts", "src/core/daemon/service.ts",
    "src/core/daemon/service-install-authority.ts", "src/core/daemon/service-config.ts",
    "src/core/inbox/merge.ts", "src/core/fleet/automerge-pass.ts", "src/core/fleet/host-merge.ts",
    "src/core/fleet/merge-gates.ts", "src/core/fleet/standing-merge-pass.ts",
    "src/core/fleet/fleet-merge-state.ts", "src/core/fleet/verify-check-run.ts",
    "src/core/fleet/maintainer-pr-verification.ts", "src/core/fleet/maintainer-pr-runner.ts",
    "src/core/fleet/maintainer-cargo-dependencies.ts", "src/cli/maintainer-verify.ts",
    "src/core/website/**", "src/cli/website.ts", "src/core/release-public-facts.ts",
    "src/core/release-articles.ts", "src/cli/release-articles.ts",
    "src/core/fleet/cloud-intake.ts", "src/core/fleet/post-merge-watch.ts",
    "src/core/fleet/quarantine.ts", "src/core/fleet/regression-sentinel.ts",
    "src/core/fleet/dispatch-router.ts", "src/core/fleet/backpressure.ts",
    "src/core/fleet/mirrors.ts", "src/core/fleet/tick-hooks-live.ts",
    "src/core/devin/cli-admission.ts", "src/core/fleet/manager.ts",
    "src/core/fleet/reviewer-independence.ts", "src/core/fleet/subscription-usage.ts",
    "src/core/fleet/router.ts", "src/core/run/best-of-n.ts", "src/core/run/best-of-n-policy.ts",
    "src/core/vision/leader.ts", "src/core/vision/leader-seat.ts",
    "src/core/goals/preferences.ts", "src/core/goals/outcome-*.ts",
    "src/core/vision/leader-outcomes.ts", "src/core/verse/outcomes-*.ts",
    "src/core/verse/manager-scope.ts", "src/core/verse/manager-conversation.ts",
    "src/core/verse/manager-session.ts", "src/core/vision/leader-preferences.ts",
    "src/core/sandbox/**", "src/core/policy/**", "src/core/routing/**",
    "src/core/foundry/provenance.ts", "src/core/run/sandboxed-engine.ts",
    "src/core/run/engine-registry.ts", "src/core/resources/native-profile.ts",
    "src/core/vision/leader-apply.ts", "src/core/learn/harness-registry.ts",
    "src/core/learn/experiments.ts", "src/core/local-eval/tasks-heldout.ts",
    "src/core/autonomy/host-merge-revocation-protocol.ts",
    "src/core/learning/agent-semantic-events.ts", "src/core/verse/authority-api.ts",
    "src/cli/authority.ts"]

def tier1TestStems : List String :=
  ["authority", "activation", "standing", "grant", "grants", "custody", "trust", "kill", "enroll",
    "enrollment", "tick-hooks", "loop", "post-merge", "liveness", "daemon-gates", "merge",
    "automerge", "host-merge", "merge-gate", "merge-gates", "gate", "gates", "protected-paths",
    "closure", "quarantine", "regression-sentinel", "dispatch-router", "backpressure", "mirror",
    "mirrors", "manager", "reviewer-independence", "judge-independence", "independence",
    "sandbox", "confine", "confinement", "mutation-fence", "safe-git", "policy", "routing",
    "router", "budget", "provenance", "sandboxed-engine", "leader-apply", "harness-registry",
    "revocation", "agent-semantic", "home-isolation", "tier1", "engine-registry",
    "native-profile", "experiments", "heldout", "tasks-heldout", "best-of-n",
    "subscription-usage", "leader-seat", "reserve-breach"]

def ciConfigRule : ProtectedPathRule where
  id := js "ci-config"
  scope := .allRepos
  patterns :=
    [".github/**", ".gitlab-ci.yml", ".gitlab/**", ".circleci/**", ".buildkite/**", ".travis.yml",
      "azure-pipelines.yml", "Jenkinsfile", "bitbucket-pipelines.yml", ".woodpecker.yml",
      ".woodpecker/**"]
  why := js "CI configuration decides which checks guard the default branch; only Mason changes it"

def codeownersRule : ProtectedPathRule where
  id := js "codeowners"
  scope := .allRepos
  patterns := ["CODEOWNERS", ".github/CODEOWNERS", "docs/CODEOWNERS", ".gitlab/CODEOWNERS"]
  why := js "CODEOWNERS is the server-side copy of the owner lane"

def manifestRule : ProtectedPathRule where
  id := js "manifest"
  scope := .allRepos
  patterns :=
    ["**/package.json", "**/package-lock.json", "**/npm-shrinkwrap.json", "**/pnpm-lock.yaml",
      "**/pnpm-workspace.yaml", "**/yarn.lock", "**/bun.lockb", "**/bun.lock", "**/.npmrc",
      "**/.yarnrc", "**/.yarnrc.yml", "**/.pnpmfile.cjs", "**/ashlr.verify.json", "**/Cargo.toml",
      "**/Cargo.lock", "**/go.mod", "**/go.sum", "**/go.work", "**/pyproject.toml",
      "**/poetry.lock", "**/uv.lock", "**/requirements*.txt", "**/Pipfile", "**/Pipfile.lock",
      "**/setup.py", "**/setup.cfg", "**/Gemfile", "**/Gemfile.lock", "**/*.gemspec",
      "**/Package.swift", "**/Package.resolved", "**/composer.json", "**/composer.lock",
      "**/deno.json", "**/deno.jsonc", "**/deno.lock"]
  why := js "manifests and lockfiles run code at install time and choose which verify commands run"

def verifyConfigRule : ProtectedPathRule where
  id := js "verify-config"
  scope := .allRepos
  patterns :=
    ["**/tsconfig*.json", "**/mypy.ini", "**/.mypy.ini", "**/ruff.toml", "**/.ruff.toml",
      "**/pytest.ini", "**/tox.ini"]
  why := js "verify configuration decides what the post-merge checks actually check"

def buildAndHooksRule : ProtectedPathRule where
  id := js "build-and-hooks"
  scope := .allRepos
  patterns :=
    ["**/Dockerfile", "**/Dockerfile.*", "**/*.dockerfile", "**/docker-compose*.yml",
      "**/docker-compose*.yaml", "**/compose.yml", "**/compose.yaml", "**/Makefile",
      "**/justfile", ".gitattributes", ".gitmodules", "**/.gitattributes", ".husky/**",
      ".githooks/**", ".pre-commit-config.yaml", "lefthook.yml", ".lefthook.yml", "**/.envrc",
      ".devcontainer/**", ".vscode/**"]
  why := js "build files, git attributes and hook managers execute code on Mason's machine"

def releaseToolingRule : ProtectedPathRule where
  id := js "release-tooling"
  scope := .allRepos
  patterns :=
    ["scripts/release*", "scripts/**/release*", "scripts/build*", "scripts/*authority*",
      "scripts/install-custody*", "scripts/hosted-build-artifact.mjs", "scripts/ship-local.mjs",
      "scripts/local-app-transaction.mjs", "scripts/install-desktop-artifacts.mjs",
      "tools/custody/**", "**/*.plist", "**/*.entitlements", "**/src-tauri/capabilities/**",
      "**/src-tauri/tauri.conf.json", "**/src-tauri/tauri.*.conf.json"]
  why := js "release, build, custody and launchd tooling ship or run with Mason's authority"

def secretsRule : ProtectedPathRule where
  id := js "secrets"
  scope := .allRepos
  patterns :=
    ["**/*.pem", "**/*.key", "**/*.p12", "**/*.pfx", "**/*.p8", "**/*.jks", "**/*.keystore",
      "**/*.kdbx", "**/*.gpg", "**/.env", "**/.env.*", "**/id_rsa*", "**/id_ed25519*",
      "**/id_ecdsa*", "**/secrets/**", "**/.secrets/**"]
  why := js "secret material never moves through a fleet PR"

def authorityDocRule : ProtectedPathRule where
  id := js "authority-doc"
  scope := .allRepos
  patterns :=
    ["docs/RUNTIME_ACTIVATION_AUTHORITY.md", "docs/**/*AUTHORITY*", "docs/**/*authority*"]
  why := js "the authority documentation is the human contract for what the fleet may do"

def tier1AuthorityCodeRule : ProtectedPathRule where
  id := js "tier1-authority-code"
  scope := .selfRepo
  patterns := tier1SourcePatterns
  why :=
    js "Tier-1 authority code: the fleet may never change the code that decides what the fleet may do"

def tier1TestInfraRule : ProtectedPathRule where
  id := js "tier1-test-infra"
  scope := .selfRepo
  patterns :=
    ["test/setup/**", "test/config/**", "test/fixtures/authority/**", "vitest.config*",
      "vitest.workspace*"]
  why := js "test setup and build config decide which tests run and whether HOME is isolated"

def protectedPathRules : List ProtectedPathRule :=
  [ciConfigRule, codeownersRule, manifestRule, verifyConfigRule, buildAndHooksRule,
    releaseToolingRule, secretsRule, authorityDocRule, tier1AuthorityCodeRule, tier1TestInfraRule]

/-! Normalizing a path. -/

def isControlUnit (unit : CodeUnit) : Bool :=
  unit ≤ 0x1F || unit == 0x7F

def stripDotSlash : JsString → JsString
  | 0x2E :: 0x2F :: rest => stripDotSlash rest
  | path => path

/-- The path relative to the repository, in POSIX form; none where it cannot be trusted. -/
def normalizeRepoPath (raw : JsString) : Option JsString :=
  if raw.length = 0 || 4096 < raw.length then none
  else if raw.any isControlUnit then none
  else
    let p := stripDotSlash (raw.map fun unit => if unit = 0x5C then slash else unit)
    if p.head? = some slash || p.length = 0 then none
    else
      let segments := p.splitOn slash
      if segments.any fun segment => segment = [] || segment = js "." || segment = js ".." then
        none
      else if segments.any fun segment => toLowerCase segment = js ".git" then none
      else some p

/-! Tests that guard Tier-1 code. -/

/-- `/source/.test(input)` -/
def regExpTest (source : String) (input : JsString) : Bool :=
  (RegExp.parse (js source)).any (·.test input)

def safetyFilePatterns : List String :=
  ["^test\\/h\\d+[.-].*\\.test\\.ts$", "^test\\/m45\\.foundry\\.test\\.ts$",
    "^test\\/m47[._].*\\.test\\.ts$", "^test\\/m51\\.trust\\.test\\.ts$",
    "^test\\/m52\\..*\\.test\\.ts$", "^test\\/m54\\..*\\.test\\.ts$", "daemon-gates",
    "proposal-only", "\\.safety\\."]

def isSafetyTestFile (path : JsString) : Bool :=
  let p := if (js "./").isPrefixOf path then path.drop 2 else path
  safetyFilePatterns.any fun re => regExpTest re p

/-- `text.split(/[._-]+/)` without the empty pieces. -/
def tokensOf (text : JsString) : List JsString :=
  (text.splitOnP fun unit => (js "._-").contains unit).filter fun token => 0 < token.length

def basenameTokens (path : JsString) : List JsString :=
  tokensOf (toLowerCase ((path.splitOn slash).getLastD []))

def containsTokenRun (tokens : List JsString) (stem : JsString) : Bool :=
  let run := tokensOf (toLowerCase stem)
  !run.isEmpty && tokens.tails.any run.isPrefixOf

def isTier1TestPath (path : JsString) (importsTier1 : Bool) : Bool :=
  match normalizeRepoPath path with
  | none => false
  | some normalized =>
      let lower := toLowerCase normalized
      if !(js "test/").isPrefixOf lower then false
      else if importsTier1 then true
      else if isSafetyTestFile normalized then true
      else tier1TestStems.any fun stem => containsTokenRun (basenameTokens lower) (js stem)

/-! The classification of one path. -/

structure ProtectedPathOptions where
  selfRepo : Bool
  testsImportingTier1 : List JsString

def ProtectedPathOptions.reaches (opts : ProtectedPathOptions) (rule : ProtectedPathRule) : Bool :=
  !(rule.scope = .selfRepo && !opts.selfRepo)

def ProtectedPathRule.hits (rule : ProtectedPathRule) (lower : JsString) : Bool :=
  rule.patterns.any fun pattern => (compileGlob (js pattern)).any (·.test lower)

def tier1TestRuleId : JsString := js "tier1-test"

def tier1TestWhy : JsString :=
  js "this test guards Tier-1 authority code; weakening it would weaken the gate it tests"

def unsafePathRuleId : JsString := js "unsafe-path"

def unsafePathWhy : JsString :=
  js ("the diff names a path that cannot be normalized safely (absolute, \"..\", control " ++
    "characters or inside .git)")

def matchProtectedPath (rawPath : JsString) (opts : ProtectedPathOptions) :
    Option ProtectedPathHit :=
  match normalizeRepoPath rawPath with
  | none =>
      some ⟨(rawPath.map fun unit => if isControlUnit unit then 0x3F else unit).take 200,
        unsafePathRuleId, unsafePathWhy⟩
  | some path =>
      let lower := toLowerCase path
      match protectedPathRules.find? fun rule => opts.reaches rule && rule.hits lower with
      | some rule => some ⟨path, rule.id, rule.why⟩
      | none =>
          if opts.selfRepo && isTier1TestPath path (opts.testsImportingTier1.contains path) then
            some ⟨path, tier1TestRuleId, tier1TestWhy⟩
          else none

/-- The path is in a directory that a rule for the repository covers with `dir/**`. -/
def UnderDirectory (opts : ProtectedPathOptions) (path : JsString) : Prop :=
  ∃ rule ∈ protectedPathRules, opts.reaches rule = true ∧
    ∃ pattern ∈ rule.patterns, js "/**" <:+ js pattern ∧ GlobMatches (js pattern) path

def Guarded (opts : ProtectedPathOptions) (path : JsString) : Prop :=
  ∃ rule ∈ protectedPathRules, opts.reaches rule = true ∧
    ∃ pattern ∈ rule.patterns, GlobMatches (js pattern) path ∧
      ¬ Crossed (toLowerCase (js pattern)) (toLowerCase path)

/-! What the rules' patterns and an accepted path have in common. -/

variable {rule : ProtectedPathRule} {pattern : String}

theorem rulePatterns_read (member : rule ∈ protectedPathRules) (inside : pattern ∈ rule.patterns) :
    RuleGlob (toLowerCase (js pattern)) ∧ wholeDirectory (toLowerCase (js pattern)) = true := by
  have allRead : ((protectedPathRules.flatMap (·.patterns)).all fun pattern =>
      isAsciiLiteral pattern && ruleGlob (toLowerCase (literalUnits pattern)) &&
        wholeDirectory (toLowerCase (literalUnits pattern))) = true := by
    decide +kernel
  have read := List.all_eq_true.mp allRead pattern (List.mem_flatMap.mpr ⟨rule, member, inside⟩)
  rw [Bool.and_eq_true, Bool.and_eq_true] at read
  rw [js_literal read.1.1]
  exact ⟨ruleGlob_sound read.1.2, read.2⟩

variable {raw path : JsString}

section

variable (accepted : normalizeRepoPath raw = some path)
include accepted

theorem getLast?_of_normalizeRepoPath :
    path.getLast? ≠ some slash := by
  unfold normalizeRepoPath at accepted
  dsimp only at accepted
  split_ifs at accepted with long control absolute empty dotGit
  rw [Option.some_inj] at accepted
  rw [accepted] at empty
  intro last
  obtain ⟨front, rfl⟩ := List.getLast?_eq_some_iff.mp last
  apply empty
  rw [List.splitOn_append_cons_self, List.any_append, List.splitOn_nil, List.any_cons]
  simp

theorem compileGlob_test (member : rule ∈ protectedPathRules) (inside : pattern ∈ rule.patterns) :
    ∃ re, compileGlob (js pattern) = some re ∧
      ((re.test (toLowerCase path) = true ↔ GlobMatches (js pattern) path) ↔
        ¬ Crossed (toLowerCase (js pattern)) (toLowerCase path)) := by
  obtain ⟨glob, whole⟩ := rulePatterns_read member inside
  obtain ⟨re, parsed, test⟩ := glob.parse_test
  refine ⟨re, parsed, ?_⟩
  rw [test]
  exact globMatch_lines whole fun last =>
    getLast?_of_normalizeRepoPath accepted (getLast?_toLowerCase last)

theorem ProtectedPathRule.hits_iff (member : rule ∈ protectedPathRules) :
    rule.hits (toLowerCase path) = true ↔
      ∃ pattern ∈ rule.patterns, GlobMatches (js pattern) path ∧
        ¬ Crossed (toLowerCase (js pattern)) (toLowerCase path) := by
  rw [ProtectedPathRule.hits, List.any_eq_true]
  refine exists_congr fun pattern => and_congr_right fun inside => ?_
  obtain ⟨re, compiled, agree⟩ := compileGlob_test accepted member inside
  rw [compiled, Option.any_some]
  by_cases crossed : Crossed (toLowerCase (js pattern)) (toLowerCase path)
  · have matched : GlobMatches (js pattern) path :=
      crossed.globMatch (rulePatterns_read member inside).2
    constructor
    · intro tested
      exact absurd crossed (agree.mp ⟨fun _ => matched, fun _ => tested⟩)
    · rintro ⟨-, notCrossed⟩
      exact absurd crossed notCrossed
  · rw [agree.mpr crossed]
    exact (and_iff_left crossed).symm

theorem matchProtectedPath_hits (opts : ProtectedPathOptions) :
    (matchProtectedPath raw opts).isSome = true ↔
      (∃ rule ∈ protectedPathRules, (opts.reaches rule && rule.hits (toLowerCase path)) = true) ∨
        (opts.selfRepo &&
          isTier1TestPath path (opts.testsImportingTier1.contains path)) = true := by
  rw [matchProtectedPath, accepted]
  dsimp only
  cases found : protectedPathRules.find? fun rule =>
      opts.reaches rule && rule.hits (toLowerCase path) with
  | none =>
      have noRule : ¬ ∃ rule ∈ protectedPathRules,
          (opts.reaches rule && rule.hits (toLowerCase path)) = true := by
        rintro ⟨rule, member, hit⟩
        exact List.find?_eq_none.mp found rule member hit
      dsimp only
      rw [or_iff_right noRule]
      split_ifs with tier1
      · exact iff_of_true rfl tier1
      · exact iff_of_false Bool.false_ne_true tier1
  | some rule =>
      have hit := List.find?_some found
      exact iff_of_true rfl (.inl ⟨rule, List.mem_of_find?_eq_some found, hit⟩)

theorem matchProtectedPath_isSome (opts : ProtectedPathOptions) :
    (matchProtectedPath raw opts).isSome = true ↔
      Guarded opts path ∨ (opts.selfRepo &&
        isTier1TestPath path (opts.testsImportingTier1.contains path)) = true := by
  rw [matchProtectedPath_hits accepted]
  refine or_congr_left (exists_congr fun rule => and_congr_right fun member => ?_)
  rw [Bool.and_eq_true, rule.hits_iff accepted member]

end

/-- For every accepted path: a rule's pattern is matched as its glob says exactly where the
path does not cross a line under it, and a path under a `dir/**` rule is classified as
protected exactly where it does not cross a line under every pattern it matches, or is a test
that guards Tier-1 code. -/
theorem matchProtectedPath_follows_globs {raw path : JsString}
    (accepted : normalizeRepoPath raw = some path) :
    (∀ rule ∈ protectedPathRules, ∀ pattern ∈ rule.patterns,
      ∃ re, compileGlob (js pattern) = some re ∧
        ((re.test (toLowerCase path) = true ↔ GlobMatches (js pattern) path) ↔
          ¬ Crossed (toLowerCase (js pattern)) (toLowerCase path))) ∧
    ∀ opts : ProtectedPathOptions,
      (UnderDirectory opts path → (matchProtectedPath raw opts).isSome = true) ↔
        (UnderDirectory opts path → Guarded opts path ∨ (opts.selfRepo &&
          isTier1TestPath path (opts.testsImportingTier1.contains path)) = true) := by
  constructor
  · intro rule member pattern inside
    exact compileGlob_test accepted member inside
  · intro opts
    rw [matchProtectedPath_isSome accepted opts]

/-- A file under `.github` whose name is a line separator. -/
def separatorPath : JsString := js ".github/" ++ [0x2028]

theorem separatorPath_matches : GlobMatches (js ".github/**") separatorPath := by
  have pattern : toLowerCase (js ".github/**") = js ".github/" ++ js "**" := by decide +kernel
  have path : toLowerCase separatorPath = js ".github/" ++ [0x2028] := by decide +kernel
  rw [GlobMatches, pattern, path]
  exact (GlobMatch.literal (by decide +kernel)).appendRest (by decide +kernel) (by simp)

section

variable (member : rule ∈ protectedPathRules) (scope : rule.scope = .allRepos)
include member scope

theorem pattern_apart (inside : pattern ∈ rule.patterns) :
    pattern = ".github/**" ∨
      ∃ unit ∈ toLowerCase (js pattern), unit ∉ js "*/" ∧ unit ∉ separatorPath := by
  have apart : ((protectedPathRules.filter (·.scope = .allRepos)).flatMap (·.patterns)).all
      (fun pattern => pattern = ".github/**" || isAsciiLiteral pattern &&
        (toLowerCase (literalUnits pattern)).any fun unit =>
          !(js "*/" ++ separatorPath).contains unit) = true := by
    decide +kernel
  have split := List.all_eq_true.mp apart pattern (List.mem_flatMap.mpr
    ⟨rule, List.mem_filter.mpr ⟨member, decide_eq_true scope⟩, inside⟩)
  rw [Bool.or_eq_true, decide_eq_true_eq, Bool.and_eq_true, List.any_eq_true] at split
  refine split.imp_right ?_
  rintro ⟨ascii, unit, own, foreign⟩
  rw [Bool.not_eq_true', ← Bool.not_eq_true, List.contains_iff_mem, List.mem_append,
    not_or] at foreign
  rw [js_literal ascii]
  exact ⟨unit, own, foreign⟩

theorem separatorPath_unmatched : rule.hits separatorPath = false := by
  rw [ProtectedPathRule.hits, List.any_eq_false]
  intro pattern inside
  cases pattern_apart member scope inside with
  | inl github =>
      rw [github]
      decide +kernel
  | inr letter =>
      obtain ⟨unit, own, plain, missing⟩ := letter
      obtain ⟨re, parsed, test⟩ := (rulePatterns_read member inside).1.parse_test
      have compiled : compileGlob (js pattern) = some re := parsed
      rw [compiled, Option.any_some, test]
      intro matched
      exact missing (matched.mem plain own)

end

/-- The path is accepted and lies under a directory of the rules, no matcher takes it, and it
is not protected. -/
theorem matchProtectedPath_misses_separator :
    normalizeRepoPath separatorPath = some separatorPath ∧
      UnderDirectory ⟨false, []⟩ separatorPath ∧
      (∃ rule ∈ protectedPathRules, ∃ pattern ∈ rule.patterns,
        GlobMatches (js pattern) separatorPath ∧
          (compileGlob (js pattern)).any (·.test (toLowerCase separatorPath)) = false) ∧
      matchProtectedPath separatorPath ⟨false, []⟩ = none := by
  have accepted : normalizeRepoPath separatorPath = some separatorPath := by decide +kernel
  have lowered : toLowerCase separatorPath = separatorPath := by decide +kernel
  have rule : ciConfigRule ∈ protectedPathRules := List.mem_cons_self
  have pattern : ".github/**" ∈ ciConfigRule.patterns := List.mem_cons_self
  refine ⟨accepted, ?_, ?_, ?_⟩
  · exact ⟨ciConfigRule, rule, rfl, ".github/**", pattern,
      List.isSuffixOf_iff_suffix.mp (by decide +kernel), separatorPath_matches⟩
  · refine ⟨ciConfigRule, rule, ".github/**", pattern, separatorPath_matches, ?_⟩
    have unmatched := separatorPath_unmatched rule rfl
    rw [ProtectedPathRule.hits, List.any_eq_false] at unmatched
    rw [lowered]
    exact Bool.of_not_eq_true (unmatched _ pattern)
  · rw [← Option.not_isSome_iff_eq_none, matchProtectedPath_hits accepted, lowered]
    rintro (⟨rule, member, hit⟩ | guards)
    · rw [Bool.and_eq_true] at hit
      have scope : rule.scope = .allRepos := by
        cases scope : rule.scope with
        | allRepos => rfl
        | selfRepo =>
            have reaches := hit.1
            rw [ProtectedPathOptions.reaches, scope] at reaches
            cases reaches
      rw [separatorPath_unmatched member scope] at hit
      exact Bool.false_ne_true hit.2
    · rw [Bool.false_and] at guards
      cases guards

/-- An ordinary file under `.github`. -/
theorem matchProtectedPath_follows_globs_workflow :
    (∃ re, compileGlob (js ".github/**") = some re ∧
      (re.test (toLowerCase (js ".github/ci.yml")) = true ↔
        GlobMatches (js ".github/**") (js ".github/ci.yml"))) ∧
    (UnderDirectory ⟨false, []⟩ (js ".github/ci.yml") →
      (matchProtectedPath (js ".github/ci.yml") ⟨false, []⟩).isSome = true) := by
  have computed : normalizeRepoPath (js ".github/ci.yml") = some (js ".github/ci.yml") ∧
      toLowerCase (js ".github/ci.yml") = js ".github/ci.yml" ∧
      (js ".github/ci.yml").all (fun unit => !isLineTerminator unit) = true := by
    decide +kernel
  obtain ⟨accepted, lowered, plain⟩ := computed
  have single : ∀ pattern, ¬ Crossed pattern (toLowerCase (js ".github/ci.yml")) := by
    rintro pattern ⟨dir, -, ⟨front, rest, split, some, matches_⟩, crosses⟩
    obtain ⟨unit, inside, ends⟩ := crosses front rest split some matches_
    rw [lowered] at split
    have here : unit ∈ js ".github/ci.yml" := split ▸ List.mem_append_right front inside
    have apart := List.all_eq_true.mp plain unit here
    rw [ends] at apart
    cases apart
  obtain ⟨globs, guards⟩ := matchProtectedPath_follows_globs accepted
  obtain ⟨re, compiled, follows⟩ := globs ciConfigRule List.mem_cons_self ".github/**"
    List.mem_cons_self
  refine ⟨⟨re, compiled, follows.mpr (single _)⟩, (guards ⟨false, []⟩).mpr ?_⟩
  rintro ⟨rule, member, reaches, pattern, inside, -, matches_⟩
  exact .inl ⟨rule, member, reaches, pattern, inside, matches_, single _⟩

/-! The spellings of one path. -/

def posixUnit (unit : CodeUnit) : CodeUnit :=
  if unit = 0x5C then slash else unit

/-- A path as its files are named: relative, within the repository and not in `.git`. -/
structure PlainPath (path : JsString) : Prop where
  clean : ∀ unit ∈ path, isControlUnit unit = false ∧ unit ≠ 0x5C
  segments : ∀ segment ∈ path.splitOn slash, segment ≠ [] ∧ segment ≠ js "." ∧
    segment ≠ js ".." ∧ toLowerCase segment ≠ js ".git"

/-- `./` any number of times and then the path, where a slash may be a backslash. -/
def SpellsPath (raw path : JsString) : Prop :=
  raw.length ≤ 4096 ∧ ∃ dots, raw.map posixUnit = (List.replicate dots (js "./")).flatten ++ path

theorem stripDotSlash_dots (dots : ℕ) (path : JsString) :
    stripDotSlash ((List.replicate dots (js "./")).flatten ++ path) = stripDotSlash path := by
  induction dots with
  | zero => rfl
  | succ dots ih =>
      rw [List.replicate_succ, List.flatten_cons, List.append_assoc]
      exact ih

theorem exists_stripDotSlash (path : JsString) :
    ∃ dots, path = (List.replicate dots (js "./")).flatten ++ stripDotSlash path := by
  induction path using stripDotSlash.induct with
  | case1 rest ih =>
      obtain ⟨dots, same⟩ := ih
      refine ⟨dots + 1, ?_⟩
      rw [List.replicate_succ, List.flatten_cons, List.append_assoc, stripDotSlash, ← same]
      rfl
  | case2 path other =>
      refine ⟨0, ?_⟩
      rw [stripDotSlash]
      · rfl
      · exact other

theorem isControlUnit_posixUnit (unit : CodeUnit) :
    isControlUnit (posixUnit unit) = isControlUnit unit := by
  unfold posixUnit
  split_ifs with backslash
  · rw [backslash]
    rfl
  · rfl

theorem PlainPath.front {front rest : JsString} (plain : PlainPath (front ++ slash :: rest))
    (whole : front ∈ front.splitOn slash) : front ≠ [] ∧ front ≠ js "." := by
  have fine := plain.segments front (by
    rw [List.splitOn_append_cons_self]
    exact List.mem_append_left _ whole)
  exact ⟨fine.1, fine.2.1⟩

section

variable (plain : PlainPath path)
include plain

theorem PlainPath.stripDotSlash : stripDotSlash path = path := by
  rw [Authority.stripDotSlash]
  rintro rest rfl
  exact (@PlainPath.front (js ".") rest plain (by decide)).2 rfl

theorem PlainPath.relative : path.head? ≠ some slash ∧ path ≠ [] := by
  constructor
  · intro absolute
    obtain ⟨rest, rfl⟩ := List.head?_eq_some_iff.mp absolute
    exact (@PlainPath.front [] rest plain (by decide)).1 rfl
  · rintro rfl
    exact (plain.segments [] List.mem_cons_self).1 rfl

theorem PlainPath.accepted (spells : SpellsPath raw path) : normalizeRepoPath raw = some path := by
  obtain ⟨short, dots, same⟩ := spells
  have nonempty : raw ≠ [] := by
    rintro rfl
    exact plain.relative.2 (List.append_eq_nil_iff.mp same.symm).2
  have clean : raw.any isControlUnit = false := by
    refine List.any_eq_false.mpr fun unit member control => ?_
    have image := List.mem_map_of_mem (f := posixUnit) member
    rw [same, List.mem_append] at image
    rw [← isControlUnit_posixUnit] at control
    rcases image with dot | inside
    · obtain ⟨_, piece, member⟩ := List.mem_flatten.mp dot
      rw [List.eq_of_mem_replicate piece] at member
      exact absurd control (List.any_eq_false.mp (by decide) _ member)
    · exact Bool.false_ne_true ((plain.clean _ inside).1.symm.trans control)
  have reads : Authority.stripDotSlash (raw.map posixUnit) = path := by
    rw [same, stripDotSlash_dots, plain.stripDotSlash]
  have named : ((path.splitOn slash).any fun segment =>
      segment = [] || segment = js "." || segment = js "..") = false := by
    refine List.any_eq_false.mpr fun segment member => ?_
    have fine := plain.segments segment member
    simp [fine.1, fine.2.1, fine.2.2.1]
  have outside : ((path.splitOn slash).any fun segment => toLowerCase segment = js ".git") =
      false :=
    List.any_eq_false.mpr fun segment member git =>
      (plain.segments segment member).2.2.2 (of_decide_eq_true git)
  unfold posixUnit at reads
  rw [normalizeRepoPath, if_neg (by simp [nonempty, short]), if_neg (by simp [clean])]
  dsimp only
  rw [reads, if_neg (by simp [plain.relative]), if_neg (by simp [named]),
    if_neg (by simp [outside])]

end

theorem normalizeRepoPath_plain (accepted : normalizeRepoPath raw = some path) :
    PlainPath path ∧ SpellsPath raw path := by
  unfold normalizeRepoPath at accepted
  dsimp only at accepted
  split_ifs at accepted with length control absolute empty dotGit
  obtain ⟨dots, same⟩ := exists_stripDotSlash (raw.map posixUnit)
  rw [Option.some_inj] at accepted
  rw [accepted] at empty dotGit
  rw [show stripDotSlash (raw.map posixUnit) = path from accepted] at same
  simp only [Bool.or_eq_true, decide_eq_true_eq, not_or, not_lt] at length
  refine ⟨⟨fun unit member => ?_, fun segment member => ?_⟩, length.2, dots, same⟩
  · obtain ⟨source, inside, rfl⟩ :=
      List.mem_map.mp (same ▸ List.mem_append_right _ member : unit ∈ raw.map posixUnit)
    rw [isControlUnit_posixUnit]
    refine ⟨Bool.eq_false_iff.mpr fun bad => control (List.any_eq_true.mpr ⟨_, inside, bad⟩), ?_⟩
    unfold posixUnit
    split_ifs with backslash
    · decide
    · exact backslash
  · have fine := mt (fun bad => List.any_eq_true.mpr ⟨segment, member, bad⟩) empty
    have apart := fun git => dotGit (List.any_eq_true.mpr ⟨segment, member, decide_eq_true git⟩)
    simp only [Bool.or_eq_true, decide_eq_true_eq, not_or] at fine
    exact ⟨fine.1.1, fine.1.2, fine.2, apart⟩

/-- What is accepted is exactly the spellings of the plain paths, and each spelling is
classified as the path itself is. -/
theorem matchProtectedPath_spellings :
    (normalizeRepoPath raw = some path ↔ PlainPath path ∧ SpellsPath raw path) ∧
      (normalizeRepoPath raw = some path →
        ∀ opts, matchProtectedPath raw opts = matchProtectedPath path opts) := by
  refine ⟨⟨normalizeRepoPath_plain, fun both => both.1.accepted both.2⟩, fun accepted opts => ?_⟩
  obtain ⟨plain, short, dots, same⟩ := normalizeRepoPath_plain accepted
  have own : SpellsPath path path := by
    refine ⟨?_, 0, ?_⟩
    · have lengths := congrArg List.length same
      rw [List.length_map, List.length_append] at lengths
      omega
    · refine (List.map_congr_left fun unit member => ?_).trans (List.map_id path)
      exact if_neg (plain.clean unit member).2
  rw [matchProtectedPath, matchProtectedPath, accepted, plain.accepted own]

theorem matchProtectedPath_spellings_workflow :
    matchProtectedPath (js ".\\././.github\\ci.yml") ⟨false, []⟩ =
      matchProtectedPath (js ".github/ci.yml") ⟨false, []⟩ :=
  matchProtectedPath_spellings.2 (by decide +kernel) ⟨false, []⟩

end AshlrHub.Authority
