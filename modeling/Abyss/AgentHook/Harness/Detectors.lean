import Mathlib.Data.List.Infix
import Abyss.AgentHook.Harness.Config
import Abyss.Mitm.Http.Message

/-! The built-in detectors: what each Harness leaves in the source process and in
the headers of a request. -/
namespace Abyss.AgentHook.Harness
open Abyss.Text Abyss.Mitm Abyss.Mitm.Http

section Source

/-- The attributes of a source process that identities are read from. -/
structure SourceProcess where
  name : Option Str
  executablePath : Option Str
  applicationId : Option Str
  deriving DecidableEq, Repr

structure FlowContext where
  sourceProcess : Option SourceProcess
  deriving DecidableEq, Repr

/-- The process name and the executable path, where the adapter reported them. -/
def SourceProcess.names (source : SourceProcess) : List Str := source.name.toList ++ source.executablePath.toList

/-- Harness identity composed with a separately parsed interaction. -/
structure HarnessDetection where
  harnessId : HarnessId
  version : Option Str
  deriving DecidableEq

/-- The first value of a header, trimmed, unless it is blank or not text. -/
def header (headers : HeaderMap) (name : String) : Option Str :=
  (((headers.getAll (ascii name)).head?.bind toStr).map trim).filter (fun value => !value.isEmpty)

/-- The value of a header, or the empty string. -/
def headerOrEmpty (headers : HeaderMap) (name : String) : Str := (header headers name).getD []

def contains (value : Str) (marker : String) : Bool := decide (marker.toList <:+: value)

def startsWith (value : Str) (front : String) : Bool := decide (front.toList <+: value)

def endsWith (value : Str) (back : String) : Bool := decide (back.toList <:+ value)

def isPathSeparator (c : Char) : Bool := c == '/' || c == '\\'

/-- The part behind the last path separator. -/
def lastSegment (value : Str) : Str := value.rtakeWhile (fun c => !isPathSeparator c)

/-- The version behind the first product token that has one of the prefixes. -/
def clientVersion (userAgent : Str) (prefixes : List String) : Option Str :=
  (userAgent.splitOnP (fun c => c == ' ' || c == ';' || c == ')' || c == '(')).findSome? (fun token =>
    prefixes.findSome? (fun front =>
      (stripFront front.toList (toAsciiLowercase token)).filter (fun version => !version.isEmpty)))

/-- `split_once` at a character. -/
def splitOnce (c : Char) (value : Str) : Option (Str × Str) :=
  if c ∈ value then some (value.takeWhile (· != c), (value.dropWhile (· != c)).tail) else none

end Source

/-- Recognition of one Harness over flow and request metadata. -/
abbrev HarnessDetector := FlowContext → HeaderMap → Str → Option HarnessDetection

/-- What every detector does in the end: report its own Harness if the markers are there. -/
def detection (harness : BuiltInHarness) (marked : Bool) (version : Option Str) : Option HarnessDetection :=
  if marked then some ⟨.ofBuiltIn harness, version⟩ else none

section Codex

def isCodexClient (name : Str) : Bool :=
  let name := toAsciiLowercase name
  ["codex", "codex_cli_rs", "codex-tui", "codex_vscode", "codex_exec", "codex_atlas", "codex_chatgpt_desktop"].any
    (fun client => name == client.toList) || startsWith name "codex "

def normalize (value : Str) : Str := toAsciiLowercase (trim (lastSegment value))

def codexDetector : HarnessDetector := fun flow headers _path =>
  let userAgent := headerOrEmpty headers "user-agent"
  let originator := headerOrEmpty headers "originator"
  let process := (flow.sourceProcess.bind SourceProcess.name).any (fun name => normalize name == "codex".toList)
  let marked := headers.entries.any (fun entry => decide (ascii "x-codex-" <+: entry.1.map asciiLower)) ||
    isCodexClient (userAgent.takeWhile (· != '/')) || isCodexClient originator
  detection .codex (process || marked) (clientVersion userAgent ["codex/tui/", "codex/desktop/", "codex/"])

end Codex

section Claude

def isDesktopProcess (value : Str) : Bool :=
  let value := toAsciiLowercase (trim value)
  value == "claude helper".toList || contains value "/claude.app/"

def claudeDesktopDetector : HarnessDetector := fun flow headers _path =>
  let source := flow.sourceProcess.any (fun source =>
    source.applicationId == some "com.anthropic.claudefordesktop.helper".toList ||
      source.names.any isDesktopProcess)
  let marked := header headers "anthropic-client-platform" == some "desktop_app".toList ||
    header headers "anthropic-client-app" == some "com.anthropic.claudefordesktop".toList
  detection .claudeDesktop (source || marked)
    ((header headers "user-agent").bind (clientVersion · ["claude/"]))

def isClaudeCodeProcess (value : Str) : Bool :=
  let value := toAsciiLowercase (trim value)
  value == "claude".toList || value == "claude.exe".toList || contains value "claude-code" ||
    contains value "claude_code" || endsWith value "\\claude.exe" || endsWith value "/claude"

def claudeCodeDetector : HarnessDetector := fun flow headers path =>
  if contains path "/organizations/" && endsWith path "/completion" then none
  else
    let process := flow.sourceProcess.any (fun source => source.names.any isClaudeCodeProcess)
    let userAgent := headerOrEmpty headers "user-agent"
    let originator := headerOrEmpty headers "originator"
    let combined := toAsciiLowercase (path ++ [' '] ++ userAgent ++ [' '] ++ originator)
    let marked := ["claude-code", "claude_code", "claude-cli", "claude/", "/api/claude_"].any (contains combined)
    detection .claudeCode (process || marked)
      (clientVersion userAgent ["claude-code/", "claude_code/", "claude-cli/", "claude_cli/", "claude/"])

end Claude

section Headers

def deepSeekHarnessDetector : HarnessDetector := fun _flow headers _path =>
  (header headers "user-agent").bind (fun userAgent =>
    detection .deepSeekHarness (startsWith userAgent "deepseek-harness/")
      (clientVersion userAgent ["deepseek-harness/"]))

def hermesDetector : HarnessDetector := fun flow headers _path =>
  let userAgent := headerOrEmpty headers "user-agent"
  let normalized := toAsciiLowercase userAgent
  let marked := (header headers "x-hermes-session-id").isSome || startsWith normalized "hermesagent/" ||
    contains normalized "(hermes agent)" ||
    (header headers "originator").any (fun value => eqIgnoreAsciiCase value "hermes-agent".toList)
  let application := flow.sourceProcess.bind SourceProcess.applicationId ==
    some "com.nousresearch.hermes.managed-python".toList
  -- a compatibility codex_cli_rs version is not reported as Hermes'
  detection .hermes (application || marked) (clientVersion userAgent ["hermesagent/"])

def cursorDetector : HarnessDetector := fun _flow headers _path =>
  (header headers "user-agent").bind (fun userAgent =>
    detection .cursor (startsWith userAgent "Cursor-CLI/") (clientVersion userAgent ["cursor-cli/"]))

/-- Both forms of the product token: `opencode/<version>` and `opencode/<channel>/<version>/<client>`. -/
def openCodeVersion (userAgent : Str) : Option Str := do
  let product := (userAgent.dropWhile isWhitespace).takeWhile (fun c => !isWhitespace c)
  let value ← stripFront "opencode/".toList product
  if value.isEmpty then none
  else match splitOnce '/' value with
    | none => some value
    | some (channel, tail) => do
      let (version, client) ← splitOnce '/' tail
      if !channel.isEmpty && !version.isEmpty && !client.isEmpty && !client.contains '/' then some version else none

def openCodeDetector : HarnessDetector := fun _flow headers _path =>
  ((header headers "user-agent").bind openCodeVersion).bind (fun version => detection .openCode true (some version))

end Headers

section WorkBuddy

def processNames : List String :=
  ["WorkBuddy", "WorkBuddy Helper", "WorkBuddy Helper (GPU)", "WorkBuddy Helper (Plugin)",
    "WorkBuddy Helper (Renderer)", "WorkBuddy AI Helper", "WorkBuddy AI Helper (GPU)",
    "WorkBuddy AI Helper (Plugin)", "WorkBuddy AI Helper (Renderer)"]

def windowsProcessNames : List String := ["WorkBuddy.exe", "WorkBuddyAI.exe"]

def applicationIds : List String :=
  ["com.tencent.workbuddy.mac", "com.tencent.workbuddy.mac.helper", "com.tencent.workbuddy.mac.helper.GPU",
    "com.tencent.workbuddy.mac.helper.Plugin", "com.tencent.workbuddy.mac.helper.Renderer",
    "com.workbuddy.workbuddy-ai", "com.workbuddy.workbuddy-ai.helper", "com.workbuddy.workbuddy-ai.helper.GPU",
    "com.workbuddy.workbuddy-ai.helper.Plugin", "com.workbuddy.workbuddy-ai.helper.Renderer"]

def isWorkBuddyProcess (value : Str) : Bool :=
  let name := lastSegment value
  processNames.any (fun known => name == known.toList) ||
    windowsProcessNames.any (fun known => eqIgnoreAsciiCase name known.toList)

def workBuddyDetector : HarnessDetector := fun flow _headers _path =>
  flow.sourceProcess.bind (fun source =>
    let application := source.applicationId.any (fun id => applicationIds.any (fun known => id == known.toList))
    let process := source.names.any isWorkBuddyProcess
    detection .workBuddy (application || process) none)

end WorkBuddy

section Identity

/-- A detector that reports one Harness and nothing else. -/
def Reports (detector : HarnessDetector) (harness : BuiltInHarness) : Prop :=
  ∀ flow headers path d, detector flow headers path = some d → d.harnessId = .ofBuiltIn harness

theorem detection_reports {harness : BuiltInHarness} {marked : Bool} {version : Option Str} {d : HarnessDetection}
    (h : detection harness marked version = some d) : d.harnessId = .ofBuiltIn harness := by
  unfold detection at h
  split at h
  · cases h
    rfl
  · cases h

theorem bind_detection_reports {α : Type} {found : Option α} {harness : BuiltInHarness} {marked : α → Bool}
    {version : α → Option Str} {d : HarnessDetection}
    (h : found.bind (fun a => detection harness (marked a) (version a)) = some d) :
    d.harnessId = .ofBuiltIn harness := by
  obtain ⟨a, -, ha⟩ := Option.bind_eq_some_iff.mp h
  exact detection_reports ha

theorem codexDetector_reports : Reports codexDetector .codex := fun _ _ _ _ h => detection_reports h

theorem claudeDesktopDetector_reports : Reports claudeDesktopDetector .claudeDesktop :=
  fun _ _ _ _ h => detection_reports h

theorem claudeCodeDetector_reports : Reports claudeCodeDetector .claudeCode := by
  intro flow headers path d h
  unfold claudeCodeDetector at h
  split at h
  · cases h
  · exact detection_reports h

theorem deepSeekHarnessDetector_reports : Reports deepSeekHarnessDetector .deepSeekHarness :=
  fun _ _ _ _ h => bind_detection_reports h

theorem hermesDetector_reports : Reports hermesDetector .hermes := fun _ _ _ _ h => detection_reports h

theorem cursorDetector_reports : Reports cursorDetector .cursor := fun _ _ _ _ h => bind_detection_reports h

theorem workBuddyDetector_reports : Reports workBuddyDetector .workBuddy := fun _ _ _ _ h => bind_detection_reports h

theorem openCodeDetector_reports : Reports openCodeDetector .openCode := fun _ _ _ _ h => bind_detection_reports h

end Identity
end Abyss.AgentHook.Harness
