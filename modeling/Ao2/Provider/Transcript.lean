import Ao2.Run.World
import Ao2.Texts.Ascii
import Ao2.Texts.Lines
import Ao2.Texts.Split
import Mathlib.Algebra.Ring.Int.Defs
import Mathlib.Algebra.Ring.Nat

/-!
# Provider transcripts

A provider is a child process in a copy of the target. What it was called with and what it printed is
put together to one text, the transcript, and the report of the provider is read from that text again:
what is between the first `stdout:` line and the first `stderr:` line after it, line by line.

Every text is redacted first: a line that looks as if it held a secret is replaced as a whole.
-/

namespace Ao2

/-! ### Texts -/

/-- A text without the characters of a kind at both ends. -/
def trimMatches (p : Char → Bool) (text : List Char) : List Char :=
  ((text.dropWhile p).reverse.dropWhile p).reverse

/-! ### Redaction -/

def sensitiveTexts : List String :=
  ["openai_api_key", "anthropic_api_key", "ao2_cp_api_token", "authorization: bearer", "bearer ",
    "cookie:", "set-cookie:", "password=", "password:", "secret=", "secret:", "api_token=",
    "api_token:", "access_token=", "access_token:", "refresh_token=", "refresh_token:", "?token=",
    "&token=", "token=", "token:", "--api-token", "--operator-token", "api-token=", "api-token:"]

/-- A character that a token does not go beyond. -/
def endsToken (c : Char) : Bool :=
  isWhitespace c || c ∈ ['"', '\'', '`', '<', '>', '(', ')', '[', ']', '\x7b', '\x7d', ',', ';']

def containsSensitiveColonToken (lower : String) : Bool :=
  (lower.toList.splitOnP endsToken).any fun token =>
    let parts := (trimMatches (fun c => c = '.' ∨ c = ':') token).splitOn ':'
    (parts.drop 2).any fun part =>
      ["secret", "token", "password", "api-key", "api_key"].any (containsText (.ofList part))

def lineContainsSensitiveMaterial (line : String) : Bool :=
  let lower := toAsciiLowercase line
  sensitiveTexts.any (containsText lower) || containsSensitiveColonToken lower

def redactLine (line : List Char) : List Char :=
  if lineContainsSensitiveMaterial (.ofList line) then "[redacted sensitive line]".toList else line

def redactSensitiveText (text : String) : String :=
  .ofList (['\n'].intercalate ((lines text.toList).map redactLine))

/-! ### The run of an adapter -/

structure AdapterRunRequest where
  roleId : String
  command : String
  args : List String
  timeoutMs : Option ℕ

structure AdapterBlocker where
  kind : String
  message : String
  deriving DecidableEq

structure AdapterRunResult where
  provider : ProviderKind
  roleId : String
  command : String
  exitCode : Option ℤ
  stdout : String
  stderr : String
  transcript : String
  blocker : Option AdapterBlocker

/-- How the child process went. -/
structure ChildOutcome where
  stdout : String
  stderr : String
  exitCode : Option ℤ
  timedOut : Bool

/-- The name of a provider in a transcript. -/
def ProviderKind.debug : ProviderKind → String
  | codex => "Codex"
  | claude => "Claude"
  | antigravity => "Antigravity"
  | scripted => "Scripted"

/-- An optional number in a transcript. -/
def debugOption {α : Type} [ToString α] : Option α → String
  | none => "None"
  | some n => "Some(" ++ toString n ++ ")"

def adapterWorkingDirPlaceholder : String := "\x7bao2_adapter_working_dir\x7d"

def expandAdapterArgs (args : List String) (workingDir : String) : List String :=
  args.map fun arg => if arg = adapterWorkingDirPlaceholder then workingDir else arg

/-- The command line of a request, before it is redacted. -/
def AdapterRunRequest.commandLine (request : AdapterRunRequest) (workingDir : String) : String :=
  trim (request.command ++ " " ++ " ".intercalate (expandAdapterArgs request.args workingDir))

/-- What a transcript has of the call and of the end of the child process. -/
def transcriptHeader (provider : ProviderKind) (roleId command : String) (exitCode : Option ℤ)
    (timeoutMs : Option ℕ) (timedOut : Bool) : String :=
  "provider: " ++ provider.debug ++ "\nrole_id: " ++ roleId ++ "\ncommand: " ++ command ++
    "\nexit_code: " ++ debugOption exitCode ++ "\ntimeout_ms: " ++ debugOption timeoutMs ++
    "\ntimed_out: " ++ (if timedOut then "true" else "false")

def adapterRun (provider : ProviderKind) (request : AdapterRunRequest) (workingDir : String)
    (child : ChildOutcome) : AdapterRunResult :=
  let stdout := redactSensitiveText child.stdout
  let stderr := redactSensitiveText child.stderr
  let command := redactSensitiveText (request.commandLine workingDir)
  { provider := provider
    roleId := request.roleId
    command := command
    exitCode := child.exitCode
    stdout := stdout
    stderr := stderr
    transcript := transcriptHeader provider request.roleId command child.exitCode request.timeoutMs
      child.timedOut ++ "\nstdout:\n" ++ stdout ++ "\nstderr:\n" ++ stderr
    blocker :=
      if child.timedOut then
        some ⟨"timeout", "adapter command exceeded timeout of " ++
          toString (request.timeoutMs.getD 0) ++ "ms"⟩
      else if child.exitCode = some 0 then none
      else some ⟨"non_zero_exit", "adapter command exited with " ++ debugOption child.exitCode⟩ }

/-! ### What is read from a transcript -/

structure ProviderConcern where
  severity : String
  message : String
  deriving DecidableEq

structure ProviderUsage where
  inputTokens : Option ℕ
  outputTokens : Option ℕ
  totalTokens : Option ℕ
  deriving DecidableEq

/-- Costs, as texts and whole numbers are read as such. -/
class CostNumber (F : Type) where
  parseCost : String → Option F
  ofInt : ℤ → F

structure ProviderTranscriptSummary (F : Type) where
  provider : ProviderKind
  changedFiles : List String
  concerns : List ProviderConcern
  blockers : List AdapterBlocker
  usage : ProviderUsage
  costUsd : Option F
  transcriptIds : List (String × String)
  rawSummary : Option String

def transcriptParseBody (transcript : String) : String :=
  match splitOnce "\nstdout:\n".toList transcript.toList with
  | some (_, afterStdout) =>
    match splitOnce "\nstderr:\n".toList afterStdout with
    | some (stdout, _) => .ofList stdout
    | none => .ofList afterStdout
  | none => transcript

/-- The text after the first of some labels that a line begins with, in any case. -/
def valueAfterLabel (line : String) : List String → Option String
  | [] => none
  | label :: labels =>
    let lower := (toAsciiLowercase line).toList
    if (label ++ ":").toList <+: lower ∨ (label ++ "=").toList <+: lower then
      some (trim (.ofList (line.toList.drop (label.length + 1))))
    else valueAfterLabel line labels

/-- A text without the list marks at its start. -/
def dropListMarks : List Char → List Char
  | '-' :: ' ' :: rest => dropListMarks rest
  | text => text

def cleanFileToken (value : String) : Option String :=
  let cleaned := trimMatches (fun c => c ∈ ['`', '"', '\'']) (dropListMarks (trim value).toList)
  if cleaned = [] then none
  else some (.ofList (cleaned.map fun c => if c = '\\' then '/' else c))

def splitFileList (value : String) : List String :=
  (value.toList.splitOnP fun c => c = ',' ∨ c = ';').filterMap fun file => cleanFileToken (.ofList file)

def parseConcern (value : String) : ProviderConcern :=
  match splitOnce " - ".toList value.toList with
  | some (severity, message) => ⟨toAsciiLowercase (trim (.ofList severity)), trim (.ofList message)⟩
  | none => ⟨"unspecified", trim value⟩

/-- The number that the digits of a text make up. -/
def parseU64 (value : String) : Option ℕ :=
  (String.ofList (value.toList.filter Char.isDigit)).toNat?.filter (· < 2 ^ 64)

/-- Set insertion into a list without duplicates in increasing order. -/
def insertFile (files : List String) (file : String) : List String :=
  match files with
  | [] => [file]
  | first :: rest =>
    if file = first then files
    else if file < first then file :: files
    else first :: insertFile rest file

/-- Map insertion into a list of pairs in increasing order of their keys. -/
def insertTranscriptId (ids : List (String × String)) (kind value : String) : List (String × String) :=
  match ids with
  | [] => [(kind, value)]
  | (key, other) :: rest =>
    if kind = key then (kind, value) :: rest
    else if kind < key then (kind, value) :: ids
    else (key, other) :: insertTranscriptId rest kind value

def mergeTranscriptIds (value : Json) (ids : List (String × String)) : List (String × String) :=
  ["session_id", "conversation_id", "transcript_id", "response_id", "thread_id"].foldl
    (fun ids key =>
      match (value.get? key).bind Json.str? with
      | some text => if isBlank text then ids else insertTranscriptId ids key (trim text)
      | none => ids) ids

def jsonU64Like (value : Json) (key : String) : Option ℕ :=
  match value.get? key with
  | some (.num n) => if 0 ≤ n ∧ n < 2 ^ 64 then some n.toNat else none
  | some (.str text) => parseU64 text
  | _ => none

section

variable {F : Type} [CostNumber F]

def jsonF64Like (value : Json) (key : String) : Option F :=
  match value.get? key with
  | some (.num n) => some (CostNumber.ofInt n)
  | some (.str text) => CostNumber.parseCost text
  | _ => none

/-- The usage that a value tells, if it tells any. -/
def mergeUsageMetadata (value : Json) (s : ProviderTranscriptSummary F) :
    Option (ProviderTranscriptSummary F) :=
  let usageValue := (value.get? "usage").getD value
  let input := (jsonU64Like usageValue "input_tokens").or (jsonU64Like usageValue "input")
  let output := (jsonU64Like usageValue "output_tokens").or (jsonU64Like usageValue "output")
  let total := (jsonU64Like usageValue "total_tokens").or (jsonU64Like usageValue "total")
  let cost : Option F := (jsonF64Like usageValue "cost_usd").or (jsonF64Like usageValue "cost")
  if input.isNone ∧ output.isNone ∧ total.isNone ∧ cost.isNone then none
  else some { s with
    usage := ⟨input.or s.usage.inputTokens, output.or s.usage.outputTokens,
      total.or s.usage.totalTokens⟩
    costUsd := cost.or s.costUsd }

def transcriptIdLabels : List String :=
  ["session_id", "session id", "conversation_id", "conversation id", "transcript_id",
    "transcript id", "response_id", "response id", "thread_id", "thread id"]

/-- The first label of an id that a line begins with and has a value for. -/
def transcriptIdAfterLabel (line : String) : Option (String × String) :=
  transcriptIdLabels.findSome? fun label =>
    ((valueAfterLabel line [label]).filter (· ≠ "")).map fun value =>
      (.ofList (label.toList.map fun c => if c = ' ' then '_' else c), value)

/-- The word that stands for nothing to report. -/
def saysNone (text : String) : Bool := toAsciiLowercase text = "none"

/-- A line of a report that is no JSON text with usage in it. -/
def parseLabelledLine (skipsNone : Bool) (s : ProviderTranscriptSummary F) (line : String) :
    ProviderTranscriptSummary F :=
  let lower := (toAsciiLowercase line).toList
  match valueAfterLabel line ["summary"] with
  | some value =>
    if s.rawSummary = none ∧ value ≠ "" then { s with rawSummary := some value } else s
  | none =>
  match valueAfterLabel line ["changed files", "changed_files", "files changed"] with
  | some value => { s with changedFiles := (splitFileList value).foldl insertFile s.changedFiles }
  | none =>
  if "modified:".toList <+: lower ∨ "added:".toList <+: lower ∨ "deleted:".toList <+: lower then
    match (splitOnce [':'] line.toList).bind fun parts => cleanFileToken (.ofList parts.2) with
    | some file => { s with changedFiles := insertFile s.changedFiles file }
    | none => s
  else
  match valueAfterLabel line ["concern"] with
  | some value =>
    let parsed := parseConcern value
    if skipsNone ∧ (saysNone parsed.message ∨ parsed.message = "") then s
    else { s with concerns := s.concerns ++ [parsed] }
  | none =>
  match valueAfterLabel line ["blocker"] with
  | some value =>
    if skipsNone ∧ (saysNone value ∨ value = "") then s
    else { s with blockers := s.blockers ++ [⟨"provider_reported_blocker", value⟩] }
  | none =>
  match valueAfterLabel line ["input tokens", "input_tokens"] with
  | some value => { s with usage := { s.usage with inputTokens := parseU64 value } }
  | none =>
  match valueAfterLabel line ["output tokens", "output_tokens"] with
  | some value => { s with usage := { s.usage with outputTokens := parseU64 value } }
  | none =>
  match valueAfterLabel line ["total tokens", "total_tokens", "tokens"] with
  | some value => { s with usage := { s.usage with totalTokens := parseU64 value } }
  | none =>
  match valueAfterLabel line ["cost", "cost usd"] with
  | some value => { s with costUsd := CostNumber.parseCost value }
  | none =>
  match transcriptIdAfterLabel line with
  | some (kind, value) => { s with transcriptIds := insertTranscriptId s.transcriptIds kind value }
  | none => s

variable [JsonText]

/-- A line of a report. -/
def parseTranscriptLine (skipsNone : Bool) (s : ProviderTranscriptSummary F) (line : String) :
    ProviderTranscriptSummary F :=
  match parseJson line with
  | some value =>
    let s := { s with transcriptIds := mergeTranscriptIds value s.transcriptIds }
    match mergeUsageMetadata value s with
    | some s => s
    | none => parseLabelledLine skipsNone s line
  | none => parseLabelledLine skipsNone s line

/-- The summary before any line is read. -/
def initialSummary (provider : ProviderKind) (sandboxChangedFiles : List String) :
    ProviderTranscriptSummary F where
  provider := provider
  changedFiles := sandboxChangedFiles.foldl insertFile []
  concerns := []
  blockers := []
  usage := ⟨none, none, none⟩
  costUsd := none
  transcriptIds := []
  rawSummary := none

/-- What is read from a transcript. Where `skipsNone` is set, a concern or blocker that says that there
is none is not one. -/
def parseTranscript (skipsNone : Bool) (provider : ProviderKind) (transcript : String)
    (sandboxChangedFiles : List String) : ProviderTranscriptSummary F :=
  (filledLines (transcriptParseBody transcript).toList).foldl (parseTranscriptLine skipsNone)
    (initialSummary provider sandboxChangedFiles)

def parseScriptedProviderTranscript :
    ProviderKind → String → List String → ProviderTranscriptSummary F :=
  parseTranscript true

/-- The readers of the other two providers, which are the same. -/
def parseGenericTranscript : ProviderKind → String → List String → ProviderTranscriptSummary F :=
  parseTranscript false

def parseProviderTranscript (provider : ProviderKind) :
    String → List String → ProviderTranscriptSummary F :=
  match provider with
  | .codex | .claude => parseGenericTranscript provider
  | .antigravity | .scripted => parseScriptedProviderTranscript provider

/-- A run in a copy of the target, in which some files changed, and its summary. -/
def runInSandbox (provider : ProviderKind) (request : AdapterRunRequest) (workingDir : String)
    (child : ChildOutcome) (changedFiles : List String) :
    AdapterRunResult × ProviderTranscriptSummary F :=
  let adapter := adapterRun provider request workingDir child
  (adapter, parseProviderTranscript provider adapter.transcript changedFiles)

end

/-! ### Requests for a prompt -/

/-- What a provider is told to do and how to report. -/
def sandboxExecutionPrompt (order done task : String) : String :=
  "You are running inside an AO2 disposable sandbox copy of the target repository.\n" ++ order ++
    "\nDo not ask follow-up questions.\nDo not edit files outside the current repository.\nAfter the " ++
    done ++ " finishes, print a concise completion report that includes:\n" ++
    "Summary: <short summary of the completed change>\n" ++
    "Changed files: <comma-separated files changed>\n" ++
    "Concern: <severity - message, only if any>\nBlocker: <message, only if any>\n\n" ++ task

def codexSandboxExecutionPrompt (prompt : String) : String :=
  sandboxExecutionPrompt "Complete the requested coding task in the current repository." "task"
    ("Task:\n" ++ prompt ++ "\n")

def claudeSandboxExecutionPrompt (prompt : String) : String :=
  sandboxExecutionPrompt
    "Execute the following shell script exactly in the current repository using Bash." "script"
    ("Shell script:\n```sh\n" ++ prompt ++ "\n```\n")

def antigravitySandboxExecutionPrompt (prompt : String) : String :=
  sandboxExecutionPrompt
    ("Complete the requested coding task in the current repository using your tools (e.g. by " ++
      "editing/writing files or running commands). If the task contains shell script or commands, " ++
      "execute them exactly using terminal tools. Do not just describe them or answer with text.")
    "task" ("Task:\n" ++ prompt ++ "\n")

/-- The arguments for a prompt; the budget is the text of the amount. -/
def providerPromptArgs (provider : ProviderKind) (prompt : String) (maxBudgetUsd : Option String) :
    List String :=
  match provider with
  | .scripted => ["-c", prompt]
  | .codex =>
    ["exec", "--skip-git-repo-check", "--sandbox", "workspace-write", "--ephemeral", "--color", "never",
      codexSandboxExecutionPrompt prompt]
  | .claude =>
    ["--print", "--permission-mode", "bypassPermissions", "--allowedTools", "Bash,Read,Write,Edit",
      "--no-session-persistence", "--output-format", "text"] ++
      (match maxBudgetUsd with
        | some amount => ["--max-budget-usd", amount]
        | none => []) ++ [claudeSandboxExecutionPrompt prompt]
  | .antigravity =>
    ["--add-dir", adapterWorkingDirPlaceholder, "--print", antigravitySandboxExecutionPrompt prompt,
      "--sandbox", "--print-timeout", "5m", "--dangerously-skip-permissions"]

def ProviderKind.command : ProviderKind → String
  | scripted => "sh"
  | codex => "codex"
  | claude => "claude"
  | antigravity => "agy"

/-- The request for a prompt. -/
def buildProviderPromptCommand (provider : ProviderKind) (prompt roleId : String)
    (timeoutMs : Option ℕ) (maxBudgetUsd : Option String) : AdapterRunRequest where
  roleId := roleId
  command := provider.command
  args := providerPromptArgs provider prompt maxBudgetUsd
  timeoutMs := timeoutMs

end Ao2
