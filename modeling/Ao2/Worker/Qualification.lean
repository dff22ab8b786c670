import Ao2.Interaction.Pool
import Ao2.Python.Doubles
import Ao2.Worker.Lease

/-!
# The qualification of a stack

A task may ask the worker to qualify repositories: in each of them the commands of a profile are run, one
child process after the other, each within a time limit that the task names. A deadline for all of them
together may be given as well. A task in the mode `toolchain` asks for the versions of tools instead.
-/

namespace Ao2

open Python Interaction

namespace Qualification

/-! ### Constants -/

def minStackQualificationTimeout : ℚ := 30

def maxStackQualificationTimeout : ℚ := 3600

def defaultStackQualificationTimeout : ℚ := 600

def canonicalRepositories : List String :=
  ["ao-architecture", "ao-mission", "ao-blueprint", "ao-atlas", "ao-foundry", "ao-forge", "ao-covenant",
    "ao2", "ao2-control-plane", "ao-next", "ao-command", "ao-arena", "ao-crucible", "ao-sentinel",
    "ao-promoter"]

def archivedRepositories : List String := ["agy-swarms"]

def allowedParameters : List String :=
  ["mode", "repositories", "repos", "timeout_seconds", "shard_id", "checkpoint_id", "profile_digest",
    "global_deadline_seconds", "reuse_from_request_id", "reuse_profile_digest",
    "physical_host_lease_base64", "physical_host_lease_sha256"]

def toolchainCapabilityTools : List String :=
  ["git", "go", "python", "cargo", "rustc", "node", "npm", "powershell"]

inductive Mode where
  | diagnostic
  | targeted
  | full
  | physicalUnique
  | physicalBounded
  | toolchain
  deriving DecidableEq

def Mode.text : Mode → String
  | .diagnostic => "diagnostic"
  | .targeted => "targeted"
  | .full => "full"
  | .physicalUnique => "physical_unique"
  | .physicalBounded => "physical_bounded"
  | .toolchain => "toolchain"

def Mode.isPhysical : Mode → Bool
  | .physicalUnique | .physicalBounded => true
  | _ => false

def stackQualificationModes : List Mode :=
  [.diagnostic, .targeted, .full, .physicalUnique, .physicalBounded, .toolchain]

/-! ### Profiles -/

structure ProfileCommand where
  name : String
  argv : List String
  env : List (String × String)
  deriving DecidableEq

def diagnosticProfile : List ProfileCommand :=
  [⟨"git-head-readback", ["git", "rev-parse", "HEAD"], []⟩,
    ⟨"git-clean-readback", ["git", "status", "--porcelain=v1"], []⟩]

/-- The profiles of the repositories. -/
abbrev RepositoryProfiles := PyStr → Mode → List ProfileCommand

def qualificationProfile (profiles : RepositoryProfiles) (repo : PyStr) : Mode → List ProfileCommand
  | .diagnostic => diagnosticProfile
  | .physicalBounded => profiles repo .physicalUnique
  | mode => profiles repo mode

/-! ### The interface -/

/-- A command that is run as a child process. -/
inductive ChildCommand where
  | profile (repo : PyStr) (command : ProfileCommand)
  | toolVersion (tool : String)

/-- How a child process ended. -/
structure Child where
  status : String
  exitCode : Option ℤ
  timedOut : Bool
  durationSeconds : Double
  output : PyStr
  outputTruncated : Bool
  stderrCategory : String

/-- What the qualification asks its environment. -/
inductive QualificationOp where
  | validateLease (encoded expectedSha256 : PyJson Double) (profile : PyStr)
  /-- The commit that is checked out, which `git` is given ten seconds for. -/
  | repositoryHead (repo : PyStr)
  | isBeneathFactory (repo : PyStr)
  | hasGitDirectory (repo : PyStr)
  | runBoundedChild (command : ChildCommand) (timeoutSeconds : Double)

/-- Running a child process may raise. -/
@[reducible] def QualificationOp.Ans : QualificationOp → Type
  | validateLease .. => Except Lease.Failure (Lease.Accepted Double)
  | repositoryHead _ => PyStr
  | isBeneathFactory _ | hasGitDirectory _ => Bool
  | runBoundedChild .. => Option Child

abbrev QualificationSignature : Signature := ⟨QualificationOp, QualificationOp.Ans⟩

/-- How a qualification stops early. -/
inductive Stop where
  | failed (category : String) (about : List PyStr)
  | leaseRefused (failure : Lease.Failure)
  | raised

abbrev QualificationProg (α : Type) := Prog QualificationSignature Stop α

def askFor (o : QualificationOp) : QualificationProg o.Ans := .ask (S := QualificationSignature) o .done

/-- Run a child process. -/
def runBoundedChild (command : ChildCommand) (timeoutSeconds : Double) : QualificationProg Child :=
  .ask (S := QualificationSignature) (.runBoundedChild command timeoutSeconds) fun answer =>
    match answer with
    | some child => .done child
    | none => .fail .raised

/-- Code points are compared by their numbers. -/
theorem lawfulBEq_codePoint : LawfulBEq CodePoint := inferInstance

/-! ### The parameters -/

variable [FloatValue Double]

/-- `parameters.get(key, default)`. -/
def getOr (parameters : Members Double) (key : String) (default : PyJson Double) : PyJson Double :=
  (parameters.lookup (ofString key)).getD default

def hasParameter (parameters : Members Double) (key : String) : Bool :=
  (parameters.lookup (ofString key)).isSome

/-- `str(parameters[key]) if key in parameters else None`. -/
def textParameter (parameters : Members Double) (key : String) : Option PyStr :=
  (parameters.lookup (ofString key)).map strOf

omit [FloatValue Double] in
def unsupportedParameters (parameters : Members Double) : List PyStr :=
  (parameters.map Prod.fst).filter fun key => key ∉ allowedParameters.map ofString

/-- The mode, if all parameters are supported. -/
def readMode (parameters : Members Double) : Except Stop Mode :=
  if unsupportedParameters parameters ≠ [] then
    .error (.failed "unsupported_parameter" (unsupportedParameters parameters))
  else
    match stackQualificationModes.find? fun mode =>
        ofString mode.text = strOf (getOr parameters "mode" (.str (ofString "diagnostic"))) with
    | some mode => .ok mode
    | none =>
      .error (.failed "invalid_mode" (stackQualificationModes.map fun mode => ofString mode.text))

/-- The lease of a qualification on a physical host; no other may have one. -/
def requireLease (mode : Mode) (parameters : Members Double) :
    QualificationProg (Option (Lease.Accepted Double)) :=
  match parameters.lookup (ofString "physical_host_lease_base64"),
      parameters.lookup (ofString "physical_host_lease_sha256") with
  | some encoded, some expectedSha256 =>
    if mode.isPhysical then
      .ask (S := QualificationSignature)
        (.validateLease encoded expectedSha256 (ofString ("windows_stack_qualification:" ++ mode.text)))
        fun answer =>
          match answer with
          | .ok accepted => .done (some accepted)
          | .error failure => .fail (.leaseRefused failure)
    else .fail (.failed "physical_host_lease_not_applicable" [])
  | none, none =>
    if mode.isPhysical then .fail (.failed "physical_host_lease_required" []) else .done none
  | _, _ =>
    if mode.isPhysical then .fail (.failed "physical_host_lease_required" [])
    else .fail (.failed "physical_host_lease_not_applicable" [])

section

variable [DoubleArithmetic]

/-- A number that a parameter gives. -/
def readNumber (category : String) (v : PyJson Double) : Except Stop Double :=
  match toFloat v with
  | .ok x => .ok x
  | .error .noNumber => .error (.failed category [])
  | .error .overflow => .error .raised

/-- The time limit of every child process. -/
def readTimeout (parameters : Members Double) : Except Stop Double := do
  let timeoutSeconds ← readNumber "invalid_timeout"
    (getOr parameters "timeout_seconds" (.float (.finite defaultStackQualificationTimeout)))
  if timeoutSeconds.lt (.finite minStackQualificationTimeout) ||
      (Double.finite maxStackQualificationTimeout).lt timeoutSeconds then
    .error (.failed "timeout_out_of_bounds" [])
  else .ok timeoutSeconds

/-- The deadline for all child processes together, if one is given. -/
def readDeadline (parameters : Members Double) : Except Stop (Option Double) :=
  match parameters.lookup (ofString "global_deadline_seconds") with
  | none => .ok none
  | some v => do
    let globalDeadlineSeconds ← readNumber "invalid_global_deadline" v
    if globalDeadlineSeconds.lt (.finite 0) || globalDeadlineSeconds = .finite 0 then
      .error (.failed "invalid_global_deadline" [])
    else .ok (some globalDeadlineSeconds)

end

/-- The results that are to be used again are of another profile. -/
def reuseInvalidated (parameters : Members Double) : Bool :=
  match textParameter parameters "reuse_from_request_id",
      textParameter parameters "reuse_profile_digest", textParameter parameters "profile_digest" with
  | some requestId, some reuseDigest, some digest =>
    requestId ≠ [] && reuseDigest ≠ [] && digest ≠ [] && reuseDigest ≠ digest
  | _, _, _ => false

def isLetter (c : CodePoint) : Bool := Lease.inRange 'a' 'z' c || Lease.inRange 'A' 'Z' c

/-- A path that begins with a drive. -/
def hasDrive : PyStr → Bool
  | c :: d :: _ => isLetter c && d = ofChar ':'
  | _ => false

attribute [local instance] lawfulBEq_codePoint in
omit [FloatValue Double] in
/-- What is wrong with the name of a repository. -/
def validateCanonicalRepositoryName (repoName : PyStr) : Option String :=
  if repoName = [] ∨ repoName ≠ strip repoName ∨ repoName = ofString "." ∨ repoName = ofString ".." ∨
      ofChar '/' ∈ repoName ∨ ofChar '\\' ∈ repoName ∨ ofString ".." <:+: repoName ∨
      hasDrive repoName = true then
    some "invalid_repository_name"
  else if repoName ∈ archivedRepositories.map ofString then some "archived_repository"
  else if repoName ∉ canonicalRepositories.map ofString then some "unknown_repository"
  else none

omit [FloatValue Double] in
/-- The repositories that are named, each once. -/
def readRepositoryNames (seen : List PyStr) : List (PyJson Double) → Except Stop (List PyStr)
  | [] => .ok []
  | .str item :: items =>
    match validateCanonicalRepositoryName (strip item) with
    | some error => .error (.failed error [strip item])
    | none =>
      if strip item ∈ seen then .error (.failed "duplicate_repository" [strip item])
      else (readRepositoryNames (strip item :: seen) items).map fun names => strip item :: names
  | _ :: _ => .error (.failed "invalid_repository_name" [])

omit [FloatValue Double] in
def readRepositories (parameters : Members Double) : Except Stop (List PyStr) :=
  match getOr parameters "repositories"
      (getOr parameters "repos" (.list (canonicalRepositories.map fun repo => .str (ofString repo)))) with
  | .list [] => .error (.failed "invalid_repository_list" [])
  | .list items => readRepositoryNames [] items
  | _ => .error (.failed "invalid_repository_list" [])

/-! ### The child processes -/

/-- A row of the results. -/
structure Row where
  repository : PyStr
  repositoryHead : PyStr
  commandName : String
  child : Child

/-- What has been run so far. -/
structure Progress where
  rows : List Row
  cumulativeDurationSeconds : Double
  deadlineExceeded : Bool

/-- The row of a repository that is not there. -/
def missingRow (repo head : PyStr) : Row where
  repository := repo
  repositoryHead := head
  commandName := "repository-present"
  child :=
    { status := "failed", exitCode := none, timedOut := false, durationSeconds := .finite 0, output := [],
      outputTruncated := false, stderrCategory := "missing_repo" }

/-- The row of a repository that is qualified elsewhere. -/
def delegatedRow (repo head : PyStr) : Row where
  repository := repo
  repositoryHead := head
  commandName := "delegated-to-hosted-native-windows"
  child :=
    { status := "accepted", exitCode := some 0, timedOut := false, durationSeconds := .finite 0,
      output := ofString
        "portable Windows coverage delegated to hosted native Windows by coverage ownership contract",
      outputTruncated := false, stderrCategory := "none" }

def Progress.add (p : Progress) (row : Row) : Progress := { p with rows := p.rows ++ [row] }

/-- The deadline has passed. -/
def exceeds (deadline : Option Double) (cumulative : Double) : Bool :=
  deadline.any fun d => d.lt cumulative

section

variable [DoubleArithmetic] (timeoutSeconds : Double) (deadline : Option Double)

omit [FloatValue Double] in
/-- Run the commands of a profile, up to the first that fails or passes the deadline. -/
def runCommands (repo head : PyStr) : List ProfileCommand → Progress → QualificationProg Progress
  | [], p => .done p
  | command :: commands, p =>
    (runBoundedChild (.profile repo command) timeoutSeconds).bind fun child =>
      let p' := { p.add ⟨repo, head, command.name, child⟩ with
        cumulativeDurationSeconds := addDouble p.cumulativeDurationSeconds child.durationSeconds }
      if exceeds deadline p'.cumulativeDurationSeconds then .done { p' with deadlineExceeded := true }
      else if child.status ≠ "accepted" then .done p'
      else runCommands repo head commands p'

omit [FloatValue Double] in
/-- Run the profiles of the repositories, up to the deadline. -/
def runRepositories (profiles : RepositoryProfiles) (mode : Mode) :
    List PyStr → Progress → QualificationProg Progress
  | [], p => .done p
  | repo :: repos, p =>
    (askFor (.isBeneathFactory repo)).bind fun beneath =>
      if beneath = false then .fail (.failed "repository_escape" [repo])
      else
        (askFor (.repositoryHead repo)).bind fun head =>
          (askFor (.hasGitDirectory repo)).bind fun present =>
            if present = false then runRepositories profiles mode repos (p.add (missingRow repo head))
            else if mode.isPhysical && qualificationProfile profiles repo mode = [] then
              runRepositories profiles mode repos (p.add (delegatedRow repo head))
            else
              (runCommands timeoutSeconds deadline repo head (qualificationProfile profiles repo mode) p).bind
                fun p' =>
                  if p'.deadlineExceeded then .done p' else runRepositories profiles mode repos p'

omit [FloatValue Double] [DoubleArithmetic] in
/-- Ask the tools for their versions. -/
def runTools : List String → QualificationProg (List (String × Child))
  | [] => .done []
  | tool :: tools =>
    (runBoundedChild (.toolVersion tool) timeoutSeconds).bind fun child =>
      (runTools tools).bind fun rest => .done ((tool, child) :: rest)

end

/-! ### The qualification -/

/-- The result of a qualification that was not stopped early. -/
inductive Report where
  | toolchain (workerHead : PyStr) (capabilities : List (String × Child))
  | stack (mode : Mode) (workerHead : PyStr) (repositories : List PyStr) (progress : Progress)
    (deadline : Option Double) (lease : Option (Lease.Accepted Double))

def windowsStackQualification [DoubleArithmetic] (profiles : RepositoryProfiles)
    (parameters : Members Double) : QualificationProg Report :=
  (Prog.ofExcept (readMode parameters)).bind fun mode =>
    (requireLease mode parameters).bind fun lease =>
      (Prog.ofExcept (readTimeout parameters)).bind fun timeoutSeconds =>
        (Prog.ofExcept (readDeadline parameters)).bind fun deadline =>
          if reuseInvalidated parameters then .fail (.failed "reuse_invalidated" [])
          else if mode = .toolchain then
            (askFor (.repositoryHead (ofString "ao2"))).bind fun workerHead =>
              (runTools (minDouble timeoutSeconds (.finite 30)) toolchainCapabilityTools).bind
                fun capabilities => .done (.toolchain workerHead capabilities)
          else
            (Prog.ofExcept (readRepositories parameters)).bind fun repositories =>
              (askFor (.repositoryHead (ofString "ao2"))).bind fun workerHead =>
                (runRepositories timeoutSeconds deadline profiles mode repositories
                  ⟨[], .finite 0, false⟩).bind fun progress =>
                    .done (.stack mode workerHead repositories progress deadline lease)

end Qualification

end Ao2
