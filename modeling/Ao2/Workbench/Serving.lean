import Ao2.Checks
import Ao2.Workbench.Routes
import Mathlib.Data.List.Nodup
import Mathlib.Data.List.Sort
import Mathlib.Data.String.Basic

/-!
# What becomes of a request

A request has no route, or it is stopped before its handler, or the handler is called. A handler has one
route only, so the call says which it was.

The server goes from one connection to the next. An error that is passed on, and a panic, end it: the
error of a connection that cannot be accepted or answered, that of a route which does not answer the
errors of its handler, and the panic of a value that cannot be decoded.

## Main results

* `handle_cases` — the three ways of a request
* `eq_of_handler` — every handler has one route
* `serving_iff` — the server is there after so many connections exactly if each of them survives
* `not_serving_escape` — an escape in front of a character of several bytes ends it
-/

namespace Ao2

open Interaction

namespace Workbench

/-- The route of a request, and its query. -/
def routeOf (request : Text) : Option (Route × Text) :=
  (requestTarget request).bind fun (method, path, query) =>
    (findRoute method path).map fun route => (route, query)

/-- What a request comes to before the handler: how it ends without it, or the arguments. -/
def Route.prepare (route : Route) (server : Server) (query request : Text) :
    Except (Except Failure Response) Arguments :=
  match route.refusal server query with
  | .error e => .error (.error e)
  | .ok (some response) => .error (.ok response)
  | .ok none =>
    match route.input.arguments server query request with
    | .error e => .error (.error e)
    | .ok none => .error (.ok invalidApiToken)
    | .ok (some arguments) => .ok arguments

/-! ### What is done with a request -/

theorem lines_ne_nil {text : Text} (h : text ≠ []) : lines text ≠ [] := by
  intro hnil
  rw [lines, List.append_eq_nil_iff, List.map_eq_nil_iff] at hnil
  obtain ⟨hinit, hlast⟩ := hnil
  have hjoin : ['\n'].intercalate (text.splitOn '\n') = text := List.intercalate_splitOn '\n'
  obtain ⟨init, last, hparts⟩ := (List.eq_nil_or_concat (text.splitOn '\n')).resolve_left
    (List.splitOn_ne_nil '\n' text)
  rw [List.concat_eq_append] at hparts
  rw [hparts, List.dropLast_concat] at hinit
  rw [hparts, hinit, List.nil_append] at hlast hjoin
  have hempty : last = [] := by simpa using hlast
  rw [hempty] at hjoin
  exact h hjoin.symm

/-- The response to a request without a route. -/
def notFound : Response := .text 404 "Not Found" "not found"

theorem handle_of_nowhere {server : Server} {request : Text} (hne : request ≠ [])
    (h : routeOf request = none) :
    handleWorkbenchRequest server request = .done notFound := by
  rw [routeOf] at h
  rw [handleWorkbenchRequest]
  cases htarget : requestTarget request with
  | none =>
    rw [requestTarget, Option.map_eq_none_iff, List.head?_eq_none_iff] at htarget
    exact absurd htarget (lines_ne_nil hne)
  | some target =>
    rw [htarget] at h
    have hroute : findRoute target.1 target.2.1 = none := by simpa using h
    simp only [hroute]
    rfl

theorem handle_of_route {server : Server} {request query : Text} {route : Route}
    (h : routeOf request = some (route, query)) :
    handleWorkbenchRequest server request = route.serve server query request := by
  rw [routeOf] at h
  rw [handleWorkbenchRequest]
  cases htarget : requestTarget request with
  | none =>
    rw [htarget] at h
    cases h
  | some target =>
    rw [htarget] at h
    obtain ⟨found, hfound, hpair⟩ := Option.map_eq_some_iff.mp h
    obtain ⟨rfl, rfl⟩ := Prod.mk.inj hpair
    simp only [hfound]

theorem serve_eq (route : Route) (server : Server) (query request : Text) :
    route.serve server query request =
      match route.prepare server query request with
      | .error reason => .ofExcept reason
      | .ok arguments => .ask (.call route.handler arguments) fun answer => .ofExcept (route.respond answer) := by
  rw [Route.serve, Route.prepare]
  cases route.refusal server query with
  | error e => rfl
  | ok refusal =>
    cases refusal with
    | some response => rfl
    | none =>
      dsimp only [Prog.bind_eq, Prog.ofExcept_ok, Prog.done_bind]
      cases route.input.arguments server query request with
      | error e => rfl
      | ok arguments => cases arguments <;> rfl

theorem authorizationFailure_ne_notFound (query : Text) (operators : List WorkbenchOperator)
    (required : WorkbenchOperatorRole) :
    workbenchApiAuthorizationFailure query operators required ≠ .ok (some notFound) := by
  intro h
  obtain ⟨operator, -, h⟩ := bind_eq_ok.mp h
  cases operator with
  | none => cases h
  | some operator =>
    dsimp only at h
    split_ifs at h
    · cases h
    · cases h

theorem guardFailure_ne_notFound (guard : Guard) (server : Server) (query : Text) :
    guard.failure server query ≠ .ok (some notFound) := by
  cases guard with
  | api required => exact authorizationFailure_ne_notFound query server.operators required
  | html =>
    intro h
    obtain ⟨operator, -, h⟩ := bind_eq_ok.mp h
    cases operator <;> cases h
  | page required =>
    intro h
    obtain ⟨operator, -, h⟩ := bind_eq_ok.mp h
    cases operator with
    | none => cases h
    | some operator =>
      dsimp only at h
      split_ifs at h <;> cases h

theorem missing_ne_notFound (needs : Needs) (server : Server) : needs.missing server ≠ some notFound := by
  intro h
  cases needs with
  | nothing => cases h
  | supportSigning | queue | queueOrDisabled | queuePage =>
    rw [Needs.missing] at h
    split_ifs at h
    cases h

theorem refusal_ne_notFound (route : Route) (server : Server) (query : Text) :
    route.refusal server query ≠ .ok (some notFound) := by
  intro h
  obtain ⟨failure, hfailure, h⟩ := bind_eq_ok.mp h
  cases failure with
  | some response =>
    obtain rfl := Option.some.inj (Except.ok.inj h)
    exact guardFailure_ne_notFound route.guard server query hfailure
  | none => exact missing_ne_notFound route.needs server (Except.ok.inj h)

/-- No route answers that there is none. -/
theorem prepare_ne_notFound (route : Route) (server : Server) (query request : Text) :
    route.prepare server query request ≠ .error (.ok notFound) := by
  intro h
  rw [Route.prepare] at h
  split at h
  · cases h
  · rename_i response hrefusal
    obtain rfl := Except.ok.inj (Except.error.inj h)
    exact refusal_ne_notFound route server query hrefusal
  · split at h <;> cases h

/-! ### Handlers -/

theorem handlers_eq : (routes.map fun route => route.handler.ctorIdx) = List.range 89 := by decide

/-- Every handler has one route. -/
theorem eq_of_handler {route route' : Route} (h : route ∈ routes) (h' : route' ∈ routes)
    (hhandler : route.handler = route'.handler) : route = route' := by
  have hnodup : (routes.map fun route => route.handler.ctorIdx).Nodup := by
    rw [handlers_eq]
    exact List.nodup_range
  exact List.inj_on_of_nodup_map hnodup h h' (congrArg Handler.ctorIdx hhandler)

theorem mem_routes_of_routeOf {request query : Text} {route : Route}
    (h : routeOf request = some (route, query)) : route ∈ routes := by
  obtain ⟨target, -, hroute⟩ := Option.bind_eq_some_iff.mp h
  obtain ⟨found, hfound, hpair⟩ := Option.map_eq_some_iff.mp hroute
  obtain ⟨rfl, rfl⟩ := Prod.mk.inj hpair
  exact List.mem_of_find?_eq_some hfound

/-! ### The three ways -/

theorem handle_of_stopped {server : Server} {request query : Text} {route : Route}
    {reason : Except Failure Response} (h : routeOf request = some (route, query))
    (hstop : route.prepare server query request = .error reason) :
    handleWorkbenchRequest server request = .ofExcept reason := by
  rw [handle_of_route h, serve_eq, hstop]

theorem handle_of_called {server : Server} {request query : Text} {route : Route}
    {arguments : Arguments} (h : routeOf request = some (route, query))
    (hcall : route.prepare server query request = .ok arguments) :
    handleWorkbenchRequest server request =
      .ask (.call route.handler arguments) fun answer => .ofExcept (route.respond answer) := by
  rw [handle_of_route h, serve_eq, hcall]

/-- What becomes of a request: it has no route, it is stopped, or a handler is called. -/
theorem handle_cases (server : Server) {request : Text} (hne : request ≠ []) :
    (routeOf request = none ∧ handleWorkbenchRequest server request = .ofExcept (.ok notFound)) ∨
    (∃ route query reason, routeOf request = some (route, query) ∧
      route.prepare server query request = .error reason ∧ reason ≠ .ok notFound ∧
      handleWorkbenchRequest server request = .ofExcept reason) ∨
    (∃ route query arguments, routeOf request = some (route, query) ∧
      route.prepare server query request = .ok arguments ∧
      handleWorkbenchRequest server request =
        .ask (.call route.handler arguments) fun answer => .ofExcept (route.respond answer)) := by
  cases hroute : routeOf request with
  | none => exact .inl ⟨rfl, handle_of_nowhere hne hroute⟩
  | some target =>
    obtain ⟨route, query⟩ := target
    cases hprepare : route.prepare server query request with
    | error reason =>
      refine .inr (.inl ⟨route, query, reason, rfl, hprepare, ?_, handle_of_stopped hroute hprepare⟩)
      rintro rfl
      exact prepare_ne_notFound route server query request hprepare
    | ok arguments =>
      exact .inr (.inr ⟨route, query, arguments, rfl, hprepare, handle_of_called hroute hprepare⟩)

theorem ofExcept_inj {a b : Except Failure Response}
    (h : (.ofExcept a : Prog signature Failure Response) = .ofExcept b) : a = b := by
  cases a <;> cases b <;> cases h <;> rfl

theorem ofExcept_ne_ask {a : Except Failure Response} {o : Op}
    {k : signature.Ans o → Prog signature Failure Response} :
    .ofExcept a ≠ Prog.ask (S := signature) o k := by
  cases a <;> exact nofun

end Workbench

end Ao2

/-! ## Serving -/

namespace Ao2

open Interaction

namespace Workbench

/-! ### The target directory -/

/-- An entry of a directory. -/
structure DirEntry where
  name : String
  isDir : Except WorkbenchError Bool

/-- A directory, which is missing, cannot be read or has entries that can be read or not. -/
abbrev Listing (α : Type) := Option (Except WorkbenchError (List (Except WorkbenchError α)))

/-- What is read of a target directory. -/
structure Directory where
  target : String
  runs : Listing DirEntry
  runSummary : String → Except WorkbenchError Json
  /-- The paths below the directory of support bundles, with whether there is a bundle. -/
  supportBundles : Listing (String × Bool)
  verifySupportBundle : String → Except WorkbenchError Json
  doctor : Json
  providerMatrix : Json
  now : ℕ

/-- The summaries of the runs; those that cannot be read are left out. -/
def listRuns (summary : String → Except WorkbenchError Json) :
    List (Except WorkbenchError DirEntry) → Except WorkbenchError (List Json)
  | [] => .ok []
  | entry :: entries => do
    let entry ← entry
    let isDir ← entry.isDir
    let rest ← listRuns summary entries
    match isDir, summary entry.name with
    | true, .ok run => .ok (run :: rest)
    | _, _ => .ok rest

/-- The later run first, and runs of one time by their names. -/
def newer (left right : Json) : Bool :=
  let updated v := jsonStringOf v "updated_at"
  updated right < updated left ||
    (updated left = updated right && jsonStringOf left "run_id" ≤ jsonStringOf right "run_id")

/-- The summaries of the runs, if there are runs. -/
def runSummaries (d : Directory) : Except WorkbenchError (List Json) :=
  match d.runs with
  | none => .ok []
  | some listing => do
    let entries ← listing
    listRuns d.runSummary entries

def runsListJson (d : Directory) : Except WorkbenchError Json := do
  let runs ← runSummaries d
  .ok (.obj [("schema_version", .str "ao2.runs-list.v1"), ("target", .str d.target),
    ("runs", .arr (runs.mergeSort newer))])

/-- The last of the bundles that are seen; entries that cannot be read are not. -/
def latestBundle (entries : List (Except WorkbenchError (String × Bool))) : Option String :=
  (((entries.filterMap Except.toOption).filter (·.2)).map Prod.fst).mergeSort.getLast?

def latestWorkbenchSupportBundleSummary (d : Directory) : Except WorkbenchError (Option Json) :=
  match d.supportBundles with
  | none => .ok none
  | some listing => do
    let entries ← listing
    match latestBundle entries with
    | none => .ok none
    | some bundle => do
      let summary ← d.verifySupportBundle bundle
      .ok (some summary)

def jsonU64 (v : Json) (key : String) : Json :=
  match v.get? key with
  | some (.num (.ofNat n)) => .num n
  | _ => .num 0

def jsonArray (v : Json) (key : String) : Json :=
  match v.get? key with
  | some (.arr items) => .arr items
  | _ => .arr []

def emptyWorkbenchRedactionAudit : Json := .obj
  [("schema_version", .str "ao2.workbench-support-redaction-audit.v1"), ("redaction_count", .num 0),
    ("secret_classes", .obj []), ("redacted_fields", .arr [])]

/-- The support packet without a bundle. -/
def absentPacket (now : ℕ) : Json := .obj
  [("schema_version", .str "ao2.workbench-support-latest.v1"), ("present", .bool false),
    ("generated_at_ms", .num now), ("queue_job_count", .num 0), ("queue_job_diagnosis_count", .num 0),
    ("queue_job_diagnoses", .arr []), ("audit_event_count", .num 0), ("job_log_count", .num 0),
    ("evidence_export_count", .num 0), ("evidence_exports", .arr []),
    ("redaction_audit", emptyWorkbenchRedactionAudit),
    ("hermes_project_start_flow_contract", .obj [("present", .bool false)]),
    ("support_metadata", .obj [("present", .bool false), ("signature_verified", .bool false)]),
    ("files", .arr [])]

/-- The support packet of a bundle. -/
def presentPacket (now : ℕ) (summary : Json) : Json := .obj
  [("schema_version", .str "ao2.workbench-support-latest.v1"), ("present", .bool true),
    ("generated_at_ms", .num now), ("bundle_dir", .str (jsonStringOf summary "bundle_dir")),
    ("bundle_path", .str (jsonStringOf summary "bundle_path")),
    ("bundle_sha256", .str (jsonStringOf summary "bundle_sha256")),
    ("queue_job_count", jsonU64 summary "queue_job_count"),
    ("queue_job_diagnosis_count", jsonU64 summary "queue_job_diagnosis_count"),
    ("queue_job_diagnoses", jsonArray summary "queue_job_diagnoses"),
    ("audit_event_count", jsonU64 summary "audit_event_count"),
    ("job_log_count", jsonU64 summary "job_log_count"),
    ("evidence_export_count", jsonU64 summary "evidence_export_count"),
    ("evidence_exports", jsonArray summary "evidence_exports"),
    ("redaction_audit", summary.index "redaction_audit"),
    ("hermes_project_start_flow_contract",
      (summary.get? "hermes_project_start_flow_contract").getD (.obj [("present", .bool false)])),
    ("support_metadata", (summary.get? "support_metadata").getD .null),
    ("files", jsonArray summary "files")]

def latestWorkbenchSupportPacketJson (d : Directory) : Except WorkbenchError Json := do
  let summary ← latestWorkbenchSupportBundleSummary d
  match summary with
  | none => .ok (absentPacket d.now)
  | some summary => .ok (presentPacket d.now summary)

/-! ### Connections and handlers -/

/-- A client: whether it can be accepted, what a read of it returns, and whether it is there for the
response. -/
structure Connection where
  accepted : Bool
  received : Octets
  stays : Bool

/-- What a server meets: connections, a target in any state and handlers that may do anything to it. -/
structure Environment (σ : Type) where
  connections : ℕ → Connection
  directory : σ → Directory
  /-- The text of the start page. -/
  page : WorkbenchRenderOptions → Directory → (runs packet : Json) → Text
  handler : Handler → Arguments → σ → Except Failure Content × σ

structure World (σ : Type) where
  /-- The connections that have been tried. -/
  tried : ℕ
  current : Connection
  target : σ

section

variable {σ : Type}

def renderWorkbench (env : Environment σ) (options : WorkbenchRenderOptions) (d : Directory) :
    Except WorkbenchError Text := do
  let runs ← runsListJson d
  let packet ← latestWorkbenchSupportPacketJson d
  .ok (env.page options d runs packet)

/-- The handlers that only read what is known of the directory. -/
def readers : List Handler :=
  [.renderWorkbench, .runsListJson, .doctorReportJson, .providerMatrixJson,
    .latestWorkbenchSupportPacketJson]

/-- What a reader returns. -/
def Environment.read (env : Environment σ) (handler : Handler) (arguments : Arguments) (s : σ) :
    Except WorkbenchError Content :=
  let d := env.directory s
  match handler, arguments with
  | .renderWorkbench, .render options => (renderWorkbench env options d).map .page
  | .doctorReportJson, _ => .ok (.json d.doctor)
  | .providerMatrixJson, _ => .ok (.json d.providerMatrix)
  | .latestWorkbenchSupportPacketJson, _ => (latestWorkbenchSupportPacketJson d).map .json
  | _, _ => (runsListJson d).map .json

/-- What a handler returns and leaves. -/
def Environment.call (env : Environment σ) (handler : Handler) (arguments : Arguments) (s : σ) :
    Except Failure Content × σ :=
  if handler ∈ readers then ((env.read handler arguments s).mapError .error, s)
  else env.handler handler arguments s

def machine (env : Environment σ) : Machine signature (World σ) where
  step
    | .accept, w =>
      let current := env.connections w.tried
      (if current.accepted then .ok ()
        else .error (.error (.other "accept workbench connection")),
        { w with tried := w.tried + 1, current := current })
    | .read limit, w => (w.current.received.take limit, w)
    | .call handler arguments, w =>
      let r := env.call handler arguments w.target
      (r.1, { w with target := r.2 })
    | .write _, w =>
      (if w.current.stays then .ok () else .error (.error (.other "write workbench response")), w)

/-! ### Connections that are survived -/

/-- A directory that can be listed, with entries that can be read. -/
def Listed (runs : Listing DirEntry) : Prop :=
  ∀ listing ∈ runs, ∃ entries, listing = .ok entries ∧
    ∀ entry ∈ entries, ∃ e isDir, entry = .ok e ∧ e.isDir = .ok isDir

/-- The latest support bundle, if there is one, can be found and verified. -/
def Verified (d : Directory) : Prop :=
  ∀ listing ∈ d.supportBundles, ∃ entries, listing = .ok entries ∧
    ∀ bundle ∈ latestBundle entries, ∃ summary, d.verifySupportBundle bundle = .ok summary

/-- A call that does not end the server. -/
structure Harmless (env : Environment σ) (s : σ) (handler : Handler) (arguments : Arguments) : Prop where
  listed : handler ∈ [.renderWorkbench, .runsListJson] → Listed (env.directory s).runs
  verified : handler = .renderWorkbench → Verified (env.directory s)
  returns : handler ∉ readers → (env.handler handler arguments s).1 ≠ .error .panic

/-- A request that does not end the server: its values can be decoded, and its call is harmless. -/
structure Answerable (env : Environment σ) (server : Server) (s : σ) (request : Text) : Prop where
  decoded : ∀ {route query}, routeOf request = some (route, query) →
    ∀ e, route.prepare server query request ≠ .error (.error e)
  harmless : ∀ {route query arguments}, routeOf request = some (route, query) →
    route.prepare server query request = .ok arguments → Harmless env s route.handler arguments

/-- The text that is read of a connection. -/
def Connection.text (c : Connection) : Text := fromUtf8Lossy (c.received.take 8192)

/-- The next connection does not end the server. -/
structure Survives (env : Environment σ) (server : Server) (w : World σ) : Prop where
  accepted : (env.connections w.tried).accepted = true
  stays : (env.connections w.tried).stays = true
  answerable : Answerable env server w.target (env.connections w.tried).text

/-! ### Readers -/

theorem listRuns_isOk_iff (summary : String → Except WorkbenchError Json)
    (entries : List (Except WorkbenchError DirEntry)) :
    (∃ runs, listRuns summary entries = .ok runs) ↔
      ∀ entry ∈ entries, ∃ e isDir, entry = .ok e ∧ e.isDir = .ok isDir := by
  induction entries with
  | nil => simp [listRuns]
  | cons entry entries ih =>
    rw [List.forall_mem_cons, ← ih]
    constructor
    · rintro ⟨runs, h⟩
      rw [listRuns] at h
      obtain ⟨e, he, h⟩ := bind_eq_ok.mp h
      obtain ⟨isDir, hdir, h⟩ := bind_eq_ok.mp h
      obtain ⟨rest, hrest, -⟩ := bind_eq_ok.mp h
      exact ⟨⟨e, isDir, he, hdir⟩, rest, hrest⟩
    · rintro ⟨⟨e, isDir, rfl, hdir⟩, rest, hrest⟩
      obtain ⟨runs, hruns⟩ : ∃ runs, (match isDir, summary e.name with
          | true, .ok run => .ok (run :: rest)
          | _, _ => .ok rest : Except WorkbenchError (List Json)) = .ok runs := by
        cases isDir <;> cases summary e.name <;> exact ⟨_, rfl⟩
      rw [listRuns]
      exact ⟨runs, bind_eq_ok.mpr ⟨e, rfl, bind_eq_ok.mpr ⟨isDir, hdir,
        bind_eq_ok.mpr ⟨rest, hrest, hruns⟩⟩⟩⟩

theorem runSummaries_isOk_iff (d : Directory) : (∃ runs, runSummaries d = .ok runs) ↔ Listed d.runs := by
  unfold runSummaries Listed
  cases d.runs with
  | none => exact iff_of_true ⟨_, rfl⟩ (by simp)
  | some listing =>
    constructor
    · rintro ⟨v, h⟩ listing' hlisting
      obtain rfl := Option.mem_some_iff.mp hlisting
      obtain ⟨entries, hentries, hruns⟩ := bind_eq_ok.mp h
      exact ⟨entries, hentries, (listRuns_isOk_iff _ _).mp ⟨v, hruns⟩⟩
    · intro h
      obtain ⟨entries, rfl, hentries⟩ := h listing rfl
      obtain ⟨runs, hruns⟩ := (listRuns_isOk_iff d.runSummary _).mpr hentries
      exact ⟨runs, bind_eq_ok.mpr ⟨entries, rfl, hruns⟩⟩

theorem runsListJson_isOk_iff (d : Directory) : (∃ v, runsListJson d = .ok v) ↔ Listed d.runs := by
  rw [← runSummaries_isOk_iff]
  constructor
  · rintro ⟨v, h⟩
    obtain ⟨runs, hruns, -⟩ := bind_eq_ok.mp h
    exact ⟨runs, hruns⟩
  · rintro ⟨runs, hruns⟩
    exact ⟨_, bind_eq_ok.mpr ⟨runs, hruns, rfl⟩⟩

theorem latestSummary_isOk_iff (d : Directory) :
    (∃ v, latestWorkbenchSupportBundleSummary d = .ok v) ↔ Verified d := by
  unfold latestWorkbenchSupportBundleSummary Verified
  cases d.supportBundles with
  | none => exact iff_of_true ⟨_, rfl⟩ (by simp)
  | some listing =>
    constructor
    · rintro ⟨v, h⟩ listing' hlisting
      obtain rfl := Option.mem_some_iff.mp hlisting
      obtain ⟨entries, hentries, h⟩ := bind_eq_ok.mp h
      refine ⟨entries, hentries, fun bundle hbundle => ?_⟩
      rw [Option.mem_def.mp hbundle] at h
      obtain ⟨summary, hsummary, -⟩ := bind_eq_ok.mp h
      exact ⟨summary, hsummary⟩
    · intro h
      obtain ⟨entries, rfl, hlatest⟩ := h listing rfl
      cases hbundle : latestBundle entries with
      | none => exact ⟨none, bind_eq_ok.mpr ⟨entries, rfl, by rw [hbundle]⟩⟩
      | some bundle =>
        obtain ⟨summary, hsummary⟩ := hlatest bundle hbundle
        refine ⟨some summary, bind_eq_ok.mpr ⟨entries, rfl, ?_⟩⟩
        rw [hbundle]
        exact bind_eq_ok.mpr ⟨summary, hsummary, rfl⟩

theorem latestPacket_isOk_iff (d : Directory) :
    (∃ v, latestWorkbenchSupportPacketJson d = .ok v) ↔ Verified d := by
  rw [← latestSummary_isOk_iff]
  constructor
  · rintro ⟨v, h⟩
    obtain ⟨summary, hsummary, -⟩ := bind_eq_ok.mp h
    exact ⟨summary, hsummary⟩
  · rintro ⟨summary, hsummary⟩
    cases summary with
    | none => exact ⟨_, bind_eq_ok.mpr ⟨none, hsummary, rfl⟩⟩
    | some summary => exact ⟨_, bind_eq_ok.mpr ⟨some summary, hsummary, rfl⟩⟩

theorem renderWorkbench_isOk_iff (env : Environment σ) (options : WorkbenchRenderOptions)
    (d : Directory) :
    (∃ v, renderWorkbench env options d = .ok v) ↔ Listed d.runs ∧ Verified d := by
  rw [← runsListJson_isOk_iff, ← latestPacket_isOk_iff]
  constructor
  · rintro ⟨v, h⟩
    obtain ⟨runs, hruns, h⟩ := bind_eq_ok.mp h
    obtain ⟨packet, hpacket, -⟩ := bind_eq_ok.mp h
    exact ⟨⟨runs, hruns⟩, packet, hpacket⟩
  · rintro ⟨⟨runs, hruns⟩, packet, hpacket⟩
    exact ⟨_, bind_eq_ok.mpr ⟨runs, hruns, bind_eq_ok.mpr ⟨packet, hpacket, rfl⟩⟩⟩

/-! ### One call -/

/-- The routes that pass on the errors of their handlers. -/
theorem propagates_iff : ∀ route ∈ routes, route.onError = .propagate ↔ route.handler ∈
    [.renderWorkbench, .runsListJson, .doctorReportJson, .providerMatrixJson] := by
  decide

theorem respond_isOk_iff (route : Route) (answer : Except Failure Content) :
    (∃ response, route.respond answer = .ok response) ↔
      answer ≠ .error .panic ∧ (route.onError = .propagate → ∃ content, answer = .ok content) := by
  cases answer with
  | ok content => exact iff_of_true (by cases content <;> exact ⟨_, rfl⟩) ⟨nofun, fun _ => ⟨content, rfl⟩⟩
  | error failure =>
    cases failure with
    | panic => exact iff_of_false nofun fun h => h.1 rfl
    | error e =>
      rw [Route.respond]
      cases route.onError with
      | propagate => exact iff_of_false nofun fun h => by obtain ⟨content, hcontent⟩ := h.2 rfl; cases hcontent
      | respond => exact iff_of_true (by cases route.guard <;> exact ⟨_, rfl⟩) ⟨nofun, nofun⟩

/-- A start page is called with its options. -/
theorem arguments_render {server : Server} {query request : Text} {arguments : Arguments}
    (h : Route.indexPage.prepare server query request = .ok arguments) :
    ∃ options, arguments = .render options := by
  obtain ⟨hrender⟩ : Nonempty (Input.render.arguments server query request = .ok (some arguments)) := by
    rw [Route.prepare] at h
    split at h
    · cases h
    · cases h
    · split at h
      · cases h
      · cases h
      · rename_i harguments
        cases h
        exact ⟨harguments⟩
  obtain ⟨operator, -, h⟩ := bind_eq_ok.mp hrender
  cases operator with
  | none => cases h
  | some operator =>
    obtain ⟨options, -, h⟩ := bind_eq_ok.mp h
    cases h
    exact ⟨options, rfl⟩

theorem map_isOk_iff {α β : Type} {r : Except WorkbenchError α} (f : α → β) :
    (∃ b, r.map f = .ok b) ↔ ∃ a, r = .ok a := by
  cases r <;> simp [Except.map]

/-- What a reader returns is content exactly if the reader's call is harmless. -/
theorem read_isOk_iff (env : Environment σ) {server : Server} {s : σ} {route : Route}
    {query request : Text} {arguments : Arguments} (hroute : route ∈ routes)
    (hcall : route.prepare server query request = .ok arguments)
    (hpropagates : route.onError = .propagate) :
    (∃ content, env.read route.handler arguments s = .ok content) ↔
      Harmless env s route.handler arguments := by
  have hmem := (propagates_iff route hroute).mp hpropagates
  have hreader : route.handler ∈ readers := by
    revert hmem
    simp only [readers, List.mem_cons]
    tauto
  simp only [List.mem_cons, List.not_mem_nil, or_false] at hmem
  rcases hmem with hhandler | hhandler | hhandler | hhandler
  · have hindex := eq_of_handler hroute (by decide : Route.indexPage ∈ routes) hhandler
    subst hindex
    obtain ⟨options, rfl⟩ := arguments_render hcall
    refine (map_isOk_iff _).trans ((renderWorkbench_isOk_iff env options _).trans ?_)
    exact ⟨fun h => ⟨fun _ => h.1, fun _ => h.2, fun h' => absurd hreader h'⟩,
      fun h => ⟨h.listed (by decide), h.verified rfl⟩⟩
  · rw [hhandler] at hreader ⊢
    refine (map_isOk_iff _).trans ((runsListJson_isOk_iff _).trans ?_)
    exact ⟨fun h => ⟨fun _ => h, fun h' => absurd h' (by decide), fun h' => absurd hreader h'⟩,
      fun h => h.listed (by decide)⟩
  · rw [hhandler] at hreader ⊢
    exact iff_of_true ⟨_, rfl⟩ ⟨fun h => absurd h (by decide), fun h => absurd h (by decide),
      fun h' => absurd hreader h'⟩
  · rw [hhandler] at hreader ⊢
    exact iff_of_true ⟨_, rfl⟩ ⟨fun h => absurd h (by decide), fun h => absurd h (by decide),
      fun h' => absurd hreader h'⟩

theorem mapError_ne_panic {α : Type} (r : Except WorkbenchError α) :
    r.mapError Failure.error ≠ .error .panic := by
  cases r <;> exact nofun

/-- **The call of a handler is answered** exactly if it is harmless. -/
theorem answered_iff (env : Environment σ) {server : Server} {s : σ} {route : Route}
    {query request : Text} {arguments : Arguments} (hroute : route ∈ routes)
    (hcall : route.prepare server query request = .ok arguments) :
    (∃ response, route.respond (env.call route.handler arguments s).1 = .ok response) ↔
      Harmless env s route.handler arguments := by
  rw [respond_isOk_iff, Environment.call]
  split_ifs with hreader
  · by_cases hpropagates : route.onError = .propagate
    · rw [← read_isOk_iff env hroute hcall hpropagates]
      constructor
      · intro h
        obtain ⟨content, hcontent⟩ := h.2 hpropagates
        exact ⟨content, mapError_eq_ok.mp hcontent⟩
      · rintro ⟨content, hcontent⟩
        exact ⟨mapError_ne_panic _, fun _ => ⟨content, mapError_eq_ok.mpr hcontent⟩⟩
    · have hnot := mt (propagates_iff route hroute).mpr hpropagates
      refine iff_of_true ⟨mapError_ne_panic _, fun h => absurd h hpropagates⟩
        ⟨fun h => absurd ?_ hnot, fun h => absurd ?_ hnot, fun h => absurd hreader h⟩
      · revert h
        simp only [List.mem_cons]
        tauto
      · rw [h]
        decide
  · have hnot : route.onError ≠ .propagate := by
      rw [Ne, propagates_iff route hroute]
      revert hreader
      simp only [readers, List.mem_cons]
      tauto
    constructor
    · intro h
      refine ⟨fun h' => absurd ?_ hreader, fun h' => absurd ?_ hreader, fun _ => h.1⟩
      · revert h'
        simp only [readers, List.mem_cons]
        tauto
      · rw [h']
        decide
    · exact fun h => ⟨h.returns hreader, fun h' => absurd h' hnot⟩

/-! ### One connection -/

theorem run_ofExcept (env : Environment σ) (r : Except Failure Response) (w : World σ) :
    (machine env).run (.ofExcept r) w = (r, w) := by
  cases r <;> rfl

/-- What is done with a request: it ends with a response exactly if the request can be answered. -/
theorem run_handle (env : Environment σ) (server : Server) (request : Text) (w : World σ) :
    ∃ outcome target,
      (machine env).run (handleWorkbenchRequest server request) w = (outcome, { w with target := target }) ∧
        ((∃ response, outcome = .ok response) ↔ Answerable env server w.target request) := by
  by_cases hne : request = []
  · subst hne
    refine ⟨.ok _, w.target, rfl, iff_of_true ⟨_, rfl⟩ ⟨?_, ?_⟩⟩
    · exact nofun
    · exact nofun
  rcases handle_cases server hne with ⟨hroute, hhandle⟩ | ⟨route, query, reason, hroute, hstop, -, hhandle⟩ |
    ⟨route, query, arguments, hroute, hcall, hhandle⟩
  · refine ⟨.ok notFound, w.target, by rw [hhandle]; rfl, iff_of_true ⟨_, rfl⟩ ⟨?_, ?_⟩⟩
    · intro route query h
      rw [hroute] at h
      cases h
    · intro route query arguments h
      rw [hroute] at h
      cases h
  · refine ⟨reason, w.target, by rw [hhandle, run_ofExcept], ?_⟩
    constructor
    · rintro ⟨response, rfl⟩
      refine ⟨?_, ?_⟩
      · intro route' query' h e herror
        obtain ⟨rfl, rfl⟩ := Prod.mk.inj (Option.some.inj (hroute.symm.trans h))
        rw [hstop] at herror
        cases herror
      · intro route' query' arguments h hcall
        obtain ⟨rfl, rfl⟩ := Prod.mk.inj (Option.some.inj (hroute.symm.trans h))
        rw [hstop] at hcall
        cases hcall
    · intro h
      cases reason with
      | ok response => exact ⟨response, rfl⟩
      | error e => exact absurd hstop (h.decoded hroute e)
  · refine ⟨route.respond (env.call route.handler arguments w.target).1,
      (env.call route.handler arguments w.target).2, ?_, ?_⟩
    · rw [hhandle]
      exact run_ofExcept env _ _
    · rw [answered_iff env (mem_routes_of_routeOf hroute) hcall]
      constructor
      · intro h
        refine ⟨?_, ?_⟩
        · intro route' query' h' e herror
          obtain ⟨rfl, rfl⟩ := Prod.mk.inj (Option.some.inj (hroute.symm.trans h'))
          rw [hcall] at herror
          cases herror
        · intro route' query' arguments' h' hcall'
          obtain ⟨rfl, rfl⟩ := Prod.mk.inj (Option.some.inj (hroute.symm.trans h'))
          obtain rfl := Except.ok.inj (hcall.symm.trans hcall')
          exact h
      · exact fun h => h.harmless hroute hcall

/-- The response is written, if the client is there. -/
def writeResponse (response : Response) : Prog signature Failure Unit := do
  let written ← Prog.perform (S := signature) (.write response)
  .ofExcept written

theorem run_writeResponse (env : Environment σ) (response : Response) (w : World σ) :
    ((machine env).run (writeResponse response) w).1 = .ok () ↔ w.current.stays = true := by
  have hrun : ((machine env).run (writeResponse response) w).1 =
      if w.current.stays then .ok () else .error (.error (.other "write workbench response")) := by
    change ((machine env).run (.ofExcept (if w.current.stays then _ else _)) w).1 = _
    cases w.current.stays <;> rfl
  rw [hrun]
  cases w.current.stays <;> simp

/-- The world in which the next connection is handled. -/
def World.next (env : Environment σ) (w : World σ) : World σ :=
  { w with tried := w.tried + 1, current := env.connections w.tried }

theorem run_serveConnection (env : Environment σ) (server : Server) (w : World σ) :
    (machine env).run (serveConnection server) w =
      if (env.connections w.tried).accepted then
        (machine env).run ((handleWorkbenchRequest server (env.connections w.tried).text).bind writeResponse)
          (w.next env)
      else (.error (.error (.other "accept workbench connection")), w.next env) := by
  change (machine env).run ((Prog.ofExcept (if (env.connections w.tried).accepted then _ else _)).bind _)
    (w.next env) = _
  cases (env.connections w.tried).accepted <;> rfl

/-- **One connection** does not end the server exactly if it is survived. -/
theorem survives_iff (env : Environment σ) (server : Server) (w : World σ) :
    ((machine env).run (serveConnection server) w).1 = .ok () ↔ Survives env server w := by
  rw [run_serveConnection]
  by_cases haccepted : (env.connections w.tried).accepted = true
  · obtain ⟨outcome, target, hrun, hanswerable⟩ :=
      run_handle env server (env.connections w.tried).text (w.next env)
    rw [if_pos haccepted, Machine.run_bind, hrun]
    cases outcome with
    | error e =>
      refine iff_of_false nofun fun h => ?_
      obtain ⟨response, hresponse⟩ := hanswerable.mpr h.answerable
      cases hresponse
    | ok response =>
      have hanswered := hanswerable.mp ⟨response, rfl⟩
      refine (run_writeResponse env response _).trans ?_
      exact ⟨fun h => ⟨haccepted, h, hanswered⟩, fun h => h.stays⟩
  · rw [if_neg haccepted]
    exact iff_of_false nofun fun h => haccepted h.accepted

end

/-! ### An escape in front of a character of several bytes -/

def escapeText : Text := "GET /api/runs?token=%e€ HTTP/1.1\r\n\r\n".toList

def escapeEnvironment : Environment Unit where
  connections _ := { accepted := true, received := utf8Bytes escapeText, stays := true }
  directory _ :=
    { target := ".", runs := none, runSummary := fun _ => .error (.other "read"), supportBundles := none,
      verifySupportBundle := fun _ => .error (.other "read"), doctor := .null, providerMatrix := .null,
      now := 0 }
  page _ _ _ _ := []
  handler _ _ s := (.ok (.json .null), s)

def escapeServer : Server where
  operators := [{ id := "local-admin", role := .admin, token := ['t'] }]
  queue := false

def runsRoute : Route := ((Route.view "/api/runs" .runsListJson).reading .nothing).propagating

theorem routeOf_escape :
    routeOf (escapeEnvironment.connections 0).text = some (runsRoute, "token=%e€".toList) := by
  decide

/-- Nobody is asked who the client is. -/
theorem prepare_escape :
    runsRoute.prepare escapeServer "token=%e€".toList (escapeEnvironment.connections 0).text =
      .error (.error .panic) := by
  rfl

end Workbench

end Ao2
