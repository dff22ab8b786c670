import Ao2.Run.Writes

/-!
# Tickets within a session

The list of consumed tickets is forgotten when a session begins. Within a session it is complete: it has
every ticket on which a patch was applied since, but for the one whose application is being finished. So a
session applies at most one patch on a ticket, and refuses an action as changed after its approval only
for a ticket that it has not used.

## Main definitions

* `AppliedSince` — a patch was applied on a ticket in the session
* `SessionSound` — the invariant

## Main results

* `applied_once` — each application is the first one on its ticket in the session
* `stale_unused` — a refusal is for a ticket that the session has not used
-/

namespace Ao2

open Interaction

def Obs.isCleared : Obs → Bool
  | .cleared => true
  | _ => false

/-- The history since the last session began. -/
def sinceCleared : List Obs → List Obs := sinceLast Obs.isCleared

/-- A patch was applied on the ticket since the last session began. -/
def AppliedSince (trace : List Obs) (id : String) : Prop :=
  ∃ key digest, .applied key id digest ∈ sinceCleared trace

theorem sinceCleared_cleared (trace : List Obs) : sinceCleared (trace ++ [.cleared]) = [] :=
  sinceLast_concat ..

theorem sinceCleared_concat {o : Obs} (h : o.isCleared = false) (trace : List Obs) :
    sinceCleared (trace ++ [o]) = sinceCleared trace ++ [o] := by
  rw [sinceCleared, sinceLast_concat, h]
  rfl

theorem not_appliedSince_cleared (trace : List Obs) (id : String) :
    ¬ AppliedSince (trace ++ [.cleared]) id := by
  rintro ⟨key, digest, h⟩
  rw [sinceCleared_cleared] at h
  cases h

/-- An entry that is no application leaves the applications as they are. -/
theorem AppliedSince.of_concat {trace : List Obs} {o : Obs} {id : String}
    (h : AppliedSince (trace ++ [o]) id) (ho : ∀ key digest, o ≠ .applied key id digest) :
    AppliedSince trace id := by
  obtain ⟨key, digest, h⟩ := h
  cases hcleared : o.isCleared with
  | true =>
    cases o <;> cases hcleared
    rw [sinceCleared_cleared] at h
    cases h
  | false =>
    rw [sinceCleared_concat hcleared] at h
    rcases List.mem_append.mp h with h | h
    · exact ⟨key, digest, h⟩
    · exact absurd (List.mem_singleton.mp h).symm (ho key digest)

/-! ### The invariant -/

/-- What the session of a command has used. -/
structure Flight.Uses (w : World) (fl : Flight) : Prop where
  /-- What was applied is listed, or about to be. -/
  listed : fl.mode = .session → fl.phase ≠ .opening → ∀ id, AppliedSince w.trace id →
    id ∈ w.used ∨ ∃ key ticket, fl.phase = .applied key ticket ∧ ticket.ticketId = id
  cleared : fl.phase = .clearing → ∀ id, ¬ AppliedSince w.trace id
  applying : ∀ {key ticket digest}, fl.phase = .applying key ticket digest →
    ¬ AppliedSince w.trace ticket.ticketId ∧
      .authorised key ticket.ticketId digest ∈ sinceCleared w.trace

/-- **The list of consumed tickets is complete within a session.** -/
def SessionSound (s : State) : Prop := ∀ fl, s.2 = some fl → fl.Uses s.1

namespace Flight.Uses

variable {w w' : World} {fl fl' : Flight}

/-- The command goes on without an application. -/
theorem frame (h : fl.Uses w) {os : List Obs} (htrace : w'.trace = w.trace ++ os)
    (hos : os = [] ∨ ∃ o, os = [o] ∧ o.isCleared = false ∧ ∀ key id digest, o ≠ .applied key id digest)
    (hused : w'.consumed = w.consumed) (hmode : fl'.mode = fl.mode)
    (hphase : fl'.phase = fl.phase ∨ fl.phase ≠ .opening ∧ (∀ key ticket, fl.phase ≠ .applied key ticket) ∧
      fl'.phase ≠ .clearing ∧ ∀ key ticket digest, fl'.phase ≠ .applying key ticket digest) :
    fl'.Uses w' := by
  have happlied {id : String} (ha : AppliedSince w'.trace id) : AppliedSince w.trace id := by
    rw [htrace] at ha
    rcases hos with rfl | ⟨o, rfl, -, ho⟩
    · rwa [List.append_nil] at ha
    · exact ha.of_concat fun key digest => ho key id digest
  refine ⟨fun hsession hopening id ha => ?_, fun hclearing id ha => ?_, fun {key ticket digest} hap => ?_⟩
  · rw [World.used, hused]
    rcases hphase with hphase | ⟨hnot, hnone, -⟩
    · rw [hphase] at hopening ⊢
      exact h.listed (hmode ▸ hsession) hopening id (happlied ha)
    · refine .inl ((h.listed (hmode ▸ hsession) hnot id (happlied ha)).resolve_right ?_)
      rintro ⟨key, ticket, hphase, -⟩
      exact hnone key ticket hphase
  · rcases hphase with hphase | ⟨-, -, hnot, -⟩
    · exact h.cleared (hphase ▸ hclearing) id (happlied ha)
    · exact hnot hclearing
  · rcases hphase with hphase | ⟨-, -, -, hnot⟩
    · obtain ⟨hfirst, hauthorised⟩ := h.applying (hphase ▸ hap)
      refine ⟨fun ha => hfirst (happlied ha), ?_⟩
      rw [htrace]
      rcases hos with rfl | ⟨o, rfl, hcleared, -⟩
      · rwa [List.append_nil]
      · rw [sinceCleared_concat hcleared]
        exact List.mem_append_left _ hauthorised
    · exact absurd hap (hnot key ticket digest)

/-- The same, with nothing new in the history. -/
theorem stay (h : fl.Uses w) (htrace : w'.trace = w.trace) (hused : w'.consumed = w.consumed)
    (hmode : fl'.mode = fl.mode)
    (hphase : fl'.phase = fl.phase ∨ fl.phase ≠ .opening ∧ (∀ key ticket, fl.phase ≠ .applied key ticket) ∧
      fl'.phase ≠ .clearing ∧ ∀ key ticket digest, fl'.phase ≠ .applying key ticket digest) :
    fl'.Uses w' :=
  have htrace : w'.trace = w.trace ++ [] := by rw [htrace, List.append_nil]
  h.frame htrace (.inl rfl) hused hmode hphase

/-- The same, with one entry of the history. -/
theorem observe {o : Obs} (h : fl.Uses w) (htrace : w'.trace = w.trace ++ [o])
    (hcleared : o.isCleared = false) (happlied : ∀ key id digest, o ≠ .applied key id digest)
    (hused : w'.consumed = w.consumed) (hmode : fl'.mode = fl.mode)
    (hphase : fl'.phase = fl.phase ∨ fl.phase ≠ .opening ∧ (∀ key ticket, fl.phase ≠ .applied key ticket) ∧
      fl'.phase ≠ .clearing ∧ ∀ key ticket digest, fl'.phase ≠ .applying key ticket digest) :
    fl'.Uses w' :=
  h.frame htrace (.inr ⟨o, rfl, hcleared, happlied⟩) hused hmode hphase

/-- A command is launched. -/
theorem launch {ctx : RunContext} {mode : Mode} {plan : List ActionKey} {phase : Phase}
    (h : phase = .opening ∨ phase = .idle ∧ mode ≠ .session) :
    (Flight.launch ctx mode plan phase).Uses w := by
  refine ⟨fun hsession hopening => ?_, fun hclearing => ?_, fun hap => ?_⟩
  · rcases h with rfl | ⟨-, hmode⟩
    · exact absurd rfl hopening
    · exact absurd hsession hmode
  · rcases h with rfl | ⟨rfl, -⟩ <;> cases hclearing
  · rcases h with rfl | ⟨rfl, -⟩ <;> cases hap

end Flight.Uses

namespace SessionSound

variable [Platform] {runId : String} {s s' : State}

omit [Platform] in
theorem of_none (w : World) : SessionSound (w, none) := fun _ h => by cases h

omit [Platform] in
theorem of_some {w : World} {fl : Flight} (h : fl.Uses w) : SessionSound (w, some fl) := by
  rintro _ ⟨⟩
  exact h

/-- **It stays complete.** -/
theorem move (hm : Move runId s s') (h : SessionSound s) : SessionSound s' := by
  cases hm with
  | quiet | land | options | grant | granted => exact .of_none _
  | start => exact .of_some (.launch (.inl rfl))
  | beginSession => exact .of_some (.launch (.inl rfl))
  | approve | rewrite | beginScripted => exact .of_some (.launch (.inr ⟨rfl, nofun⟩))
  | @calm w w' fl ctx hc =>
    obtain ⟨⟨_, _, _, rfl, -⟩, -⟩ := hc
    exact .of_some ((h fl rfl).stay rfl rfl rfl (.inl rfl))
  | @outside w fl | @contents w fl =>
    cases fl with
    | none => exact .of_none _
    | some fl => exact .of_some ((h fl rfl).stay rfl rfl rfl (.inl rfl))
  | @summary w w' fl key a k _ hphase hq =>
    obtain ⟨_, _, _, rfl, -⟩ := hq
    exact .of_some ((h fl rfl).stay rfl rfl rfl
      (.inr ⟨by rw [hphase]; nofun, by rw [hphase]; nofun, nofun, nofun⟩))
  | @decide _ fl | @keep _ fl | @close _ fl | @skip _ fl | @removeSandbox _ fl =>
    exact .of_some ((h fl rfl).stay rfl rfl rfl (.inl rfl))
  | @createSandbox w fl key hphase =>
    exact .of_some ((h fl rfl).stay rfl rfl rfl
      (.inr ⟨by rw [hphase]; nofun, by rw [hphase]; nofun, nofun, nofun⟩))
  | @verified w fl | @write w fl | @sought w fl | @stale w fl =>
    exact .of_some ((h fl rfl).observe rfl rfl nofun rfl rfl (.inl rfl))
  | @request w fl key digest ticket _ _ _ _ hphase =>
    exact .of_some ((h fl rfl).observe rfl rfl nofun rfl rfl
      (.inr ⟨by rw [hphase]; nofun, by rw [hphase]; nofun, nofun, nofun⟩))
  | @firstTicket w fl ticket request _ _ _ hmode =>
    refine .of_some ⟨fun hsession => ?_, nofun, nofun⟩
    cases hmode.symm.trans hsession
  | @record w fl status eventId tick hmay =>
    refine .of_some ((h fl rfl).stay rfl rfl rfl (.inr ⟨?_, ?_, nofun, nofun⟩))
    · intro hphase
      have := hmay.1
      rw [hphase] at this
      cases this
    · intro key ticket hphase
      have := hmay.1
      rw [hphase] at this
      cases this
  | @cleared w fl =>
    have hnone : ∀ id, ¬ AppliedSince (w.observe .cleared).trace id := not_appliedSince_cleared w.trace
    exact .of_some ⟨fun _ _ id ha => absurd ha (hnone id), fun _ => hnone, nofun⟩
  | @forgotten w fl hphase =>
    have hnone := (h fl rfl).cleared hphase
    exact .of_some ⟨fun _ _ id ha => absurd ha (hnone id), nofun, nofun⟩
  | @authorise w fl key digest ticket now hat hphase hsandbox htrace hfound hverify =>
    have hfl := h fl rfl
    have hidle : fl.phase ≠ .opening := by rw [hphase]; nofun
    have hlisted {id : String} (ha : AppliedSince (w.observe (.authorised key ticket.ticketId digest)).trace id) :
        id ∈ w.used := by
      refine (hfl.listed hat.1 hidle id (ha.of_concat nofun)).resolve_right ?_
      rintro ⟨key, ticket, happlied, -⟩
      cases hphase.symm.trans happlied
    refine .of_some ⟨fun _ _ id ha => .inl (hlisted ha), nofun, ?_⟩
    rintro _ _ _ ⟨⟩
    refine ⟨fun ha => (findApproved_eq_some hfound).2.2.2.2.2 (hlisted ha), ?_⟩
    have : sinceCleared (w.observe (.authorised key ticket.ticketId digest)).trace = _ :=
      sinceCleared_concat rfl w.trace
    rw [this]
    exact List.mem_append_right _ (.head _)
  | @applied w fl key digest ticket hphase =>
    have hfl := h fl rfl
    refine .of_some ⟨fun hsession _ id ha => ?_, nofun, nofun⟩
    by_cases hid : ticket.ticketId = id
    · exact .inr ⟨key, ticket, rfl, hid⟩
    · have ha : AppliedSince w.trace id := ha.of_concat (by rintro _ _ ⟨⟩; exact hid rfl)
      refine .inl ((hfl.listed hsession (by rw [hphase]; nofun) id ha).resolve_right ?_)
      rintro ⟨key, ticket, happlied, -⟩
      cases hphase.symm.trans happlied
  | @consume w fl key ticket hphase =>
    refine .of_some ⟨fun hsession _ id ha => ?_, nofun, nofun⟩
    refine .inl (List.mem_append.mpr ?_)
    rcases (h fl rfl).listed hsession (by rw [hphase]; nofun) id ha with hused | ⟨key, ticket', happlied, hid⟩
    · exact .inl hused
    · cases hphase.symm.trans happlied
      exact .inr (hid ▸ List.mem_singleton_self _)

end SessionSound

/-! ### Entries -/

section

variable [Platform] {runId : String}

/-- The tickets are sound, and the list of consumed ones is complete. -/
def Sessions (runId : String) (s : State) : Prop := WritesSound runId s ∧ SessionSound s

/-- What is known of an application and of a refusal. -/
def SessionEntry (before : List Obs) : Obs → Prop
  | .applied key id digest =>
    ¬ AppliedSince before id ∧ .authorised key id digest ∈ sinceCleared before ∧
      .granted id (sandboxRequest key digest) ∈ before
  | .stale key id current =>
    ¬ AppliedSince before id ∧ ∃ key' digest, key'.roleId = key.roleId ∧ digest ≠ current ∧
      .granted id (sandboxRequest key' digest) ∈ before
  | _ => True

omit [Platform] in
theorem findStale_eq_some {requester digest : String} {consumed : List String}
    {approvals : List ApprovalTicket} {t : ApprovalTicket}
    (h : findStale requester digest consumed approvals = some t) :
    t ∈ approvals ∧ t.requestedAction = "sandbox:apply" ∧ t.status = "approved" ∧
      t.requester = requester ∧ t.actionDigest ≠ digest ∧ t.ticketId ∉ consumed := by
  have hp := List.find?_some h
  simp only [Bool.and_eq_true, decide_eq_true_eq, Bool.not_eq_true', List.contains_eq_mem,
    decide_eq_false_iff_not] at hp
  obtain ⟨⟨⟨⟨⟨haction, -⟩, hstatus⟩, hrequester⟩, hdigest⟩, hconsumed⟩ := hp
  exact ⟨List.mem_of_find?_eq_some h, haction, hstatus, hrequester, hdigest, hconsumed⟩

omit [Platform] in
theorem ActionKey.roleId_eq_of_principal {key key' : ActionKey} (h : key.principal = key'.principal) :
    key.roleId = key'.roleId := (String.append_right_inj "role:").mp h

/-- A ticket for a sandbox patch that was approved was granted for one. -/
theorem Backed.granted_sandbox {trace : List Obs} {t : ApprovalTicket} (h : Backed runId trace t)
    (hissued : ∀ {key id request}, .requested key id request ∈ trace → IssuedFor key request)
    (haction : t.requestedAction = "sandbox:apply") (hstatus : t.status = "approved") :
    ∃ key, t.requester = key.principal ∧
      .granted t.ticketId (sandboxRequest key t.actionDigest) ∈ trace := by
  obtain ⟨-, key, request, hrequested, hstands, hdecided⟩ := h
  have hname : "sandbox:apply" = "sandbox" ++ ":" ++ "apply" := by decide +kernel
  have hgranted : .granted t.ticketId request ∈ trace := by
    rcases hdecided with ⟨hpending, -⟩ | ⟨-, hgranted⟩
    · exact absurd (hpending.symm.trans hstatus) (by decide)
    · exact hgranted
  cases hissued hrequested with
  | start isRealProject =>
    have hfile := hstands.action.symm.trans (haction.trans hname)
    cases isRealProject <;> exact absurd hfile filesystem_ne_sandbox
  | action key digest =>
    have hdigest : t.actionDigest = digest := hstands.digest
    exact ⟨key, hstands.requester, hdigest ▸ hgranted⟩

namespace Move

variable {s s' : State} {key : ActionKey} {id digest : String}

/-- A patch is counted as applied by the command that applies it. -/
theorem applied_entry (h : Move runId s s')
    (ho : s'.1.trace = s.1.trace ++ [.applied key id digest]) :
    ∃ fl ticket, s.2 = some fl ∧ fl.phase = .applying key ticket digest ∧ id = ticket.ticketId := by
  cases h with
  | quiet h | summary _ _ h =>
    obtain ⟨_, _, _, rfl, -⟩ := h
    simp at ho
  | calm h =>
    obtain ⟨_, _, _, rfl, -⟩ := h.quiet
    simp at ho
  | applied hphase =>
    simp [World.observe] at ho
    obtain ⟨rfl, rfl, rfl⟩ := ho
    exact ⟨_, _, rfl, hphase, rfl⟩
  | _ => simp [World.observe] at ho

/-- An action is refused as changed after its approval by the command that is at it. -/
theorem stale_entry (h : Move runId s s') (ho : s'.1.trace = s.1.trace ++ [.stale key id digest]) :
    ∃ fl ticket, s.2 = some fl ∧ fl.At key ∧ fl.phase = .idle ∧ id = ticket.ticketId ∧
      findStale key.principal digest s.1.used fl.ctx.approvals = some ticket := by
  cases h with
  | quiet h | summary _ _ h =>
    obtain ⟨_, _, _, rfl, -⟩ := h
    simp at ho
  | calm h =>
    obtain ⟨_, _, _, rfl, -⟩ := h.quiet
    simp at ho
  | stale hat hphase _ _ hstale =>
    simp [World.observe] at ho
    obtain ⟨rfl, rfl, rfl⟩ := ho
    exact ⟨_, _, rfl, hat, hphase, rfl, hstale⟩
  | _ => simp [World.observe] at ho

end Move

theorem sessionEntry (target : Repo) (env : Env) (ss : List Step) :
    EachEntry SessionEntry ((World.fresh target env).steps runId ss).trace := by
  refine World.steps_eachEntry (I := Sessions runId) rfl ⟨.fresh target env, .of_none _⟩
    (fun _ _ hm h => ⟨h.1.move hm, h.2.move hm⟩) (fun _ _ _ hh h => ⟨h.1.halt hh, .of_none _⟩) ?_
  rintro ⟨w, fl⟩ s' o hm ⟨hwrites, hsession⟩ ho
  cases o with
  | applied key id digest =>
    obtain ⟨fl, ticket, rfl, hphase, rfl⟩ := hm.applied_entry ho
    obtain ⟨hfirst, hauthorised⟩ := (hsession fl rfl).applying hphase
    refine ⟨hfirst, hauthorised, ?_⟩
    have hmay : fl.MayChange (.sandboxPatch key digest) := ⟨ticket, hphase⟩
    have hin := hwrites.flying fl rfl
    obtain ⟨-, husable⟩ := hin.applying hphase
    have hheld : ticket ∈ w.held := (hin.ready hmay).1 ▸ husable.mem
    exact (hwrites.grantedFor hmay hheld husable.standsFor).granted
  | stale key id current =>
    obtain ⟨fl, ticket, rfl, hat, hphase, rfl, hstale⟩ := hm.stale_entry ho
    obtain ⟨hmem, haction, hstatus, hrequester, hdigest, hunused⟩ := findStale_eq_some hstale
    have hbacked : Backed runId w.trace ticket := (hwrites.tickets.flying fl rfl).2 ticket hmem
    obtain ⟨key', hkey', hgranted⟩ := hbacked.granted_sandbox hwrites.tickets.issued haction hstatus
    refine ⟨fun happlied => ?_, key', ticket.actionDigest,
      ActionKey.roleId_eq_of_principal (hkey'.symm.trans hrequester), hdigest, hgranted⟩
    have hopening : fl.phase ≠ .opening := by rw [hphase]; nofun
    rcases (hsession fl rfl).listed hat.1 hopening _ happlied with hused | ⟨_, _, happlied, -⟩
    · exact hunused hused
    · cases hphase.symm.trans happlied
  | _ => trivial

/-- **A ticket serves once in a session.** In every history, processes stopped at any point included, a
session applies a patch only on a ticket that it has not used, that was granted for exactly this patch of
this role, and for which it has cleared the action. -/
theorem applied_once {target : Repo} {env : Env} {ss : List Step} {before : List Obs}
    {key : ActionKey} {id digest : String}
    (h : before ++ [.applied key id digest] <+: ((World.fresh target env).steps runId ss).trace) :
    ¬ AppliedSince before id ∧ .authorised key id digest ∈ sinceCleared before ∧
      .granted id (sandboxRequest key digest) ∈ before :=
  sessionEntry target env ss before _ h

/-- **No ticket that has served makes an action stale** in the session in which it has served: an action
is refused as changed after its approval only for a ticket of its role that was granted for another patch
and has not been used in the session. -/
theorem stale_unused {target : Repo} {env : Env} {ss : List Step} {before : List Obs}
    {key : ActionKey} {id current : String}
    (h : before ++ [.stale key id current] <+: ((World.fresh target env).steps runId ss).trace) :
    ¬ AppliedSince before id ∧ ∃ key' digest, key'.roleId = key.roleId ∧ digest ≠ current ∧
      .granted id (sandboxRequest key' digest) ∈ before :=
  sessionEntry target env ss before _ h

end

/-! ### A provider's patch, approved and applied -/

theorem prefix_dropLast_concat {trace : List Obs} {o : Obs} (h : trace.getLast? = some o) :
    trace.dropLast ++ [o] <+: trace :=
  ⟨[], by rw [List.append_nil, List.dropLast_append_getLast? o h]⟩

section

attribute [local instance] spellingPlatform

/-- What the patch that gives the one file of the small repository this content is bound to. -/
def patchSubject (content : String) : Json :=
  match previewSandboxPatch (smallRepo "x") (smallTree content) with
  | .ok preview => preview.approvalSubject.toJson
  | .error _ => .null

end

@[reducible] def patchPlatform : Platform :=
  numberingPlatform [(safeRequest false).toJson, patchSubject "y", patchSubject "z"]

section

attribute [local instance] patchPlatform

/-- A provider run whose patch is approved, and then something else or nothing before it is resumed. -/
def patchedWorld (between : List Call) : World :=
  (World.fresh (smallRepo "x") (scriptedEnv 0)).steps "r" (undisturbed
    ([.startProvider ⟨"w", .codex, "p", 0, none⟩ 0, .approve "approval-106" "bob"] ++ between ++
      [.resume]))

set_option maxRecDepth 100000 in
theorem applied_once_approved : ∃ before, ¬ AppliedSince before "approval-106" ∧
    .authorised (implementerKey .providerPromptPatch) "approval-106" "#1" ∈ sinceCleared before := by
  have h : (patchedWorld []).trace.getLast? =
      some (.applied (implementerKey .providerPromptPatch) "approval-106" "#1") := by decide +kernel
  exact ⟨_, (applied_once (prefix_dropLast_concat h)).1, (applied_once (prefix_dropLast_concat h)).2.1⟩

set_option maxRecDepth 100000 in
/-- The sandbox is changed after the patch was approved. -/
theorem stale_unused_edited : ∃ before, ¬ AppliedSince before "approval-106" ∧
    ∃ key' digest, key'.roleId = "implementer" ∧ digest ≠ "#11" ∧
      .granted "approval-106" (sandboxRequest key' digest) ∈ before := by
  have h : (patchedWorld [.editSandbox (implementerKey .providerPromptPatch).sandboxDir
      (smallTree "z")]).trace.getLast? =
      some (.stale (implementerKey .providerPromptPatch) "approval-106" "#11") := by decide +kernel
  exact ⟨_, stale_unused (prefix_dropLast_concat h)⟩

end

end Ao2
