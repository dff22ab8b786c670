import Ao2.Run.Tickets
import Ao2.Json.Encoding

/-!
# Writes to the target

Every write to the target repository but that of the scripted correction happens while the run
holds a ticket that was granted for exactly what is written. What the scripted writes do not look at
is who approved the ticket and until when; the application of a sandbox patch looks at both, before
it begins.

## Main results

* `approvedWrite_iff` — exactly which writes are approved when they happen
-/

namespace Ao2

open Interaction

section

variable [Platform] {runId : String}

/-! ### Approved writes -/

/-- The request that a write to the target executes. -/
def WriteKind.request : WriteKind → ToolRequest
  | firstPatch => safeRequest false
  | correctionPatch =>
    { safeRequest false with
      resource := "tests/test_discounts.py"
      args := ["write_file", "tests/test_discounts.py"] }
  | sandboxPatch key digest => sandboxRequest key digest

/-- The ticket is one of the run, granted for exactly the request. -/
structure GrantedFor (runId : String) (before : List Obs) (request : ToolRequest)
    (t : ApprovalTicket) : Prop where
  run : t.runId = runId
  standsFor : StandsFor t request
  granted : .granted t.ticketId request ∈ before
  approved : t.status = "approved"

/-- The ticket names an approver that is not empty. -/
def NamesApprover (t : ApprovalTicket) : Prop := ∃ approver, t.approver = some approver ∧ approver ≠ ""

/-- A write is approved: the run holds a ticket granted for exactly what is written, which names its
approver and has not expired at the moment. -/
def ApprovedWrite (runId : String) (before : List Obs) (kind : WriteKind) (moment : DateTime)
    (held : List ApprovalTicket) : Prop :=
  ∃ t ∈ held, GrantedFor runId before kind.request t ∧ NamesApprover t ∧ moment ≤ t.expiresAt

/-- The write is not the scripted correction, and a ticket for what is written names its approver and
has not expired at the moment. -/
def InTime (kind : WriteKind) (moment : DateTime) (held : List ApprovalTicket) : Prop :=
  kind ≠ .correctionPatch ∧
    ∃ t ∈ held, StandsFor t kind.request ∧ NamesApprover t ∧ moment ≤ t.expiresAt

/-! ### What tickets stand for -/

omit [Platform] in
theorem filesystem_ne_sandbox :
    "filesystem" ++ ":" ++ "write_file" ≠ "sandbox" ++ ":" ++ "apply" := by decide +kernel

/-- A ticket that was asked for stands for no request but its own, among those that are executed. -/
theorem IssuedFor.eq_request {key : Option ActionKey} {request : ToolRequest} {kind : WriteKind}
    {t : ApprovalTicket} (hissued : IssuedFor key request) (h : StandsFor t request)
    (h' : StandsFor t kind.request) : kind ≠ .correctionPatch ∧ request = kind.request := by
  cases hissued with
  | start isRealProject =>
    have hscope := h.scope.symm.trans h'.scope
    cases kind with
    | firstPatch =>
      cases isRealProject with
      | false => exact ⟨nofun, rfl⟩
      | true => exact absurd hscope (by decide +kernel)
    | correctionPatch => cases isRealProject <;> exact absurd hscope (by decide +kernel)
    | sandboxPatch key digest =>
      exact absurd (h.action.symm.trans h'.action) filesystem_ne_sandbox
  | action key digest =>
    cases kind with
    | firstPatch | correctionPatch =>
      exact absurd (h'.action.symm.trans h.action) filesystem_ne_sandbox
    | sandboxPatch key' digest' =>
      have hdigest : digest = digest' := h.digest.symm.trans h'.digest
      have hprincipal : key.principal = key'.principal := h.requester.symm.trans h'.requester
      refine ⟨nofun, ?_⟩
      change sandboxRequest key digest = sandboxRequest key' digest'
      rw [hdigest, sandboxRequest, sandboxRequest, hprincipal]

/-- A backed ticket that is decided and stands for what is written was granted for it. -/
theorem Backed.grantedFor {trace : List Obs} {kind : WriteKind} {t : ApprovalTicket}
    (h : Backed runId trace t)
    (hissued : ∀ {key id request}, .requested key id request ∈ trace → IssuedFor key request)
    (hstands : StandsFor t kind.request) (hdecided : t.status ≠ "pending") :
    GrantedFor runId trace kind.request t := by
  obtain ⟨hrun, key, request, hrequested, hstands', hstatus⟩ := h
  obtain ⟨-, rfl⟩ := (hissued hrequested).eq_request hstands' hstands
  obtain ⟨happroved, hgranted⟩ := hstatus.resolve_left fun h => hdecided h.1
  exact ⟨hrun, hstands, hgranted, happroved⟩

/-! ### The tickets in hand -/

/-- The phases in which the working copy has the tickets of the record. -/
def Phase.live : Phase → Bool
  | waiting | settled => false
  | _ => true

/-- The working copy lists the ticket of its start. -/
def ListsFirst (trace : List Obs) (ctx : RunContext) : Prop :=
  ∃ t ∈ ctx.approvals, .requested none t.ticketId (safeRequest ctx.isRealProjectTemplate) ∈ trace

/-- A ticket on which an action applies its patch. -/
structure Usable (ctx : RunContext) (key : ActionKey) (digest : String) (t : ApprovalTicket) :
    Prop where
  mem : t ∈ ctx.approvals
  standsFor : StandsFor t (sandboxRequest key digest)
  names : NamesApprover t

omit [Platform] in
theorem findApproved_eq_some {requester digest : String} {consumed : List String}
    {approvals : List ApprovalTicket} {t : ApprovalTicket}
    (h : findApproved requester digest consumed approvals = some t) :
    t ∈ approvals ∧ t.requestedAction = "sandbox:apply" ∧ t.actionDigest = digest ∧
      t.status = "approved" ∧ t.requester = requester ∧ t.ticketId ∉ consumed := by
  have hp := List.find?_some h
  simp only [Bool.and_eq_true, decide_eq_true_eq, Bool.not_eq_true', List.contains_eq_mem,
    decide_eq_false_iff_not] at hp
  obtain ⟨⟨⟨⟨haction, hdigest⟩, hstatus⟩, hrequester⟩, hconsumed⟩ := hp
  exact ⟨List.mem_of_find?_eq_some h, haction, hdigest, hstatus, hrequester, hconsumed⟩

omit [Platform] in
theorem verifyTicket_eq_none {ctx : RunContext} {t : ApprovalTicket} {digest : String}
    {consumed : List String} {now : DateTime} (h : verifyTicket ctx t digest consumed now = none) :
    t.scope = "sandbox_patch" ∧ isBlank (t.approver.getD "") = false ∧ now ≤ t.expiresAt := by
  have pass {c : Prop} [Decidable c] {failure : String × String} {rest : Option (String × String)}
      (h : (if c then some failure else rest) = none) : ¬ c ∧ rest = none := by
    split at h
    · cases h
    · exact ⟨‹_›, h⟩
  unfold verifyTicket at h
  obtain ⟨-, h⟩ := pass h
  obtain ⟨-, h⟩ := pass h
  obtain ⟨hresource, h⟩ := pass h
  obtain ⟨hblank, h⟩ := pass h
  obtain ⟨hexpired, -⟩ := pass h
  exact ⟨not_not.mp (not_or.mp hresource).2, Bool.eq_false_iff.mpr hblank, not_lt.mp hexpired⟩

theorem Usable.of_verified {ctx : RunContext} {key : ActionKey} {digest : String}
    {t : ApprovalTicket} {consumed : List String} {now : DateTime}
    (hfound : findApproved key.principal digest consumed ctx.approvals = some t)
    (hverify : verifyTicket ctx t digest consumed now = none) : Usable ctx key digest t := by
  obtain ⟨hmem, haction, hdigest, -, hrequester, -⟩ := findApproved_eq_some hfound
  obtain ⟨hscope, hblank, -⟩ := verifyTicket_eq_none hverify
  have hname : "sandbox:apply" = "sandbox" ++ ":" ++ "apply" := by decide +kernel
  refine ⟨hmem, ⟨hdigest, hrequester, haction.trans hname, hscope⟩, ?_⟩
  cases happrover : t.approver with
  | none => rw [happrover] at hblank; cases hblank
  | some approver =>
    refine ⟨approver, happrover, ?_⟩
    rintro rfl
    rw [happrover] at hblank
    cases hblank

/-- What a flight has of tickets. -/
structure Flight.InHand (w : World) (fl : Flight) : Prop where
  first : ListsFirst w.trace fl.ctx ∨ fl.mode = .starting ∧ fl.phase = .opening
  held : fl.InSession → fl.phase.live → fl.ctx.approvals = w.held ∧ fl.ctx.hasPending = false
  applying : ∀ {key ticket digest}, fl.phase = .applying key ticket digest →
    fl.mode = .session ∧ Usable fl.ctx key digest ticket

/-- The tickets are sound, and where they are needed they are at hand. -/
structure WritesSound (runId : String) (s : State) : Prop where
  tickets : TicketsSound runId s
  recorded : ∀ r, s.1.record = some r → ListsFirst s.1.trace r.ctx
  flying : ∀ fl, s.2 = some fl → fl.InHand s.1

/-! ### Working copies -/

omit [Platform] in
theorem mem_replaceTicket_of_ne {ticket t : ApprovalTicket} {tickets : List ApprovalTicket}
    (h : t ∈ tickets) (hid : t.ticketId ≠ ticket.ticketId) : t ∈ replaceTicket ticket tickets := by
  induction tickets with
  | nil => cases h
  | cons t' ts ih =>
    unfold replaceTicket
    split
    case isTrue heq =>
      rcases List.mem_cons.mp h with rfl | h
      · exact absurd heq hid
      · exact .tail _ h
    case isFalse =>
      rcases List.mem_cons.mp h with rfl | h
      · exact .head _
      · exact .tail _ (ih h)

omit [Platform] in
theorem ListsFirst.replaceTicket {trace trace' : List Obs} {ctx ctx' : RunContext}
    {ticket : ApprovalTicket} (h : ListsFirst trace ctx) (hp : trace <+: trace')
    (hkind : ctx'.templateKind = ctx.templateKind)
    (happrovals : ctx'.approvals = Ao2.replaceTicket ticket ctx.approvals) :
    ListsFirst trace' ctx' := by
  obtain ⟨t, ht, hrequested⟩ := h
  have hreal : ctx'.isRealProjectTemplate = ctx.isRealProjectTemplate := by
    rw [RunContext.isRealProjectTemplate, hkind]
    rfl
  unfold ListsFirst
  rw [hreal, happrovals]
  by_cases hid : t.ticketId = ticket.ticketId
  · exact ⟨ticket, mem_replaceTicket_self .., hid ▸ hp.subset hrequested⟩
  · exact ⟨t, mem_replaceTicket_of_ne ht hid, hp.subset hrequested⟩

omit [Platform] in
theorem ListsFirst.mono {trace trace' : List Obs} {ctx ctx' : RunContext} (h : ListsFirst trace ctx)
    (hp : trace <+: trace') (hkind : ctx'.templateKind = ctx.templateKind)
    (happrovals : ctx'.approvals = ctx.approvals) : ListsFirst trace' ctx' := by
  obtain ⟨t, ht, hrequested⟩ := h
  refine ⟨t, happrovals ▸ ht, hp.subset ?_⟩
  rwa [RunContext.isRealProjectTemplate, hkind]

namespace Flight.InHand

variable {w w' : World} {fl fl' : Flight}

/-- The tickets stay as they are. -/
theorem frame (h : fl.InHand w) (htrace : w.trace <+: w'.trace) (hrecord : w'.record = w.record)
    (hmode : fl'.mode = fl.mode) (happrovals : fl'.ctx.approvals = fl.ctx.approvals)
    (hkind : fl'.ctx.templateKind = fl.ctx.templateKind)
    (hphase : fl'.phase = fl.phase ∨ fl.phase.live ∧ (fl.phase = .opening → fl.mode = .session) ∧
      ∀ key ticket digest, fl'.phase ≠ .applying key ticket digest) : fl'.InHand w' := by
  refine ⟨?_, fun hsession hlive => ?_, fun {key ticket digest} happlying => ?_⟩
  · refine h.first.imp (·.mono htrace hkind happrovals) fun ⟨hstarting, hopening⟩ => ?_
    rcases hphase with hphase | ⟨-, hnot, -⟩
    · exact ⟨hmode.trans hstarting, hphase.trans hopening⟩
    · rw [hstarting] at hnot
      cases hnot hopening
  · have hlive' : fl.phase.live := by
      rcases hphase with hphase | ⟨hlive', -⟩
      · rwa [← hphase]
      · exact hlive'
    have hsession' : fl.InSession := by rwa [InSession, ← hmode]
    rw [RunContext.hasPending, happrovals, World.held, hrecord]
    exact h.held hsession' hlive'
  · rcases hphase with hphase | ⟨-, -, hnot⟩
    · obtain ⟨hsession, hmem, hstands, hnames⟩ := h.applying (hphase ▸ happlying)
      exact ⟨hmode.trans hsession, happrovals ▸ hmem, hstands, hnames⟩
    · exact absurd happlying (hnot key ticket digest)

/-- A working copy is launched outside a session. -/
theorem launch {ctx : RunContext} {mode : Mode} {phase : Phase}
    (hfirst : ListsFirst w.trace ctx ∨ mode = .starting ∧ phase = .opening)
    (hmode : mode ≠ .scripted ∧ mode ≠ .session) (hphase : phase = .opening ∨ phase = .idle) :
    (launch ctx mode [] phase).InHand w := by
  refine ⟨hfirst, fun h => ?_, fun h => ?_⟩
  · exact absurd h (not_or.mpr hmode)
  · rcases hphase with rfl | rfl <;> cases h

/-- A session begins with the tickets of the record, all of them decided. -/
theorem beginSession {r : RunRecord} {mode : Mode} {plan : List ActionKey} {phase : Phase}
    (hrecord : w.record = some r) (hfirst : ListsFirst w.trace r.ctx)
    (hpending : r.ctx.hasPending = false) (hphase : phase = .opening ∨ phase = .idle) :
    (Flight.launch (r.load runId) mode plan phase).InHand w := by
  refine ⟨.inl (hfirst.mono List.prefix_rfl rfl rfl), fun _ _ => ⟨?_, hpending⟩, fun h => ?_⟩
  · rw [World.held, hrecord]
    rfl
  · rcases hphase with rfl | rfl <;> cases h

end Flight.InHand

namespace WritesSound

variable {w w' : World} {fl fl' : Option Flight} {s s' : State}

/-- The record stays as it is. -/
theorem frame (h : WritesSound runId (w, fl)) (htickets : TicketsSound runId (w', fl'))
    (htrace : w.trace <+: w'.trace) (hrecord : w'.record = w.record)
    (hfl : ∀ f', fl' = some f' → f'.InHand w') : WritesSound runId (w', fl') :=
  ⟨htickets, fun r hr => (h.recorded r (hrecord ▸ hr)).mono htrace rfl rfl, hfl⟩

/-- The record stays as it is, and no working copy is there. -/
theorem landed (h : WritesSound runId (w, fl)) (htickets : TicketsSound runId (w', none))
    (htrace : w.trace <+: w'.trace) (hrecord : w'.record = w.record) :
    WritesSound runId (w', none) :=
  h.frame htickets htrace hrecord fun _ hf => by cases hf

/-- The record stays as it is, and so do the tickets of the working copy. -/
theorem keep {f f' : Flight} (h : WritesSound runId (w, some f))
    (htickets : TicketsSound runId (w', some f')) (htrace : w.trace <+: w'.trace)
    (hrecord : w'.record = w.record) (hmode : f'.mode = f.mode)
    (happrovals : f'.ctx.approvals = f.ctx.approvals)
    (hkind : f'.ctx.templateKind = f.ctx.templateKind)
    (hphase : f'.phase = f.phase ∨ f.phase.live ∧ (f.phase = .opening → f.mode = .session) ∧
      ∀ key ticket digest, f'.phase ≠ .applying key ticket digest) :
    WritesSound runId (w', some f') := by
  refine h.frame htickets htrace hrecord ?_
  rintro _ ⟨⟩
  exact (h.flying f rfl).frame htrace hrecord hmode happrovals hkind hphase

/-- **What is needed stays at hand.** -/
theorem move (hm : Move runId s s') (h : WritesSound runId s) : WritesSound runId s' := by
  have htickets := TicketsSound.move hm h.tickets
  have hp := hm.trace_grows
  cases hm with
  | quiet hq =>
    obtain ⟨_, _, _, rfl, -⟩ := hq
    exact h.landed htickets hp rfl
  | calm hc =>
    obtain ⟨⟨_, _, _, rfl, -⟩, _, _, rfl, -⟩ := hc
    exact h.keep htickets hp rfl rfl rfl rfl (.inl rfl)
  | @outside w fl | @contents w fl =>
    cases fl with
    | none => exact h.landed htickets hp rfl
    | some fl => exact h.keep htickets hp rfl rfl rfl rfl (.inl rfl)
  | land | options | grant | granted => exact h.landed htickets hp rfl
  | decide | keep | verified | write | close | skip | sought | stale | removeSandbox =>
    exact h.keep htickets hp rfl rfl rfl rfl (.inl rfl)
  | cleared hmode hphase =>
    exact h.keep htickets hp rfl rfl rfl rfl (.inr ⟨by rw [hphase]; rfl, fun _ => hmode, nofun⟩)
  | forgotten hphase | createSandbox hphase | applied hphase | consume hphase =>
    exact h.keep htickets hp rfl rfl rfl rfl
      (.inr ⟨by rw [hphase]; rfl, fun h => absurd (hphase.symm.trans h) nofun, nofun⟩)
  | summary _ hphase hq =>
    obtain ⟨_, _, _, rfl, -⟩ := hq
    exact h.keep htickets hp rfl rfl rfl rfl
      (.inr ⟨by rw [hphase]; rfl, fun h => absurd (hphase.symm.trans h) nofun, nofun⟩)
  | start workflow =>
    refine h.frame htickets hp rfl ?_
    rintro _ ⟨⟩
    exact .launch (.inr ⟨rfl, rfl⟩) ⟨nofun, nofun⟩ (.inl rfl)
  | rewrite hrecord =>
    refine h.frame htickets hp rfl ?_
    rintro _ ⟨⟩
    exact .launch (.inl ((h.recorded _ hrecord).mono hp rfl rfl)) ⟨nofun, nofun⟩ (.inr rfl)
  | approve hrecord =>
    refine h.frame htickets hp rfl ?_
    rintro _ ⟨⟩
    exact .launch (.inl ((h.recorded _ hrecord).replaceTicket hp rfl rfl)) ⟨nofun, nofun⟩ (.inr rfl)
  | beginSession hrecord _ hpending =>
    refine h.frame htickets hp rfl ?_
    rintro _ ⟨⟩
    exact .beginSession hrecord (h.recorded _ hrecord) hpending (.inl rfl)
  | beginScripted hrecord _ hpending =>
    refine h.frame htickets hp rfl ?_
    rintro _ ⟨⟩
    exact .beginSession hrecord (h.recorded _ hrecord) hpending (.inr rfl)
  | @firstTicket w fl ticket request _ _ _ hmode hphase hrequest =>
    refine h.frame htickets hp rfl ?_
    rintro _ ⟨⟩
    refine ⟨.inl ⟨ticket, mem_replaceTicket_self .., ?_⟩, fun hsession => ?_, nofun⟩
    · change _ ∈ w.trace ++ [_]
      rw [hrequest]
      exact List.mem_append_right _ (.head _)
    · rcases hsession with hsession | hsession <;> cases hmode.symm.trans hsession
  | @request w fl key digest ticket _ _ _ hat hphase =>
    refine h.frame htickets hp rfl ?_
    rintro _ ⟨⟩
    have hfirst := (h.flying fl rfl).first.resolve_right fun h => absurd (hphase.symm.trans h.2) nofun
    exact ⟨.inl (hfirst.replaceTicket hp rfl rfl), nofun, nofun⟩
  | @authorise w fl key digest ticket now hat hphase _ _ hfound hverify =>
    refine h.frame htickets hp rfl ?_
    rintro _ ⟨⟩
    have hin := h.flying fl rfl
    have hfirst := hin.first.resolve_right fun h => absurd (hphase.symm.trans h.2) nofun
    refine ⟨.inl (hfirst.mono hp rfl rfl), fun hsession _ => hin.held hsession (by rw [hphase]; rfl),
      ?_⟩
    rintro _ _ _ ⟨⟩
    exact ⟨hat.1, .of_verified hfound hverify⟩
  | @record w fl status eventId tick hmay =>
    have hin := h.flying fl rfl
    have hfirst := hin.first.resolve_right fun h => by
      have := hmay.1
      rw [h.2] at this
      cases this
    refine ⟨htickets, ?_, ?_⟩
    · rintro _ ⟨⟩
      exact hfirst
    · rintro _ ⟨⟩
      exact ⟨.inl hfirst, nofun, nofun⟩

theorem halt {o : Op} (hh : Halt o s w') (h : WritesSound runId s) :
    WritesSound runId (w', none) := by
  have htickets := TicketsSound.halt hh h.tickets
  cases hh <;> exact h.landed htickets List.prefix_rfl rfl

theorem fresh (target : Repo) (env : Env) : WritesSound runId (World.fresh target env, none) where
  tickets := .fresh target env
  recorded r hr := by cases hr
  flying fl hfl := by cases hfl

end WritesSound

/-! ### Entries of writes -/

section

variable {w : World} {fl : Flight} {kind : WriteKind} {moment : DateTime}

/-- Who may write to the target is in a session and has the tickets of the record. -/
theorem Flight.InHand.ready (h : fl.InHand w) (hmay : fl.MayChange kind) :
    fl.ctx.approvals = w.held ∧ fl.ctx.hasPending = false := by
  cases kind with
  | firstPatch => exact h.held (.inl hmay.1) (by rw [hmay.2.1]; rfl)
  | correctionPatch => exact h.held hmay.1 (by rw [hmay.2]; rfl)
  | sandboxPatch key digest =>
    obtain ⟨ticket, hphase⟩ := hmay
    exact h.held (.inr (h.applying hphase).1) (by rw [hphase]; rfl)

/-- Every ticket held at a write that stands for what is written was granted for it. -/
theorem WritesSound.grantedFor (h : WritesSound runId (w, some fl)) (hmay : fl.MayChange kind)
    {t : ApprovalTicket} (ht : t ∈ w.held) (hstands : StandsFor t kind.request) :
    GrantedFor runId w.trace kind.request t := by
  obtain ⟨hheld, hpending⟩ := (h.flying fl rfl).ready hmay
  have ht' : t ∈ fl.ctx.approvals := hheld ▸ ht
  have hbacked : Backed runId w.trace t := (h.tickets.flying fl rfl).2 t ht'
  refine hbacked.grantedFor h.tickets.issued hstands fun hstatus => ?_
  have : fl.ctx.hasPending = true := List.any_eq_true.mpr ⟨t, ht', by simpa using hstatus⟩
  rw [hpending] at this
  cases this

/-- The ticket behind a write. -/
theorem WritesSound.exists_grantedFor (h : WritesSound runId (w, some fl)) (hmay : fl.MayChange kind)
    (hkind : kind ≠ .correctionPatch) :
    ∃ t ∈ w.held, GrantedFor runId w.trace kind.request t ∧
      (kind ≠ .firstPatch → NamesApprover t) := by
  have hin : fl.InHand w := h.flying fl rfl
  obtain ⟨hheld, -⟩ := hin.ready hmay
  have hgranted {t : ApprovalTicket} (ht : t ∈ w.held) (hstands : StandsFor t kind.request) :=
    h.grantedFor hmay ht hstands
  cases kind with
  | correctionPatch => exact absurd rfl hkind
  | firstPatch =>
    obtain ⟨hmode, hphase, hreal⟩ := hmay
    obtain ⟨t, ht, hrequested⟩ := hin.first.resolve_right fun h => absurd (hphase.symm.trans h.2) nofun
    rw [hreal] at hrequested
    -- the ticket of the start was asked for once, so that it stands for this request
    obtain ⟨-, key, request, hrequested', hstands, -⟩ := (h.tickets.flying fl rfl).2 t ht
    obtain ⟨-, rfl⟩ := h.tickets.unique hrequested' hrequested
    have ht : t ∈ w.held := hheld ▸ ht
    exact ⟨t, ht, hgranted ht hstands, fun h => absurd rfl h⟩
  | sandboxPatch key digest =>
    obtain ⟨ticket, hphase⟩ := hmay
    obtain ⟨-, husable⟩ := hin.applying hphase
    have ht : ticket ∈ w.held := hheld ▸ husable.mem
    exact ⟨ticket, ht, hgranted ht husable.standsFor, fun _ => husable.names⟩

theorem WritesSound.approved_iff_inTime (h : WritesSound runId (w, some fl))
    (hmay : fl.MayChange kind) :
    ApprovedWrite runId w.trace kind moment w.held ↔ InTime kind moment w.held := by
  constructor
  · rintro ⟨t, ht, hgranted, hnames, htime⟩
    obtain ⟨hheld, -⟩ := (h.flying fl rfl).ready hmay
    obtain ⟨-, key, request, hrequested, hstands, -⟩ :=
      (h.tickets.flying fl rfl).2 t (hheld ▸ ht)
    have := ((h.tickets.issued hrequested).eq_request hstands hgranted.standsFor).1
    exact ⟨this, t, ht, hgranted.standsFor, hnames, htime⟩
  · rintro ⟨-, t, ht, hstands, hnames, htime⟩
    exact ⟨t, ht, h.grantedFor hmay ht hstands, hnames, htime⟩

end

/-- What is known of an entry of a write. -/
def WriteEntry (runId : String) (before : List Obs) : Obs → Prop
  | .wrote kind moment held =>
    (kind ≠ .correctionPatch → ∃ t ∈ held, GrantedFor runId before kind.request t ∧
      (kind ≠ .firstPatch → NamesApprover t)) ∧
    (ApprovedWrite runId before kind moment held ↔ InTime kind moment held)
  | _ => True

theorem writeEntry (target : Repo) (env : Env) (ss : List Step) :
    EachEntry (WriteEntry runId) ((World.fresh target env).steps runId ss).trace := by
  refine World.steps_eachEntry rfl (WritesSound.fresh target env) (fun _ _ => WritesSound.move)
    (fun _ _ _ => WritesSound.halt) fun s s' o hm h ho => ?_
  cases o with
  | wrote kind moment held =>
    obtain ⟨w, fl⟩ := s
    obtain ⟨fl, rfl, hmay, rfl⟩ := hm.wrote ho
    exact ⟨h.exists_grantedFor hmay, h.approved_iff_inTime hmay⟩
  | _ => trivial

/-- **Which writes are approved.** In every history, whatever the clock says, the run holds at each
write but that of the scripted correction a ticket granted for exactly what is written; and the write
is approved in full exactly if it is in time. -/
theorem approvedWrite_iff {target : Repo} {env : Env} {ss : List Step} {before : List Obs}
    {kind : WriteKind} {moment : DateTime} {held : List ApprovalTicket}
    (h : before ++ [.wrote kind moment held] <+: ((World.fresh target env).steps runId ss).trace) :
    (kind ≠ .correctionPatch → ∃ t ∈ held, GrantedFor runId before kind.request t ∧
      (kind ≠ .firstPatch → NamesApprover t)) ∧
    (ApprovedWrite runId before kind moment held ↔ InTime kind moment held) :=
  writeEntry target env ss before _ h

end

/-! ### A scripted run, with time passing -/

/-- Start, approve, resume. -/
def scriptedHistory : List Step := undisturbed [.start "w", .approve "approval-35" "bob", .resume]

/-- The surroundings of the run, with some minutes between any two operations. -/
def scriptedEnv (pace : ℕ) : Env :=
  smallEnv (fun n => n * minutes pace) none fun repo => (true, repo)

@[reducible] def scriptedPlatform : Platform := numberingPlatform [(safeRequest false).toJson]

section

attribute [local instance] scriptedPlatform

/-- The ticket of the run, granted. -/
def scriptedTicket (pace : ℕ) : ApprovalTicket :=
  { createApprovalTicket "approval-35" (36 * minutes pace) (37 * minutes pace) "r"
      (safeRequest false) with
    approver := some "bob"
    status := "approved" }

def scriptedBefore : List Obs :=
  [.started, .requested none "approval-35" (safeRequest false),
    .granted "approval-35" (safeRequest false)]

set_option maxRecDepth 100000 in
/-- Where no time passes, the first write is approved. -/
theorem approvedWrite_scripted :
    ApprovedWrite "r" scriptedBefore .firstPatch 0 [scriptedTicket 0] := by
  have h : scriptedBefore ++ [.wrote .firstPatch 0 [scriptedTicket 0]] <+:
      ((World.fresh (smallRepo "x") (scriptedEnv 0)).steps "r" scriptedHistory).trace := by
    decide +kernel
  exact (approvedWrite_iff h).2.mpr ⟨by decide, scriptedTicket 0, .head _, ⟨rfl, rfl, rfl, rfl⟩,
    ⟨"bob", rfl, by decide⟩, by decide⟩

set_option maxRecDepth 100000 in
/-- Where a minute passes with each operation, the first write is made on a ticket that has expired
five minutes before. -/
theorem not_approvedWrite_scripted :
    ¬ ∀ target env ss before kind moment held,
      before ++ [.wrote kind moment held] <+: ((World.fresh target env).steps "r" ss).trace →
        ApprovedWrite "r" before kind moment held := by
  intro h
  obtain ⟨t, ht, -, -, htime⟩ := h (smallRepo "x") (scriptedEnv 1) scriptedHistory scriptedBefore
    .firstPatch (minutes 72) [scriptedTicket 1] (by decide +kernel)
  obtain rfl := List.mem_singleton.mp ht
  exact absurd htime (by decide)

end

end Ao2
