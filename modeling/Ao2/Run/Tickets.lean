import Ao2.Run.Conformance

/-!
# The tickets of a run

Tickets are spread over the run record, the files of the approvals and the working copies of the
commands, and the history says where each of them comes from. `TicketsSound` is what holds of them
in every state the protocol reaches: their identifiers are not reused, each stands for the request
that it was asked for with, and one that is approved was granted for exactly that request.
-/

namespace Ao2

open Interaction

variable [Platform]

/-! ### Where a ticket comes from -/

/-- A ticket is one for a request. -/
structure StandsFor (t : ApprovalTicket) (request : ToolRequest) : Prop where
  digest : t.actionDigest = request.actionDigest
  requester : t.requester = request.principal
  action : t.requestedAction = request.tool ++ ":" ++ request.operation
  scope : t.scope = request.resource

/-- The requests that the start of a run and its actions ask for tickets with. -/
inductive IssuedFor : Option ActionKey → ToolRequest → Prop
  | start (isRealProject : Bool) : IssuedFor none (safeRequest isRealProject)
  | action (key : ActionKey) (digest : String) : IssuedFor (some key) (sandboxRequest key digest)

/-- The history backs a ticket: it was asked for with the request it stands for, and it is pending,
or was granted for that request. -/
def Backed (runId : String) (trace : List Obs) (t : ApprovalTicket) : Prop :=
  t.runId = runId ∧ ∃ key request, .requested key t.ticketId request ∈ trace ∧
    StandsFor t request ∧
    (t.status = "pending" ∧ t.approver = none ∨
      t.status = "approved" ∧ .granted t.ticketId request ∈ trace)

theorem createApprovalTicket_standsFor (id : String) (createdAt now : DateTime) (runId : String)
    (request : ToolRequest) :
    StandsFor (createApprovalTicket id createdAt now runId request) request := ⟨rfl, rfl, rfl, rfl⟩

/-- A history that goes on backs what it backed. -/
theorem Backed.mono {runId : String} {trace trace' : List Obs} {t : ApprovalTicket}
    (h : Backed runId trace t) (hp : trace <+: trace') : Backed runId trace' t := by
  obtain ⟨hrun, key, request, hreq, hstands, hstatus⟩ := h
  exact ⟨hrun, key, request, hp.subset hreq, hstands,
    hstatus.imp_right fun ⟨h₁, h₂⟩ => ⟨h₁, hp.subset h₂⟩⟩

omit [Platform] in
theorem mem_replaceTicket {ticket t : ApprovalTicket} {tickets : List ApprovalTicket}
    (h : t ∈ replaceTicket ticket tickets) : t = ticket ∨ t ∈ tickets := by
  induction tickets with
  | nil => exact .inl (by simpa [replaceTicket] using h)
  | cons t' ts ih =>
    unfold replaceTicket at h
    split at h
    · rcases List.mem_cons.mp h with h | h
      · exact .inl h
      · exact .inr (.tail _ h)
    · rcases List.mem_cons.mp h with h | h
      · exact .inr (h ▸ .head _)
      · exact (ih h).imp id (.tail _)

omit [Platform] in
theorem numberedId_injective (label : String) :
    Function.Injective (World.numberedId label) := by
  intro j k h
  have h : (label ++ "-").toList ++ (toString j).toList =
      (label ++ "-").toList ++ (toString k).toList := by
    rw [← String.toList_append, ← String.toList_append]
    exact congrArg String.toList h
  exact toString_injective (String.toList_inj.mp (List.append_cancel_left h))

/-! ### Sound tickets -/

/-- The tickets of a working copy are backed. -/
def BackedContext (runId : String) (trace : List Obs) (ctx : RunContext) : Prop :=
  ctx.runId = runId ∧ ∀ t ∈ ctx.approvals, Backed runId trace t

/-- **The tickets of a state are sound.** -/
structure TicketsSound (runId : String) (s : State) : Prop where
  numbered : ∀ {key id request}, .requested key id request ∈ s.1.trace →
    ∃ n < s.1.tick, id = World.numberedId "approval" n
  unique : ∀ {key id request key' request'}, .requested key id request ∈ s.1.trace →
    .requested key' id request' ∈ s.1.trace → key = key' ∧ request = request'
  issued : ∀ {key id request}, .requested key id request ∈ s.1.trace → IssuedFor key request
  recorded : ∀ r, s.1.record = some r → BackedContext runId s.1.trace r.ctx
  kept : ∀ id stored, s.1.approvals id = some stored →
    stored.ticket.ticketId = id ∧ Backed runId s.1.trace stored.ticket ∧
      ∃ key, .requested key id stored.request ∈ s.1.trace
  flying : ∀ fl, s.2 = some fl → BackedContext runId s.1.trace fl.ctx

/-- A flight with the tickets of another one, if there is one. -/
def Carries (fl fl' : Option Flight) : Prop :=
  ∀ f', fl' = some f' → ∃ f, fl = some f ∧ f'.ctx.runId = f.ctx.runId ∧
    f'.ctx.approvals = f.ctx.approvals

omit [Platform] in
theorem Carries.refl (fl : Option Flight) : Carries fl fl := fun f hf => ⟨f, hf, rfl, rfl⟩

omit [Platform] in
theorem Carries.none (fl : Option Flight) : Carries fl none := fun _ h => by cases h

omit [Platform] in
theorem Carries.some {fl fl' : Flight} (hrun : fl'.ctx.runId = fl.ctx.runId)
    (happrovals : fl'.ctx.approvals = fl.ctx.approvals) : Carries (some fl) (some fl') := by
  rintro _ ⟨⟩
  exact ⟨fl, rfl, hrun, happrovals⟩

theorem BackedContext.mono {runId : String} {trace trace' : List Obs} {ctx : RunContext}
    (h : BackedContext runId trace ctx) (hp : trace <+: trace') : BackedContext runId trace' ctx :=
  ⟨h.1, fun t ht => (h.2 t ht).mono hp⟩

namespace TicketsSound

variable {runId : String} {w w' : World} {fl fl' : Option Flight} {s s' : State}

/-- Nothing was asked for, and no ticket is new. -/
theorem frame (h : TicketsSound runId (w, fl)) {os : List Obs} (htrace : w'.trace = w.trace ++ os)
    (hos : ∀ key id request, .requested key id request ∉ os) (htick : w.tick ≤ w'.tick)
    (hrecord : w'.record = w.record) (happrovals : w'.approvals = w.approvals)
    (hfl : Carries fl fl') : TicketsSound runId (w', fl') := by
  have hp : w.trace <+: w'.trace := htrace ▸ List.prefix_append ..
  have hold {key id request} (hm : .requested key id request ∈ w'.trace) :
      .requested key id request ∈ w.trace := by
    rw [htrace] at hm
    exact (List.mem_append.mp hm).resolve_right (hos key id request)
  refine ⟨fun hm => ?_, fun hm hm' => h.unique (hold hm) (hold hm'), fun hm => h.issued (hold hm),
    fun r hr => ?_, fun id stored hstored => ?_, fun f hf => ?_⟩
  · obtain ⟨n, hn, hid⟩ := h.numbered (hold hm)
    exact ⟨n, hn.trans_le htick, hid⟩
  · exact (h.recorded r (hrecord ▸ hr)).mono hp
  · obtain ⟨hid, hbacked, key, hm⟩ := h.kept id stored (happrovals ▸ hstored)
    exact ⟨hid, hbacked.mono hp, key, hp.subset hm⟩
  · obtain ⟨f₀, hf₀, hrun, happ⟩ := hfl f hf
    have := (h.flying f₀ hf₀).mono hp
    exact ⟨hrun.trans this.1, fun t ht => this.2 t (happ ▸ ht)⟩

/-- The same, with nothing new in the history. -/
theorem keep (h : TicketsSound runId (w, fl)) (htrace : w'.trace = w.trace)
    (htick : w.tick ≤ w'.tick) (hrecord : w'.record = w.record)
    (happrovals : w'.approvals = w.approvals) (hfl : Carries fl fl') :
    TicketsSound runId (w', fl') :=
  have htrace : w'.trace = w.trace ++ [] := by rw [htrace, List.append_nil]
  h.frame htrace (by simp) htick hrecord happrovals hfl

/-- The same, with one entry of the history that asks for nothing. -/
theorem observe (h : TicketsSound runId (w, fl)) {o : Obs} (htrace : w'.trace = w.trace ++ [o])
    (ho : ∀ key id request, .requested key id request ≠ o) (htick : w.tick ≤ w'.tick)
    (hrecord : w'.record = w.record) (happrovals : w'.approvals = w.approvals)
    (hfl : Carries fl fl') : TicketsSound runId (w', fl') :=
  h.frame htrace (by simpa using ho) htick hrecord happrovals hfl

/-- A flight is launched with tickets that are backed. -/
theorem launch (h : TicketsSound runId (w, none)) {f : Flight}
    (hf : BackedContext runId w.trace f.ctx) : TicketsSound runId (w, some f) :=
  { h with flying := by rintro _ ⟨⟩; exact hf }

/-- **A ticket is asked for**, with the number of the moment. -/
theorem request {f f' : Flight} {key : Option ActionKey} {ticket : ApprovalTicket}
    {request : ToolRequest} {createdAt now : DateTime} (h : TicketsSound runId (w, some f))
    (hticket : ticket = createApprovalTicket (World.numberedId "approval" w.tick) createdAt now
      f.ctx.runId request) (hissued : IssuedFor key request)
    (htrace : w'.trace = w.trace ++ [.requested key ticket.ticketId request])
    (htick : w.tick < w'.tick) (hrecord : w'.record = w.record)
    (happrovals : w'.approvals = w.approvals) (hrun : f'.ctx.runId = f.ctx.runId)
    (hctx : f'.ctx.approvals = replaceTicket ticket f.ctx.approvals) :
    TicketsSound runId (w', some f') := by
  have hp : w.trace <+: w'.trace := htrace ▸ List.prefix_append ..
  have hid : ticket.ticketId = World.numberedId "approval" w.tick := by rw [hticket]; rfl
  have hflying : BackedContext runId w.trace f.ctx := h.flying f rfl
  have hmem {key' id request'} (hm : .requested key' id request' ∈ w'.trace) :
      .requested key' id request' ∈ w.trace ∨
        key' = key ∧ id = ticket.ticketId ∧ request' = request := by
    rw [htrace] at hm
    simpa using hm
  have hnew : .requested key ticket.ticketId request ∈ w'.trace := by rw [htrace]; simp
  -- the number of the moment was not used before
  have hfresh {key' request'} : .requested key' ticket.ticketId request' ∉ w.trace := by
    intro hm
    obtain ⟨n, hn, heq⟩ := h.numbered hm
    have : w.tick = n := numberedId_injective _ (hid.symm.trans heq)
    exact absurd hn (by change ¬ n < w.tick; omega)
  refine ⟨fun hm => ?_, fun hm hm' => ?_, fun hm => ?_, fun r hr => ?_, fun id stored hstored => ?_,
    ?_⟩
  · rcases hmem hm with hm | ⟨-, rfl, -⟩
    · obtain ⟨n, hn, heq⟩ := h.numbered hm
      exact ⟨n, lt_trans hn htick, heq⟩
    · exact ⟨w.tick, htick, hid⟩
  · rcases hmem hm with hm | ⟨rfl, rfl, rfl⟩
    · rcases hmem hm' with hm' | ⟨rfl, rfl, rfl⟩
      · exact h.unique hm hm'
      · exact absurd hm hfresh
    · rcases hmem hm' with hm' | ⟨rfl, -, rfl⟩
      · exact absurd hm' hfresh
      · exact ⟨rfl, rfl⟩
  · rcases hmem hm with hm | ⟨rfl, -, rfl⟩
    · exact h.issued hm
    · exact hissued
  · exact (h.recorded r (hrecord ▸ hr)).mono hp
  · obtain ⟨hid, hbacked, key, hm⟩ := h.kept id stored (happrovals ▸ hstored)
    exact ⟨hid, hbacked.mono hp, key, hp.subset hm⟩
  · rintro _ ⟨⟩
    refine ⟨hrun.trans hflying.1, fun t ht => ?_⟩
    rw [hctx] at ht
    rcases mem_replaceTicket ht with rfl | ht
    · exact ⟨by rw [hticket]; exact hflying.1, key, request, hnew,
        hticket ▸ createApprovalTicket_standsFor .., .inl ⟨by rw [hticket]; rfl, by rw [hticket]; rfl⟩⟩
    · exact (hflying.2 t ht).mono hp

/-- A working copy is launched. -/
theorem load (h : TicketsSound runId (w, none)) {r : RunRecord} (hrecord : w.record = some r) :
    BackedContext runId w.trace (r.load runId) := ⟨rfl, (h.recorded r hrecord).2⟩

/-- A file of an approval is written. -/
theorem replaceApproval (h : TicketsSound runId (w, fl)) {stored : StoredApproval}
    (hbacked : Backed runId w.trace stored.ticket)
    (hrequest : ∃ key, .requested key stored.ticket.ticketId stored.request ∈ w.trace) :
    TicketsSound runId
      ({ w with approvals := Function.update w.approvals stored.ticket.ticketId (some stored) },
        fl) := by
  refine { h with kept := fun id stored' hstored => ?_ }
  by_cases hid : id = stored.ticket.ticketId
  · rw [hid] at hstored ⊢
    obtain rfl : stored = stored' := by simpa using hstored
    exact ⟨rfl, hbacked, hrequest⟩
  · exact h.kept id stored' (by simpa [hid] using hstored)

/-- **The tickets stay sound.** -/
theorem move (hm : Move runId s s') (h : TicketsSound runId s) : TicketsSound runId s' := by
  have hlast {trace : List Obs} {o : Obs} (ho : trace.getLast? = some o) : o ∈ trace :=
    List.mem_of_getLast? ho
  cases hm with
  | quiet hq =>
    obtain ⟨_, _, _, rfl, -, -, htick⟩ := hq
    exact h.keep rfl htick rfl rfl (.refl _)
  | calm hc =>
    obtain ⟨⟨_, _, _, rfl, -, -, htick⟩, _, _, rfl, -⟩ := hc
    exact h.keep rfl htick rfl rfl (.some rfl rfl)
  | summary _ _ hq =>
    obtain ⟨_, _, _, rfl, -, -, htick⟩ := hq
    exact h.keep rfl htick rfl rfl (.some rfl rfl)
  | outside | contents => exact h.keep rfl le_rfl rfl rfl (.refl _)
  | land => exact h.keep rfl le_rfl rfl rfl (.none _)
  | options => exact h.keep rfl le_rfl rfl rfl (.refl _)
  | decide | forgotten | close | skip | createSandbox | removeSandbox | consume =>
    exact h.keep rfl le_rfl rfl rfl (.some rfl rfl)
  | @start w workflow =>
    have h' : TicketsSound runId (w.observe .started, none) :=
      h.observe rfl nofun le_rfl rfl rfl (.refl _)
    exact h'.launch ⟨rfl, fun t ht => absurd ht List.not_mem_nil⟩
  | grant => exact h.observe rfl nofun le_rfl rfl rfl (.refl _)
  | cleared | verified | write | sought | authorise | applied | stale =>
    exact h.observe rfl nofun le_rfl rfl rfl (.some rfl rfl)
  | firstTicket createdAt now tick _ _ hrequest hticket htick =>
    exact h.request hticket (hrequest ▸ .start _) rfl htick rfl rfl rfl rfl
  | request createdAt now tick _ _ _ _ _ _ _ hticket htick =>
    exact h.request hticket (.action ..) rfl htick rfl rfl rfl rfl
  | @keep w fl ticket request _ hticket htrace =>
    let stored : StoredApproval := ⟨ticket, request⟩
    have hbacked : Backed runId w.trace stored.ticket := (h.flying fl rfl).2 ticket hticket
    exact h.replaceApproval hbacked ⟨_, hlast htrace⟩
  | @granted w stored ticket id approver hstored hgrant htrace =>
    let stored' : StoredApproval := ⟨ticket, stored.request⟩
    obtain ⟨hid, ⟨hrun, key, request, hreq, hstands, -⟩, key', hreq'⟩ := h.kept _ _ hstored
    obtain ⟨-, rfl⟩ := grantExact_eq_ok.mp hgrant
    rw [← hid] at hreq'
    obtain ⟨rfl, rfl⟩ := h.unique hreq hreq'
    have hbacked : Backed runId w.trace stored'.ticket := ⟨hrun, key, _, hreq,
      ⟨hstands.digest, hstands.requester, hstands.action, hstands.scope⟩,
      .inr ⟨rfl, hlast htrace⟩⟩
    exact h.replaceApproval hbacked ⟨key, hreq⟩
  | approve hrecord hstored =>
    refine h.launch ⟨rfl, fun t ht => ?_⟩
    rcases mem_replaceTicket ht with rfl | ht
    · exact (h.kept _ _ hstored).2.1
    · exact (h.recorded _ hrecord).2 t ht
  | @record w fl status eventId tick _ htick =>
    have hflying : BackedContext runId w.trace fl.ctx := h.flying fl rfl
    exact { h with
      numbered := fun hm => (h.numbered hm).imp fun _ ⟨hn, hid⟩ => ⟨hn.trans_le htick, hid⟩
      recorded := by rintro _ ⟨⟩; exact hflying
      flying := by rintro _ ⟨⟩; exact hflying }
  | rewrite hrecord | beginSession hrecord | beginScripted hrecord => exact h.launch (h.load hrecord)

/-- They are sound in what a stopped process leaves. -/
theorem halt {o : Op} (hh : Halt o s w') (h : TicketsSound runId s) :
    TicketsSound runId (w', none) := by
  cases hh with
  | clean => exact h.keep rfl le_rfl rfl rfl (.none _)
  | torn | tornCheckpoint => exact h.keep rfl (Nat.le_succ _) rfl rfl (.none _)
  | unrecorded _ _ _ htick => exact h.keep rfl htick rfl rfl (.none _)

theorem fresh (target : Repo) (env : Env) : TicketsSound runId (World.fresh target env, none) where
  numbered hm := absurd hm List.not_mem_nil
  unique hm := absurd hm List.not_mem_nil
  issued hm := absurd hm List.not_mem_nil
  recorded r hr := by cases hr
  kept id stored hstored := by cases hstored
  flying fl hfl := by cases hfl

end TicketsSound

end Ao2
