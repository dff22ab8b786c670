import Ao2.Queue.Runs

/-!
# A queued run is executed once

A run is executed at most once for each time it is queued, in every run in which no store brings back
a run from the queue of an old copy and each claim is stored while the run is queued.

The claim is a search, a load and a store. Nothing holds the file between them, so two calls that find
the same run both execute it.

Between the search for the next entry and the result of its execution, the command asks once for a run
to be executed. All else that it does executes nothing, whatever it is answered.

## Main results

* `not_executedOnce_raced` — two calls execute one run
* `Idle.wp` — an idle program only adds to the history
-/

namespace Ao2

open Interaction

/-! ### The property -/

/-- The run that an operation executes. -/
def QueueOp.executed : QueueOp → Option String
  | runPlan options => options.runId
  | projectStart options => some options.runId
  | _ => none

/-- A store leaves a run with a status. -/
def Leads (runId status : String) (e : QueueTraceEntry) : Prop :=
  ∃ queue, storedBy e = some queue ∧ statusIn (entriesOf queue) runId = some status

/-- A store leaves a run with no entry or one that is not queued. -/
def Unqueues (runId : String) (e : QueueTraceEntry) : Prop :=
  ∃ queue, storedBy e = some queue ∧ statusIn (entriesOf queue) runId ≠ some "queued"

/-- **A run that was not queued is queued** by its submission or by a retry. -/
structure Passage (runId : String) (e : QueueTraceEntry) : Prop where
  before : statusIn (fileEntries e.before) runId ≠ some "queued"
  after : Leads runId "queued" e
  call : match e.call with
    | .submit .. | .submitProjectStart _ => findEntry (copyOf e) runId = none
    | .transition _ id status _ => id = runId ∧ status = "queued"
    | .runNext _ => False

/-- The claim of an execution: right before it the call has stored that the run is running. -/
structure ClaimOf (runId : String) (e c : QueueTraceEntry) : Prop where
  index : c.index = e.index
  last : e.earlier = c.earlier ++ [c.event]
  running : Leads runId "running" c

/-- An execution at a position of a run has a claim before it and a passage before the claim, and no
store between the passage and the claim took the run out of the queue; a cancel, in particular, is none
of them. -/
structure Led (l : List QueueTraceEntry) (runId : String) (e : QueueTraceEntry) (passage claim n : ℕ) :
    Prop where
  order : passage < claim ∧ claim < n
  queuedAt : ∃ p, l[passage]? = some p ∧ Passage runId p
  claimedAt : ∃ c, l[claim]? = some c ∧ ClaimOf runId e c
  queued : ∀ k x, passage < k → k < claim → l[k]? = some x → ¬ Unqueues runId x

/-- **Each passage of a run leads to at most one execution**: each execution has a passage, and no two
have the same. -/
def ExecutedOnce (l : List QueueTraceEntry) : Prop :=
  ∃ passage claim : ℕ → ℕ,
    (∀ n e runId, l[n]? = some e → e.event.op.executed = some runId →
      Led l runId e (passage n) (claim n) n) ∧
    ∀ n n' e e' runId, l[n]? = some e → l[n']? = some e' → e.event.op.executed = some runId →
      e'.event.op.executed = some runId → passage n = passage n' → n = n'

/-- What a store must find: the runs that are queued in the copy are queued in the file, and so is the
run that is claimed. The run that a call moves to another status is not looked at. -/
structure SafeStore (e : QueueTraceEntry) : Prop where
  kept : ∀ queue runId, storedBy e = some queue → changedRun e ≠ some runId →
    statusIn (copyOf e) runId = some "queued" → statusIn (fileEntries e.before) runId = some "queued"
  claimed : ∀ options runId, e.call = .runNext options → changedRun e = some runId →
    Leads runId "running" e → statusIn (fileEntries e.before) runId = some "queued"

/-! ### The status of a run after a store -/

theorem statusIn_addEntry {runId reason : String} {entry : Json} {entries : List Json}
    (h : Submitted runId reason entry) (hs : SoundEntries entries)
    (hnew : findEntry entries runId = none) (id : String) :
    statusIn (addEntry entry entries) id = if id = runId then some "queued" else statusIn entries id := by
  rw [statusIn, findEntry_addEntry h.runId hs.distinct hnew]
  split_ifs
  · exact h.status
  · rfl

theorem statusIn_updateEntry {runId status reason : String} {change : Json → Json}
    (h : Records status reason change) (entries : List Json) (id : String) :
    statusIn (updateEntry runId change entries) id =
      if id = runId then (findEntry entries id).map fun _ => status else statusIn entries id := by
  rw [statusIn, findEntry_updateEntry h]
  split_ifs with hid
  · cases hfind : findEntry entries id with
    | none => rfl
    | some entry => exact h.moves entry (isObject_of_runIdOf (runIdOf_of_findEntry hfind))
  · rfl

/-! ### The passage of a queued run -/

/-- A run was queued, and has been in the queue since then. -/
def QueuedSince (runId : String) (trace : List QueueTraceEntry) : Prop :=
  ∃ before p after, trace = before ++ p :: after ∧ Passage runId p ∧ ∀ x ∈ after, ¬ Unqueues runId x

theorem QueuedSince.concat {runId : String} {trace : List QueueTraceEntry} (h : QueuedSince runId trace)
    {e : QueueTraceEntry} (he : ¬ Unqueues runId e) : QueuedSince runId (trace ++ [e]) := by
  obtain ⟨before, p, after, rfl, hp, hafter⟩ := h
  refine ⟨before, p, after ++ [e], by rw [List.append_assoc, List.cons_append], hp, fun x hx => ?_⟩
  rcases List.mem_append.mp hx with hx | hx
  · exact hafter x hx
  · rw [List.mem_singleton.mp hx]
    exact he

/-- **A store that leaves a run queued** finds it queued or queues it. -/
theorem queued_or_passage {e : QueueTraceEntry} {queue : Json} {runId : String}
    (hstored : storedBy e = some queue) (hstores : StoresOf e queue) (hcopy : SoundEntries (copyOf e))
    (hsafe : SafeStore e) (hqueued : statusIn (entriesOf queue) runId = some "queued") :
    statusIn (fileEntries e.before) runId = some "queued" ∨ Passage runId e := by
  by_cases hbefore : statusIn (fileEntries e.before) runId = some "queued"
  · exact .inl hbefore
  refine .inr ⟨hbefore, ⟨queue, hstored, hqueued⟩, ?_⟩
  have hkept := hsafe.kept queue runId hstored
  cases hstores with
  | adds id reason entry submits submitted new entries =>
    rw [entries, statusIn_addEntry submitted hcopy new] at hqueued
    by_cases hid : runId = id
    · subst hid
      cases hcall : e.call with
      | submit target planPath runId receiptOut => exact new
      | submitProjectStart options => exact new
      | transition target runId status reason => rw [hcall] at submits; cases submits
      | runNext options => rw [hcall] at submits; cases submits
    · rw [if_neg hid] at hqueued
      refine absurd (hkept ?_ hqueued) hbefore
      rw [changedRun_of_submits submits]
      simp
  | changes id status reason change some retry given records entries =>
    rw [entries, statusIn_updateEntry records] at hqueued
    by_cases hid : runId = id
    · subst hid
      rw [if_pos rfl] at hqueued
      obtain ⟨entry, -, hstatus⟩ := Option.map_eq_some_iff.mp hqueued
      obtain ⟨target, hcall⟩ := retry hstatus
      rw [hcall]
      exact ⟨rfl, hstatus⟩
    · rw [if_neg hid] at hqueued
      refine absurd (hkept ?_ hqueued) hbefore
      rw [some]
      exact fun heq => hid (Option.some.inj heq).symm

/-- What has been queued since a passage, as long as every store is safe. -/
def Accounted (trace : List QueueTraceEntry) (file : Option Json) : Prop :=
  (∀ e ∈ trace, SafeStore e) →
    ∀ runId, statusIn (fileEntries file) runId = some "queued" → QueuedSince runId trace

theorem accounted_step {trace : List QueueTraceEntry} {e : QueueTraceEntry}
    (hcopy : SoundEntries (copyOf e)) (hasks : Asks e.call e.earlier e.event.op)
    (hG : Accounted trace e.before) : Accounted (trace ++ [e]) ((storedBy e).or e.before) := by
  intro hsafe runId hqueued
  have hbefore := hG (fun x hx => hsafe x (List.mem_append_left _ hx)) runId
  cases hstored : storedBy e with
  | none =>
    rw [hstored] at hqueued
    refine (hbefore hqueued).concat ?_
    rintro ⟨queue, hqueue, -⟩
    rw [hstored] at hqueue
    cases hqueue
  | some queue =>
    rw [hstored] at hqueued
    have hqueued : statusIn (entriesOf queue) runId = some "queued" := hqueued
    rcases queued_or_passage hstored (storesOf_of_asks hasks hstored) hcopy
      (hsafe e (by simp)) hqueued with hfile | hpassage
    · refine (hbefore hfile).concat ?_
      rintro ⟨queue', hqueue', hne⟩
      rw [hstored, Option.some_inj] at hqueue'
      exact hne (hqueue' ▸ hqueued)
    · exact ⟨trace, e, [], rfl, hpassage, List.forall_mem_nil _⟩

/-- **A run that is queued has been queued by a submission or a retry**, and not been taken out since,
before every operation of a run. -/
theorem accounted_queueRun (moves : List (PoolMove QueueCall QueueAnswers)) :
    ∀ pre e post, (queueRun moves).trace = pre ++ e :: post → Accounted pre e.before := by
  have h := Pool.trace_induction (M := queueMachine) (w := none)
    (G := fun trace file => (SoundEntries (fileEntries file) ∧ SoundReads trace) ∧ Accounted trace file)
    program_traced ⟨⟨soundEntries_nil, List.forall_mem_nil _⟩, ?_⟩ ?_ moves
  · exact fun pre e post htrace => (h.2 pre e post htrace).2
  · intro _ runId hqueued
    cases hqueued
  · intro trace e answers hG hasks hearlier hans
    refine ⟨sound_step trace e answers hG.1 hasks hearlier hans, ?_⟩
    rw [queueMachine_step hans]
    exact accounted_step (hG.1.2.copyOf hearlier) hasks hG.2

/-! ### Executions -/

/-- What is known of a call that executes a run: it searched for it and claimed it right before. -/
theorem claimed_of_executed {e : QueueTraceEntry} {runId : String}
    (hasks : Asks e.call e.earlier e.event.op) (hexecuted : e.event.op.executed = some runId) :
    (∃ options, e.call = .runNext options) ∧ sought e.earlier = some runId ∧ Claimed e.earlier runId := by
  generalize e.event.op = o at hasks hexecuted
  cases hcall : e.call with
  | runNext options =>
    rw [hcall] at hasks
    refine ⟨⟨options, rfl⟩, ?_⟩
    cases o with
    | runPlan plan =>
      obtain ⟨id, hsought, hid, hclaimed⟩ := hasks rfl
      obtain rfl : id = runId := Option.some.inj (hid.symm.trans hexecuted)
      exact ⟨hsought, hclaimed⟩
    | projectStart start =>
      obtain ⟨id, hsought, rfl, hclaimed⟩ := hasks rfl
      obtain rfl := Option.some.inj hexecuted
      exact ⟨hsought, hclaimed⟩
    | _ => cases hexecuted
  | submit target planPath runId' receiptOut =>
    rw [hcall] at hasks
    cases o with
    | runPlan plan => exact hasks.elim
    | projectStart start => exact hasks.elim
    | _ => cases hexecuted
  | submitProjectStart options =>
    rw [hcall] at hasks
    cases o with
    | runPlan plan => exact hasks.elim
    | projectStart start => exact hasks.elim
    | _ => cases hexecuted
  | transition target runId' status reason =>
    rw [hcall] at hasks
    cases o with
    | runPlan plan => exact hasks.elim
    | projectStart start => exact hasks.elim
    | _ => cases hexecuted

section

variable {moves : List (PoolMove QueueCall QueueAnswers)} {pre post : List QueueTraceEntry}
  {e : QueueTraceEntry} {runId : String}

/-- **Before an execution there is its claim, and before the claim a passage**, after which the run was
in the queue until it was claimed. -/
theorem claim_of_execution (hsafe : ∀ x ∈ (queueRun moves).trace, SafeStore x)
    (htrace : (queueRun moves).trace = pre ++ e :: post)
    (hexecuted : e.event.op.executed = some runId) :
    ∃ pre' c between, pre = pre' ++ c :: between ∧ ClaimOf runId e c ∧ QueuedSince runId pre' := by
  have hcoherent := coherent_queueRun moves
  obtain ⟨⟨options, hcall⟩, hsought, earlier, queue, hearlier, hrunning⟩ :=
    claimed_of_executed (hcoherent.entries e (by simp [htrace])) hexecuted
  obtain ⟨pre', c, between, rfl, hindex, hcall', hearlier', hevent⟩ :=
    hcoherent.previous htrace hearlier
  have hleads : Leads runId "running" c := ⟨queue, storedBy_eq_some_iff.mpr hevent, hrunning⟩
  have hmem : c ∈ (queueRun moves).trace := by simp [htrace]
  have hchanged : changedRun c = some runId := by
    rw [hearlier, sought_of_readBy rfl] at hsought
    rw [changedRun, hcall', hcall, hearlier', hsought]
  refine ⟨pre', c, between, rfl, ⟨hindex, by rw [hearlier, hearlier', hevent], hleads⟩, ?_⟩
  rw [List.append_assoc, List.cons_append] at htrace
  refine accounted_queueRun moves pre' c _ htrace (fun x hx => hsafe x (by simp [htrace, hx])) runId ?_
  exact (hsafe c hmem).claimed options runId (hcall'.trans hcall) hchanged hleads

end

/-- What is at a position between two others. -/
theorem mem_of_getElem?_between {before after rest : List QueueTraceEntry} {p x : QueueTraceEntry} {k : ℕ}
    (hx : (before ++ p :: (after ++ rest))[k]? = some x) (hlt : before.length < k)
    (hk : k < before.length + 1 + after.length) : x ∈ after := by
  obtain ⟨j, rfl⟩ : ∃ j, k = before.length + (j + 1) := ⟨k - before.length - 1, by omega⟩
  rw [List.getElem?_append_right (by omega), Nat.add_sub_cancel_left, List.getElem?_cons_succ,
    List.getElem?_append_left (by omega)] at hx
  exact List.mem_of_getElem? hx

theorem exists_led {l : List QueueTraceEntry} {n : ℕ} {e : QueueTraceEntry} {runId : String}
    (he : l[n]? = some e) (hclaim : ∃ pre' c between, l.take n = pre' ++ c :: between ∧
      ClaimOf runId e c ∧ QueuedSince runId pre') : ∃ passage claim, Led l runId e passage claim n := by
  obtain ⟨pre', c, between, htake, hclaimOf, before, p, after, rfl, hpassage, hafter⟩ := hclaim
  have hl : l = before ++ p :: (after ++ c :: (between ++ e :: l.drop (n + 1))) := by
    refine (Pool.eq_take_append_cons he).trans ?_
    rw [htake]
    simp only [List.append_assoc, List.cons_append]
  have hn : n = before.length + 1 + after.length + 1 + between.length := by
    have hlength := congrArg List.length htake
    have hlt := (List.getElem?_eq_some_iff.mp he).1
    simp only [List.length_take, List.length_append, List.length_cons] at hlength
    omega
  refine ⟨before.length, before.length + 1 + after.length, ?_, ?_, ?_, ?_⟩
  · omega
  · refine ⟨p, ?_, hpassage⟩
    rw [hl, List.getElem?_append_right (Nat.le_refl _), Nat.sub_self, List.getElem?_cons_zero]
  · refine ⟨c, ?_, hclaimOf⟩
    have hlength : before.length + 1 + after.length = (before ++ p :: after).length := by
      rw [List.length_append, List.length_cons]
      omega
    rw [hl, ← List.cons_append, ← List.append_assoc, hlength,
      List.getElem?_append_right (Nat.le_refl _), Nat.sub_self, List.getElem?_cons_zero]
  · intro k x hlt hk hx
    rw [hl] at hx
    exact hafter x (mem_of_getElem?_between hx hlt hk)

/-- An execution whose claim is stored after that of another one has a passage of its own. -/
theorem Led.passage_ne {l : List QueueTraceEntry} {runId : String} {e e' : QueueTraceEntry}
    {passage claim n passage' claim' n' : ℕ} (h : Led l runId e passage claim n)
    (h' : Led l runId e' passage' claim' n') (hlt : claim < claim') : passage ≠ passage' := by
  rintro rfl
  obtain ⟨c, hc, -, -, queue, hstored, hrunning⟩ := h.claimedAt
  refine h'.queued claim c h.order.1 hlt hc ⟨queue, hstored, ?_⟩
  rw [hrunning]
  decide

/-- **Queued runs are executed once** in every run of any number of calls whose stores are safe. -/
theorem executedOnce_of_safeStores (moves : List (PoolMove QueueCall QueueAnswers))
    (hsafe : ∀ e ∈ (queueRun moves).trace, SafeStore e) : ExecutedOnce (queueRun moves).trace := by
  have hcoherent := coherent_queueRun moves
  have hled : ∀ n, ∃ passage claim, ∀ e runId, (queueRun moves).trace[n]? = some e →
      e.event.op.executed = some runId → Led (queueRun moves).trace runId e passage claim n := by
    intro n
    by_cases hn : ∃ e runId, (queueRun moves).trace[n]? = some e ∧ e.event.op.executed = some runId
    · obtain ⟨e, runId, he, hexecuted⟩ := hn
      obtain ⟨passage, claim, hled⟩ := exists_led he
        (claim_of_execution hsafe (Pool.eq_take_append_cons he) hexecuted)
      refine ⟨passage, claim, fun e' runId' he' hexecuted' => ?_⟩
      rw [he, Option.some_inj] at he'
      subst he'
      rw [hexecuted, Option.some_inj] at hexecuted'
      exact hexecuted' ▸ hled
    · exact ⟨0, 0, fun e runId he hexecuted => (hn ⟨e, runId, he, hexecuted⟩).elim⟩
  choose passage claim hled using hled
  refine ⟨passage, claim, fun n => hled n, fun n n' e e' runId he he' hexecuted hexecuted' heq => ?_⟩
  have h := hled n e runId he hexecuted
  have h' := hled n' e' runId he' hexecuted'
  rcases Nat.lt_trichotomy (claim n) (claim n') with hlt | hclaim | hlt
  · exact absurd heq (h.passage_ne h' hlt)
  · obtain ⟨c, hc, hindex, hlast, -⟩ := h.claimedAt
    obtain ⟨c', hc', hindex', hlast', -⟩ := h'.claimedAt
    rw [hclaim, hc', Option.some_inj] at hc
    subst hc
    exact hcoherent.position_unique he he' (hindex.symm.trans hindex') (by rw [hlast, hlast'])
  · exact absurd heq.symm (h'.passage_ne h hlt)

/-! ### A run in which it does -/

/-- A store of what is in the file, by a call that claims no run but a queued one. -/
def storesCurrent (e : QueueTraceEntry) : Bool :=
  match storedBy e with
  | none => true
  | some queue => copyOf e = fileEntries e.before ∧
    ((changedRun e).all fun runId => statusIn (entriesOf queue) runId ≠ some "running" ∨
      statusIn (fileEntries e.before) runId = some "queued")

theorem safeStore_of_storesCurrent {e : QueueTraceEntry} (h : storesCurrent e = true) : SafeStore e := by
  rw [storesCurrent] at h
  cases hstored : storedBy e with
  | none =>
    refine ⟨fun queue runId hqueue => ?_, fun options runId _ _ hleads => ?_⟩
    · rw [hstored] at hqueue
      cases hqueue
    · obtain ⟨queue, hqueue, -⟩ := hleads
      rw [hstored] at hqueue
      cases hqueue
  | some queue =>
    rw [hstored] at h
    obtain ⟨hcopy, hclaims⟩ := of_decide_eq_true h
    refine ⟨fun _ runId _ _ hqueued => hcopy ▸ hqueued, fun options runId _ hchanged hleads => ?_⟩
    obtain ⟨queue', hqueue', hrunning⟩ := hleads
    rw [hstored, Option.some_inj] at hqueue'
    subst hqueue'
    rw [hchanged, Option.all_some] at hclaims
    exact (of_decide_eq_true hclaims).resolve_left fun hne => hne hrunning

theorem executedOnce_retried : ExecutedOnce (queueRun retriedMoves).trace := by
  refine executedOnce_of_safeStores retriedMoves fun e he => safeStore_of_storesCurrent ?_
  have hall : (queueRun retriedMoves).trace.all storesCurrent = true := by decide +kernel
  exact List.all_eq_true.mp hall e he

/-! ### Two calls that find the same run -/

/-- A plan is submitted; two calls find it before either has claimed it. -/
def racedMoves : List (PoolMove QueueCall QueueAnswers) :=
  .spawn (.submit "repo" "plan.json" (some "run") none) :: acts 0 8 ++
    .spawn (.runNext runNextOptions) :: acts 1 5 ++
    .spawn (.runNext runNextOptions) :: acts 2 5 ++ acts 1 6 ++ acts 2 6

/-- Both calls execute the run that was queued once. -/
theorem not_executedOnce_raced : ¬ ∀ moves, ExecutedOnce (queueRun moves).trace := by
  intro h
  obtain ⟨passage, claim, hled, hone⟩ := h racedMoves
  have hexecuted : ∀ n ∈ [23, 29], (((queueRun racedMoves).trace[n]?).bind fun e =>
      e.event.op.executed) = some "run" := by decide +kernel
  have hqueued : (queueRun racedMoves).trace.findIdxs (fun e => (storedBy e).any fun queue =>
      statusIn (entriesOf queue) "run" = some "queued") = [7] := by decide +kernel
  have hpassage : ∀ n ∈ [23, 29], passage n = 7 := by
    intro n hn
    obtain ⟨e, he, hexecuted⟩ := Option.bind_eq_some_iff.mp (hexecuted n hn)
    obtain ⟨p, hp, hpassage⟩ := (hled n e "run" he hexecuted).queuedAt
    obtain ⟨queue, hstored, hstatus⟩ := hpassage.after
    obtain ⟨hlt, rfl⟩ := List.getElem?_eq_some_iff.mp hp
    have hmem : passage n ∈ (queueRun racedMoves).trace.findIdxs (fun e => (storedBy e).any fun queue =>
        statusIn (entriesOf queue) "run" = some "queued") :=
      List.mem_findIdxs_iff_exists_getElem_pos.mpr ⟨hlt, by rw [hstored, Option.any_some, hstatus]; rfl⟩
    rw [hqueued] at hmem
    exact List.mem_singleton.mp hmem
  obtain ⟨e, he, hexecuted₁⟩ := Option.bind_eq_some_iff.mp (hexecuted 23 (by simp))
  obtain ⟨e', he', hexecuted₂⟩ := Option.bind_eq_some_iff.mp (hexecuted 29 (by simp))
  have heq := hone 23 29 e e' "run" he he' hexecuted₁ hexecuted₂
    ((hpassage 23 (by simp)).trans (hpassage 29 (by simp)).symm)
  omega

end Ao2

/-! ## Stages that execute nothing -/

namespace Ao2

open Interaction

/-- No run is executed. -/
def Idle {α : Type} (p : QueueProg α) : Prop := p.Only fun (o : QueueOp) => o.executed = none

section

variable {α β : Type}

theorem Idle.bind {p : QueueProg α} {f : α → QueueProg β} (hp : Idle p) (hf : ∀ a, Idle (f a)) :
    Idle (p.bind f) := Prog.Only.bind hp hf

theorem idle_pure (a : α) : Idle (pure a : QueueProg α) := trivial

theorem idle_fail (message : String) : Idle (.fail message : QueueProg α) := trivial

theorem idle_ofExcept (r : Except String α) : Idle (.ofExcept r) := Prog.Only.ofExcept r

theorem idle_inContext (message : String) (r : Except String α) : Idle (inContext message r) :=
  idle_ofExcept _

theorem idle_performQueue {o : QueueOp} (ho : o.executed = none) : Idle (performQueue o) :=
  ⟨ho, fun _ => trivial⟩

theorem idle_ite {c : Prop} [Decidable c] {p q : QueueProg α} (hp : Idle p) (hq : Idle q) :
    Idle (if c then p else q) := Prog.Only.ite hp hq

theorem Idle.attempt {p : QueueProg α} (hp : Idle p) : Idle (p.attempt : QueueProg (Except String α)) :=
  Prog.Only.attempt hp

/-- **An idle program only adds to the history.** -/
theorem Idle.wp {p : QueueProg α} (hp : Idle p) {C : QueueOp → List (Event QueueSignature) → Prop}
    (hC : ∀ o h, o.executed = none → C o h) (f : Oracle QueueSignature)
    (h : List (Event QueueSignature)) :
    f.machine.wp C p (fun _ h' => h <+: h') (fun _ _ => True) h :=
  Machine.wp_mono
    (Machine.wp_of_only (R := (· <+: ·)) (fun _ => List.prefix_rfl) List.IsPrefix.trans
      (fun _ _ _ => List.prefix_append _ _) hp h)
    (fun o h hexecuted => hC o h hexecuted.1) (fun _ _ => id) fun _ _ _ => trivial

/-! ### Files and the queue -/

theorem idle_sha256File (path : String) : Idle (sha256File path) :=
  (idle_performQueue rfl).bind idle_ofExcept

theorem idle_atomicWrite (path : String) (content : FileContent) : Idle (atomicWrite path content) :=
  (idle_performQueue rfl).bind idle_ofExcept

theorem idle_writeHashed (path : String) (v : Json) : Idle (writeHashed path v) :=
  (idle_atomicWrite _ _).bind fun _ => idle_sha256File _

theorem idle_factoryEnsureTargetRepo (target : String) : Idle (factoryEnsureTargetRepo target) :=
  (idle_performQueue rfl).bind fun _ => idle_ofExcept _

theorem idle_factoryQueueLoad (target : String) : Idle (factoryQueueLoad target) :=
  (idle_performQueue rfl).bind fun _ => idle_ofExcept _

theorem idle_factoryQueueStore (target : String) (queue : Json) : Idle (factoryQueueStore target queue) :=
  (idle_performQueue rfl).bind fun _ => (idle_performQueue rfl).bind fun r =>
    (idle_ofExcept r).bind fun _ => idle_pure _

theorem idle_factoryQueueTransition (target runId status reason : String) :
    Idle (factoryQueueTransition target runId status reason) := by
  refine (idle_factoryEnsureTargetRepo _).bind fun _ => (idle_factoryQueueLoad _).bind fun queue => ?_
  refine (idle_performQueue rfl).bind fun now => ?_
  cases findEntry (entriesOf queue) runId with
  | none => exact idle_fail _
  | some entry => exact (idle_factoryQueueStore _ _).bind fun _ => idle_pure _

theorem idle_refuse (target runId reason message : String) :
    Idle (refuse target runId reason message : QueueProg α) :=
  (idle_factoryQueueTransition target runId "blocked" reason).attempt.bind fun _ => idle_fail message

theorem idle_orRefuse (target runId reason message : String) (r : Except String Json) :
    Idle (orRefuse target runId reason message r) := by
  cases r with
  | ok v => exact idle_pure v
  | error e => exact idle_refuse _ _ _ _

theorem idle_requireStatus (target runId reason message : String) (v : Json) (status : String) :
    Idle (requireStatus target runId reason message v status) :=
  idle_ite (idle_pure _) (idle_refuse _ _ _ _)

theorem idle_resolvedRawPath (message base raw : String) : Idle (resolvedRawPath message base raw) := by
  refine Idle.bind (Idle.attempt ?_) fun _ => idle_inContext _ _
  refine idle_ite (idle_fail _) ?_
  exact (idle_performQueue rfl).bind fun _ => (idle_ofExcept _).bind fun _ => idle_pure _

/-! ### Plans -/

theorem idle_checkQueuedPlan (targetRoot runId : String) (next : Json) :
    Idle (checkQueuedPlan targetRoot runId next) := by
  refine idle_ite (idle_fail _) ((idle_performQueue rfl).bind fun readable => ?_)
  refine idle_ite (idle_refuse _ _ _ _) ((idle_performQueue rfl).bind fun digest => ?_)
  cases digest with
  | error e => exact idle_refuse _ _ _ _
  | ok digest => exact idle_ite (idle_refuse _ _ _ _) (idle_pure _)

/-- **A plan is not executed again** when its entry is completed. -/
theorem idle_completePlan (targetRoot runId : String) (running runResult : Json) :
    Idle (completePlan targetRoot runId running runResult) := by
  refine (idle_factoryQueueLoad _).bind fun queue => (idle_performQueue rfl).bind fun now => ?_
  refine (idle_factoryQueueStore _ _).bind fun stored => (idle_factoryQueueLoad _).bind fun refreshed => ?_
  exact (idle_ofExcept _).bind fun entry => idle_pure _

/-! ### Project starts -/

theorem idle_checkQueuedProjectStart (targetRoot runId : String) (request : Json) :
    Idle (checkQueuedProjectStart targetRoot runId request) := by
  refine idle_ite (idle_fail _) ((idle_performQueue rfl).bind fun readable => ?_)
  refine idle_ite (idle_refuse _ _ _ _) ((idle_performQueue rfl).bind fun digest => ?_)
  exact (idle_inContext _ _).bind fun digest => idle_ite (idle_refuse _ _ _ _) (idle_pure _)

theorem idle_verifyProjectStartBundle (targetRoot runId outDir : String) (projectStart : Json) :
    Idle (verifyProjectStartBundle targetRoot runId outDir projectStart) := by
  refine (idle_resolvedRawPath _ _ _).bind fun bundle => (idle_performQueue rfl).bind fun verified => ?_
  refine (idle_orRefuse _ _ _ _ _).bind fun verification => (idle_writeHashed _ _).bind fun sha256 => ?_
  exact (idle_requireStatus _ _ _ _ _ _).bind fun _ => idle_pure _

theorem idle_summarizeProjectStart (targetRoot runId outDir : String) (projectStart : Json)
    (verification : RecordedFile) :
    Idle (summarizeProjectStart targetRoot runId outDir projectStart verification) := by
  refine (idle_resolvedRawPath _ _ _).bind fun path => (idle_performQueue rfl).bind fun summarized => ?_
  refine (idle_orRefuse _ _ _ _ _).bind fun summary => (idle_atomicWrite _ _).bind fun _ => ?_
  refine (idle_atomicWrite _ _).bind fun _ => (idle_sha256File _).bind fun sha256 => ?_
  exact (idle_requireStatus _ _ _ _ _ _).bind fun _ => idle_pure _

theorem idle_checkOperatorSummary (entry : Json) (runId : String) :
    Idle (checkOperatorSummary entry runId) := by
  refine (idle_performQueue rfl).bind fun readable => (idle_ofExcept _).bind fun _ => ?_
  refine (idle_performQueue rfl).bind fun digest => (idle_inContext _ _).bind fun actual => ?_
  exact idle_ofExcept _

theorem idle_factoryQueueStatusDetail (queue entry : Json) (runId : String) :
    Idle (factoryQueueStatusDetail queue entry runId) := by
  refine (idle_ofExcept _).bind fun _ => ?_
  split
  · exact (idle_checkOperatorSummary _ _).bind fun _ => idle_pure _
  · exact idle_pure _

theorem idle_writeQueueStatuses (outDir runId : String) (queue entry : Json) :
    Idle (writeQueueStatuses outDir runId queue entry) := by
  refine (idle_factoryQueueStatusDetail _ _ _).bind fun status => (idle_ofExcept _).bind fun latest => ?_
  refine (idle_factoryQueueStatusDetail _ _ _).bind fun latestStatus => ?_
  exact (idle_atomicWrite _ _).bind fun _ => (idle_atomicWrite _ _).bind fun _ => idle_pure _

theorem idle_packageClosure (targetRoot runId outDir statusPath latestPath : String) :
    Idle (packageClosure targetRoot runId outDir statusPath latestPath) := by
  refine (idle_performQueue rfl).bind fun packaged => (idle_orRefuse _ _ _ _ _).bind fun closure => ?_
  refine (idle_atomicWrite _ _).bind fun _ => (idle_sha256File _).bind fun archiveSha256 => ?_
  refine (idle_sha256File _).bind fun jsonSha256 => (idle_requireStatus _ _ _ _ _ _).bind fun _ => ?_
  refine (idle_performQueue rfl).bind fun verified => (idle_orRefuse _ _ _ _ _).bind fun verification => ?_
  refine (idle_writeHashed _ _).bind fun sha256 => ?_
  exact (idle_requireStatus _ _ _ _ _ _).bind fun _ => idle_pure _

theorem idle_packageReplacementPacket (targetRoot runId outDir statusPath latestPath : String)
    (closure : Packaged) :
    Idle (packageReplacementPacket targetRoot runId outDir statusPath latestPath closure) := by
  refine (idle_performQueue rfl).bind fun packaged => (idle_orRefuse _ _ _ _ _).bind fun packet => ?_
  refine (idle_writeHashed _ _).bind fun jsonSha256 => (idle_sha256File _).bind fun archiveSha256 => ?_
  refine (idle_requireStatus _ _ _ _ _ _).bind fun _ => (idle_performQueue rfl).bind fun verified => ?_
  refine (idle_orRefuse _ _ _ _ _).bind fun verification => (idle_writeHashed _ _).bind fun sha256 => ?_
  exact (idle_requireStatus _ _ _ _ _ _).bind fun _ => idle_pure _

/-- **A project start is not executed again** when its entry is completed. -/
theorem idle_completeProjectStart (targetRoot runId outDir : String) (running projectStart : Json)
    (verification summary : RecordedFile) :
    Idle (completeProjectStart targetRoot runId outDir running projectStart verification summary) := by
  refine (idle_factoryQueueLoad _).bind fun queue => (idle_performQueue rfl).bind fun now => ?_
  refine (idle_ofExcept _).bind fun entry => (idle_writeQueueStatuses _ _ _ _).bind fun paths => ?_
  refine (idle_packageClosure _ _ _ _ _).bind fun closure => ?_
  refine (idle_sha256File _).bind fun statusSha256 => (idle_sha256File _).bind fun latestSha256 => ?_
  refine (idle_packageReplacementPacket _ _ _ _ _ _).bind fun packet => ?_
  refine (idle_factoryQueueStore _ _).bind fun stored => (idle_factoryQueueLoad _).bind fun refreshed => ?_
  exact (idle_ofExcept _).bind fun entry => idle_pure _

end

end Ao2
