import Ao2.Pulse.AdvanceWorld
import Ao2.Pulse.AutoAdvance

/-!
# What the ledger is worth

What is read from a ledger after an append, and the steps of auto-advance that leave the ledger
alone: they look at files, wait, and ask for the next packet.

## Main results

* `loadSeen_append` — what an append adds to what is read from a ledger
* `Sound.works` — executing a packet that is not in the ledger keeps everything
* `wp_leaves` — what is known of a program that leaves the ledger alone
-/

namespace Ao2

open Interaction

/-! ### Reading what was appended -/

namespace PulseAutoAdvanceLedgerEntry

variable (e : PulseAutoAdvanceLedgerEntry)

theorem text_no_break : '\n' ∉ e.text := by
  have hnat : '\n' ∉ Nat.toDigits 10 e.taskCount := by
    intro h
    exact absurd (Nat.isDigit_of_mem_toDigits (by decide) (by decide) h) (by decide)
  have hmember {key : String} {value : List Char} (h : '\n' ∉ value) :
      '\n' ∉ memberText key value := by
    simp [memberText, quoteJson_no_break, h]
  simp [text, members, List.intercalate, hmember, quoteJson_no_break, hnat]

theorem text_getLast : e.text.getLast? = some '}' := by
  rw [text, List.getLast?_concat]

theorem text_ne_nil : e.text ≠ [] := by
  intro h
  have := e.text_getLast
  rw [h] at this
  cases this

/-- The lines that a part of the line of an entry adds. -/
theorem lines_take (n : ℕ) :
    lines (e.line.take n) = if n = 0 then [] else [e.text.take n] := by
  have hbreak := e.text_no_break
  rcases Nat.lt_or_ge e.text.length n with hn | hn
  · have hline : e.line.take n = e.text ++ ['\n'] := by
      rw [line, List.take_of_length_le]
      rw [List.length_append, List.length_singleton]
      exact hn
    rw [hline, lines_of_break hbreak (by rw [e.text_getLast]; decide), if_neg (by omega),
      List.take_of_length_le hn.le]
  · have hline : e.line.take n = e.text.take n := by rw [line, List.take_append_of_le_length hn]
    have hmem : '\n' ∉ e.text.take n := fun h => hbreak (List.mem_of_mem_take h)
    rw [hline, lines_of_no_break hmem]
    simp [e.text_ne_nil]

end PulseAutoAdvanceLedgerEntry

section

variable [JsonText]

/-- **What an append adds** to what is read from a ledger: the digest, once the whole entry is
there. -/
theorem loadSeen_append {ledger : TextFile} (hstart : ledger.AtLineStart)
    (e : PulseAutoAdvanceLedgerEntry) {n : ℕ} {complete direct : Bool}
    (hlegible : (AdvanceEvent.appended ledger e n complete direct).Legible) :
    loadSeen (ledger.append (e.line.take n)) =
      loadSeen ledger ++ if e.text.length ≤ n then [e.pulseEvalLoopSha256] else [] := by
  have hadded : (lines (e.line.take n)).filterMap lineDigest =
      if e.text.length ≤ n then [e.pulseEvalLoopSha256] else [] := by
    have hpos : 0 < e.text.length := List.length_pos_iff.mpr e.text_ne_nil
    rw [e.lines_take]
    by_cases hn : e.text.length ≤ n
    · rw [if_pos hn, if_neg (by omega), List.take_of_length_le hn]
      simp [hlegible.1]
    · rw [if_neg hn]
      by_cases hzero : n = 0
      · simp [hzero]
      · simp [hzero, hlegible.2 n (not_le.mp hn)]
  cases ledger with
  | absent => simpa [TextFile.append, loadSeen] using hadded
  | unreadable e => exact hstart.elim
  | text content =>
    rw [TextFile.append, loadSeen, loadSeen, String.toList_ofList, lines_append hstart,
      List.filterMap_append, hadded]

/-! ### What holds at every moment -/

variable [Platform]

/-- Everything in the history is legible and undisturbed. -/
def Fair (trace : List AdvanceEvent) : Prop := ∀ e ∈ trace, e.Legible ∧ e.Undisturbed

theorem Fair.of_append {es fs : List AdvanceEvent} (h : Fair (es ++ fs)) : Fair es :=
  fun e he => h e (List.mem_append_left fs he)

/-- What is kept of a ledger and its history. The pending packet is in the ledger and not published
yet. -/
structure Kept (pending : Option String) (w : AdvanceWorld) : Prop where
  once : w.trace.Pairwise fun e e' => ∀ digest, e.Records digest → ¬ e'.Executes digest
  passed : ∀ digest ∈ loadSeen w.ledger, ∃ before e after, w.trace = before ++ e :: after ∧
    e.Records digest ∧ PacketPassed before digest
  seen : w.ledger.Readable → ∀ e ∈ w.trace, ∀ digest, e.Records digest → digest ∈ loadSeen w.ledger
  published : ∀ e ∈ w.trace, ∀ digest, e.RecordsDirect digest → pending = some digest ∨
    ∃ reason, .ran (.directMainPublish digest reason) (.ok 0) ∈ w.trace

def Sound (pending : Option String) (w : AdvanceWorld) : Prop := Fair w.trace → Kept pending w

/-- The packet is not in the ledger. -/
def Fresh (digest : String) (w : AdvanceWorld) : Prop :=
  Fair w.trace → ∀ e ∈ w.trace, ¬ e.Records digest

omit [JsonText] [Platform] in
theorem AdvanceEvent.RecordsDirect.records {e : AdvanceEvent} {digest : String}
    (h : e.RecordsDirect digest) : e.Records digest := by
  cases e with
  | appended before e written complete direct => exact ⟨h.1, h.2.1⟩
  | _ => exact h.elim

/-- The ledger is left alone, and tasks are executed of one packet at most. -/
def Works (packet : Option String) (w w' : AdvanceWorld) : Prop :=
  w'.ledger = w.ledger ∧ ∃ es, w'.trace = w.trace ++ es ∧
    ∀ e ∈ es, ∀ digest, ¬ e.Records digest ∧ (e.Executes digest → packet = some digest)

namespace Works

omit [JsonText] [Platform]

variable {packet : Option String} {w w' w'' : AdvanceWorld}

theorem refl (w : AdvanceWorld) : Works packet w w := ⟨rfl, [], by simp, by simp⟩

theorem trans (h : Works packet w w') (h' : Works packet w' w'') : Works packet w w'' := by
  obtain ⟨hledger, es, htrace, hes⟩ := h
  obtain ⟨hledger', fs, htrace', hfs⟩ := h'
  refine ⟨hledger'.trans hledger, es ++ fs, by rw [htrace', htrace, List.append_assoc], ?_⟩
  intro e he
  rcases List.mem_append.mp he with he | he
  · exact hes e he
  · exact hfs e he

theorem of_none (h : Works none w w') : Works packet w w' := by
  obtain ⟨hledger, es, htrace, hes⟩ := h
  exact ⟨hledger, es, htrace, fun e he digest =>
    ⟨(hes e he digest).1, fun hex => nomatch (hes e he digest).2 hex⟩⟩

theorem mem (h : Works packet w w') {e : AdvanceEvent} (he : e ∈ w.trace) : e ∈ w'.trace := by
  obtain ⟨-, es, htrace, -⟩ := h
  rw [htrace]
  exact List.mem_append_left es he

theorem count (w : AdvanceWorld) : Works packet w w.count :=
  ⟨rfl, [], (List.append_nil _).symm, by simp⟩

/-- One more entry of the history. -/
theorem observe {e : AdvanceEvent} (hrecords : ∀ digest, ¬ e.Records digest)
    (hexecutes : ∀ digest, e.Executes digest → packet = some digest) (n : ℕ) :
    Works packet w { w.observe e with tick := n } :=
  ⟨rfl, [e], rfl, by simpa using fun digest => ⟨hrecords digest, hexecutes digest⟩⟩

end Works

theorem Fresh.works {packet : Option String} {digest : String} {w w' : AdvanceWorld}
    (h : Fresh digest w) (hw : Works packet w w') : Fresh digest w' := by
  obtain ⟨-, es, htrace, hes⟩ := hw
  intro hfair e he
  rw [htrace] at hfair he
  rcases List.mem_append.mp he with he | he
  · exact h hfair.of_append e he
  · exact (hes e he digest).1

/-- **Work** on a packet that is not in the ledger keeps everything. -/
theorem Sound.works {pending packet : Option String} {w w' : AdvanceWorld} (h : Sound pending w)
    (hfresh : ∀ digest, packet = some digest → Fresh digest w) (hw : Works packet w w') :
    Sound pending w' := by
  obtain ⟨hledger, es, htrace, hes⟩ := hw
  intro hfair
  rw [htrace] at hfair
  have hkept : Kept pending w := h hfair.of_append
  refine ⟨?_, ?_, ?_, ?_⟩
  · rw [htrace]
    refine List.pairwise_append.mpr ⟨hkept.once, ?_, ?_⟩
    · exact List.pairwise_of_forall_mem_list fun e he e' _ digest hrec =>
        absurd hrec (hes e he digest).1
    · intro e he e' he' digest hrec hex
      exact hfresh digest ((hes e' he' digest).2 hex) hfair.of_append e he hrec
  · rw [hledger]
    intro digest hd
    obtain ⟨before, e, after, hsplit, hrec, hpassed⟩ := hkept.passed digest hd
    exact ⟨before, e, after ++ es, by rw [htrace, hsplit]; simp, hrec, hpassed⟩
  · rw [hledger, htrace]
    intro hread e he digest hrec
    rcases List.mem_append.mp he with he | he
    · exact hkept.seen hread e he digest hrec
    · exact absurd hrec (hes e he digest).1
  · rw [htrace]
    intro e he digest hrec
    rcases List.mem_append.mp he with he | he
    · refine (hkept.published e he digest hrec).imp_right ?_
      rintro ⟨reason, hran⟩
      exact ⟨reason, List.mem_append_left es hran⟩
    · exact absurd hrec.records (hes e he digest).1

theorem Sound.quiet {pending : Option String} {w w' : AdvanceWorld} (h : Sound pending w)
    (hw : Works none w w') : Sound pending w' := by
  refine h.works (fun digest hd => ?_) hw
  cases hd

/-! ### Operations -/

variable {env : AdvanceEnv} {o : PulseAutoAdvanceOptions}

/-- The operation leaves the ledger alone and executes no task. -/
def LeavesLedger : AdvanceOp → Prop
  | .prepareDirs | .appendLedger _ => False
  | .runCommand command => command.executes = none
  | _ => True

omit [Platform] [JsonText] in
theorem Routine.leavesLedger {op : AdvanceOp} (h : Routine op) : LeavesLedger op := by
  cases op with
  | prepareDirs | appendLedger | runCommand | sleep => exact h.elim
  | _ => trivial

/-- A process may stop in the operation. -/
def MayStop (o : PulseAutoAdvanceOptions) (op : AdvanceOp) (w : AdvanceWorld) : Prop :=
  ∀ stop, Sound none (w.stopIn o stop op)

omit [JsonText] in
theorem runCommand_works (command : AdvanceCommand) (w : AdvanceWorld) :
    Works command.executes w ((advanceMachine env o).step (.runCommand command) w).2 :=
  Works.observe (fun _ => id) (fun _ => id) _

omit [JsonText] in
theorem LeavesLedger.works {op : AdvanceOp} (h : LeavesLedger op) (w : AdvanceWorld) :
    Works none w ((advanceMachine env o).step op w).2 := by
  cases op with
  | prepareDirs | appendLedger => exact h.elim
  | runCommand command => exact (show command.executes = none from h) ▸ runCommand_works command w
  | isFile path => exact Works.observe (fun _ => id) (fun _ hex => by exact False.elim hex) _
  | readToString path sha256 => exact Works.observe (fun _ => id) (fun _ hex => by exact False.elim hex) _
  | sha256Path path => exact Works.observe (fun _ => id) (fun _ hex => by exact False.elim hex) _
  | readLedger => exact Works.observe (fun _ => id) (fun _ hex => by exact False.elim hex) _
  | pathExists path => exact Works.count w
  | readGateState path => exact Works.count w
  | utcNow => exact Works.count w
  | writeSummary payload => exact Works.count w
  | sleep seconds => exact Works.count w

theorem LeavesLedger.mayStop {op : AdvanceOp} (h : LeavesLedger op) {w : AdvanceWorld}
    (hw : Sound none w) : MayStop o op w := by
  intro stop
  have hstop : w.stopIn o stop op = w.observe (.stopped op) := by
    cases op with
    | appendLedger => exact h.elim
    | _ => rfl
  rw [hstop]
  refine hw.quiet (Works.observe (fun _ => id) ?_ _)
  intro digest hex
  cases op with
  | runCommand command => exact (show command.executes = none from h).symm.trans hex
  | _ => exact hex.elim

/-! ### Programs that leave the ledger alone -/

-- the commands are fixed texts, which nothing here should split
attribute [local irreducible] splitCommand

/-- **A program that leaves the ledger alone** may stop anywhere, and executes nothing. -/
theorem wp_leaves {α : Type} {p : AdvanceProg α} (h : p.Only LeavesLedger) {w : AdvanceWorld}
    (hw : Sound none w) :
    (advanceMachine env o).wp (MayStop o) p (fun _ w' => Works none w w')
      (fun _ w' => Works none w w') w := by
  refine Machine.wp_mono (Machine.wp_of_only Works.refl Works.trans (fun _ w h => h.works w) h w)
    (fun op w' hC => ?_) (fun _ _ => id) fun _ _ => id
  exact hC.1.mayStop (hw.quiet hC.2)

omit [JsonText] in
/-- Such a program keeps what is known of the history while it finds out more. -/
theorem wp_leaves_and {α : Type} {p : AdvanceProg α} (h : p.Only LeavesLedger) {w : AdvanceWorld}
    {Q : α → AdvanceWorld → Prop}
    (hQ : (advanceMachine env o).wp (fun _ _ => True) p Q (fun _ _ => True) w) :
    (advanceMachine env o).wp (fun _ _ => True) p (fun a w' => Works none w w' ∧ Q a w')
      (fun _ _ => True) w :=
  Machine.wp_mono ((Machine.wp_of_only Works.refl Works.trans (fun _ w h => h.works w) h w).and hQ)
    (fun _ _ _ => trivial) (fun _ _ => id) fun _ _ _ => trivial

theorem asksForNext_leaves (reason : String) : OnlyS LeavesLedger (pulseGenerateNext o reason) :=
  pulseGenerateNext_only (fun _ => Routine.leavesLedger) rfl (fun _ => rfl) reason

theorem duplicateRound_only (packet : Packet) (iteration : ℕ) :
    OnlyS LeavesLedger (duplicateRound o packet iteration) := by
  unfold duplicateRound
  refine .ite (.bind (asksForNext_leaves _) fun generated => .ite ?_ ?_)
    (.bind (.modify _) fun _ => .pure _)
  · exact .bind (sleep_only trivial) fun _ => .pure _
  · refine .bind waitsForPr_only fun waits => .ite (.pure _) ?_
    exact .bind (writeHeartbeat_only (fun _ => Routine.leavesLedger) _ _ _) fun _ =>
      .bind (sleep_only trivial) fun _ => .pure _

end

end Ao2
