import Ao2.Interaction.Machine

/-!
# Updates of an installation

A directory has a binary and what is known of its verification, and the same once more to roll back to.
The four files are replaced and removed one after the other, each at once.

An evidence file is about the bytes of a binary. Which these are stands beside it here; the programs do
not read it.

The evidence of what is installed is removed before the binary is replaced, and written after it. With
the files to roll back to it is otherwise: the binary is replaced first, so that the evidence that is
still there is about another one, until it is replaced or removed too.

An update that is stopped once its binary is in place has lost what was installed before, when it is
done again.

## Main results

* `not_described_stale` — two updates, the second stopped in between
* `holds_afterCalls` — a whole binary is installed, wherever the calls stop
-/

namespace Ao2

namespace Install

open Interaction

abbrev Bytes := List UInt8

inductive InstallFile where
  | installed | evidence | rollback | rollbackEvidence
  deriving DecidableEq

/-- What a file has, and the bytes of the binary that this is about. -/
structure Content where
  bytes : Bytes
  about : Bytes

/-- An archive that was verified: its binary, and the evidence for it, which says whether there is
something to roll back to. -/
structure VerifiedArchive where
  binary : Bytes
  evidence : Bool → Bytes

def VerifiedArchive.content (a : VerifiedArchive) : Content := ⟨a.binary, a.binary⟩

/-! ### Programs -/

inductive InstallOp where
  | exists (file : InstallFile)
  | isFile (file : InstallFile)
  | read (file : InstallFile)
  | replace (file : InstallFile) (content : Content)
  | remove (file : InstallFile)

@[reducible] def InstallOp.Ans : InstallOp → Type
  | «exists» _ | isFile _ => Bool
  | read _ => Option Content
  | replace .. | remove _ => Unit

@[reducible] def InstallSignature : Signature := ⟨InstallOp, InstallOp.Ans⟩

abbrev InstallProg (α : Type) := Prog InstallSignature String α

def performInstall (o : InstallOp) : InstallProg o.Ans := Prog.perform (S := InstallSignature) o

def atomicCopyFile (source destination : InstallFile) : InstallProg Unit := do
  match ← performInstall (.read source) with
  | some content => performInstall (.replace destination content)
  | none => .fail "No such file or directory (os error 2)"

def removeFileIfExists (file : InstallFile) : InstallProg Unit := performInstall (.remove file)

/-- What is installed is kept to roll back to, with its evidence. -/
def backUp : InstallProg Bool := do
  if ← performInstall (.exists .installed) then
    atomicCopyFile .installed .rollback
    if ← performInstall (.isFile .evidence) then atomicCopyFile .evidence .rollbackEvidence
    else removeFileIfExists .rollbackEvidence
    pure true
  else
    removeFileIfExists .rollback
    removeFileIfExists .rollbackEvidence
    pure false

/-- `install_update_result`, once the archive is verified. -/
def updateInstall (a : VerifiedArchive) : InstallProg Unit := do
  let rollbackCreated ← backUp
  removeFileIfExists .evidence
  performInstall (.replace .installed a.content)
  performInstall (.replace .evidence ⟨a.evidence rollbackCreated, a.binary⟩)

def rollbackInstall : InstallProg Unit := do
  if ← performInstall (.isFile .rollback) then
    removeFileIfExists .evidence
    atomicCopyFile .rollback .installed
    if ← performInstall (.isFile .rollbackEvidence) then atomicCopyFile .rollbackEvidence .evidence
    else pure ()
  else .fail "rollback binary not found"

/-! ### Directories -/

abbrev InstallDir := InstallFile → Option Content

def InstallDir.set (s : InstallDir) (file : InstallFile) (content : Option Content) : InstallDir :=
  fun f => if f = file then content else s f

def installStep (s : InstallDir) : (o : InstallOp) → o.Ans × InstallDir
  | .exists file => ((s file).isSome, s)
  | .isFile file => ((s file).isSome, s)
  | .read file => (s file, s)
  | .replace file content => ((), s.set file (some content))
  | .remove file => ((), s.set file none)

def installMachine : Machine InstallSignature InstallDir where
  step o s := installStep s o

@[simp] theorem InstallDir.set_self (s : InstallDir) (file : InstallFile) (content : Option Content) :
    s.set file content file = content := if_pos rfl

theorem InstallDir.set_of_ne (s : InstallDir) {file f : InstallFile} (content : Option Content)
    (h : f ≠ file) : s.set file content f = s f := if_neg h

end Install

end Ao2

/-! ## Evidence and its binary -/

namespace Ao2

namespace Install

open Interaction

/-- **Evidence is about the binary beside it.** -/
structure Paired (s : InstallDir) : Prop where
  evidence : ∀ e, s .evidence = some e → ∃ c, s .installed = some c ∧ c.bytes = e.about
  rollbackEvidence : ∀ e, s .rollbackEvidence = some e → ∃ c, s .rollback = some c ∧ c.bytes = e.about

/-- The evidence to roll back to is about what is installed. -/
def Fits (s : InstallDir) : Prop :=
  ∀ e, s .rollbackEvidence = some e → ∃ c, s .installed = some c ∧ c.bytes = e.about

/-- The evidence to roll back to has yet to follow its binary. -/
def Pending : InstallOp → Prop
  | .isFile file | .read file => file = .evidence
  | .remove file | .replace file _ => file = .rollbackEvidence
  | .exists _ => False

/-- The binary is in place. -/
def Late : InstallOp → Bool
  | .replace file _ => file = .evidence
  | _ => false

/-! ### One call -/

section

variable {C : InstallOp → InstallDir → Prop} {E : String → InstallDir → Prop} {w : InstallDir}

theorem wp_performInstall {o : InstallOp} {Q : o.Ans → InstallDir → Prop} (hC : C o w)
    (hQ : Q (installStep w o).1 (installStep w o).2) :
    installMachine.wp C (performInstall o) Q E w := ⟨hC, hQ⟩

theorem wp_atomicCopyFile {source destination : InstallFile} {content : Content}
    {Q : Unit → InstallDir → Prop} (hsource : w source = some content) (hread : C (.read source) w)
    (hreplace : C (.replace destination content) w) (hQ : Q () (w.set destination content)) :
    installMachine.wp C (atomicCopyFile source destination) Q E w := by
  refine Machine.wp_bind.mpr (wp_performInstall hread ?_)
  dsimp only [installStep]
  rw [hsource]
  exact wp_performInstall hreplace hQ

/-- Whether a file is there decides what is done. -/
theorem wp_ite_isFile {α : Type} {file : InstallFile} {p q : InstallProg α}
    {Q : α → InstallDir → Prop} (hC : C (.isFile file) w)
    (hsome : ∀ content, w file = some content → installMachine.wp C p Q E w)
    (hnone : w file = none → installMachine.wp C q Q E w) :
    installMachine.wp C ((performInstall (.isFile file)).bind fun b => if b then p else q) Q E w := by
  refine Machine.wp_bind.mpr (wp_performInstall hC ?_)
  cases hfile : (installStep w (.isFile file)).1 with
  | true =>
    obtain ⟨content, hcontent⟩ := Option.isSome_iff_exists.mp hfile
    exact hsome content hcontent
  | false => exact hnone (Option.isSome_eq_false_iff.mp hfile |> Option.isNone_iff_eq_none.mp)

end

/-- How far the files to roll back to have come. -/
structure BackedUp (s w : InstallDir) (pending : Prop) : Prop where
  installed : w .installed = s .installed
  evidence : w .evidence = s .evidence
  before : ¬ pending → w = s
  rollback : pending → w .rollback = s .installed
  rollbackEvidence : w .rollbackEvidence = s .rollbackEvidence

theorem backUp_spec (s : InstallDir) (E : String → InstallDir → Prop) :
    installMachine.wp (fun o w => Late o = false ∧ BackedUp s w (Pending o)) backUp
      (fun _ w => w .installed = s .installed ∧ w .evidence = s .evidence ∧
        w .rollback = s .installed ∧ (Paired s → w .rollbackEvidence = s .evidence)) E s := by
  have hbefore {o : InstallOp} (hlate : Late o = false) (ho : ¬ Pending o) :
      Late o = false ∧ BackedUp s s (Pending o) :=
    ⟨hlate, rfl, rfl, fun _ => rfl, fun h => absurd h ho, rfl⟩
  -- once the binary to roll back to is replaced or removed
  have hpending {o : InstallOp} (hlate : Late o = false) (ho : Pending o) :
      Late o = false ∧ BackedUp s (s.set .rollback (s .installed)) (Pending o) :=
    ⟨hlate, s.set_of_ne _ nofun, s.set_of_ne _ nofun, fun hno => absurd ho hno,
      fun _ => s.set_self .., s.set_of_ne _ nofun⟩
  have hlast (content : Option Content) (hcontent : Paired s → content = s .evidence) :
      let w := (s.set .rollback (s .installed)).set .rollbackEvidence content
      w .installed = s .installed ∧ w .evidence = s .evidence ∧ w .rollback = s .installed ∧
        (Paired s → w .rollbackEvidence = s .evidence) := ⟨rfl, rfl, rfl, hcontent⟩
  refine Machine.wp_bind.mpr (wp_performInstall (hbefore rfl nofun) ?_)
  dsimp only [installStep]
  cases hi : s .installed with
  | some c =>
    rw [hi] at hpending hlast
    refine Machine.wp_bind.mpr (wp_atomicCopyFile hi (hbefore rfl nofun) (hbefore rfl nofun) ?_)
    have hsame : (s.set .rollback (some c)) .evidence = s .evidence := s.set_of_ne _ nofun
    refine wp_ite_isFile (hpending rfl rfl) (fun e he => ?_) fun he => ?_
    · refine Machine.wp_bind.mpr (wp_atomicCopyFile he (hpending rfl rfl) (hpending rfl rfl) ?_)
      exact hlast (some e) fun _ => he.symm.trans hsame
    · refine Machine.wp_bind.mpr (wp_performInstall (hpending rfl rfl) ?_)
      exact hlast none fun _ => he.symm.trans hsame
  | none =>
    have he (hs : Paired s) : s .evidence = none := by
      by_contra hne
      obtain ⟨e, he⟩ := Option.ne_none_iff_exists'.mp hne
      obtain ⟨c, hc, -⟩ := hs.evidence e he
      rw [hi] at hc
      cases hc
    rw [hi] at hpending hlast
    refine Machine.wp_bind.mpr (wp_performInstall (hbefore rfl nofun) ?_)
    refine Machine.wp_bind.mpr (wp_performInstall (hpending rfl rfl) ?_)
    exact hlast none fun hs => (he hs).symm

/-- **An update**: pairs are broken only while the evidence to roll back to has yet to follow. -/
theorem updateInstall_spec (a : VerifiedArchive) (s : InstallDir) :
    installMachine.wp
      (fun o w => (Paired s → (Paired w ↔ (Pending o → Fits s))) ∧
        w .installed = if Late o then some a.content else s .installed)
      (updateInstall a)
      (fun _ w => (Paired s → Paired w) ∧ w .installed = some a.content ∧ w .rollback = s .installed)
      (fun _ _ => False) s := by
  refine Machine.wp_bind.mpr (Machine.wp_mono (backUp_spec s _) ?_ ?_ fun _ _ h => h)
  · rintro o w ⟨hlate, hbacked⟩
    refine ⟨fun hs => ?_, by rw [hlate]; exact hbacked.installed⟩
    by_cases hpending : Pending o
    · have hfits : Paired w ↔ Fits s := by
        refine ⟨fun hw e he => ?_, fun hfits => ⟨fun e he => ?_, fun e he => ?_⟩⟩
        · rw [← hbacked.rollback hpending]
          exact hw.rollbackEvidence e (hbacked.rollbackEvidence.trans he)
        · rw [hbacked.installed]
          exact hs.evidence e (hbacked.evidence ▸ he)
        · rw [hbacked.rollback hpending]
          exact hfits e (hbacked.rollbackEvidence ▸ he)
      rw [hfits]
      exact ⟨fun h _ => h, fun h => h hpending⟩
    · rw [hbacked.before hpending]
      exact iff_of_true hs fun h => absurd h hpending
  · rintro created w ⟨hinstalled, hevidence, hrollback, hrollbackEvidence⟩
    have hrolled (hs : Paired s) : ∀ w' : InstallDir, w' .rollback = w .rollback →
        w' .rollbackEvidence = w .rollbackEvidence → ∀ e, w' .rollbackEvidence = some e →
          ∃ c, w' .rollback = some c ∧ c.bytes = e.about := by
      intro w' hsame hsame' e he
      rw [hsame, hrollback]
      exact hs.evidence e (hrollbackEvidence hs ▸ hsame' ▸ he)
    refine Machine.wp_bind.mpr (wp_performInstall ⟨fun hs => iff_of_true ⟨fun e he => ?_, ?_⟩ nofun,
      hinstalled⟩ ?_)
    · rw [hinstalled]
      exact hs.evidence e (hevidence ▸ he)
    · exact hrolled hs w rfl rfl
    refine Machine.wp_bind.mpr (wp_performInstall ⟨fun hs => iff_of_true ⟨nofun, ?_⟩ nofun,
      hinstalled⟩ ?_)
    · exact hrolled hs _ rfl rfl
    refine wp_performInstall ⟨fun hs => iff_of_true ⟨nofun, ?_⟩ nofun, rfl⟩
      ⟨fun hs => ⟨fun e he => ?_, ?_⟩, rfl, hrollback⟩
    · exact hrolled hs _ rfl rfl
    · cases he
      exact ⟨a.content, rfl, rfl⟩
    · exact hrolled hs _ rfl rfl

/-- **Rolling back** keeps the pairs. -/
theorem rollbackInstall_spec (s : InstallDir) :
    installMachine.wp (fun o w => (Paired s → Paired w) ∧ ¬ Pending o) rollbackInstall
      (fun _ w => (Paired s → Paired w) ∧ w .installed = s .rollback)
      (fun _ w => (Paired s → Paired w) ∧ s .rollback = none) s := by
  refine wp_ite_isFile ⟨id, nofun⟩ (fun c hc => ?_) fun hnone => ⟨id, hnone⟩
  refine Machine.wp_bind.mpr (wp_performInstall ⟨id, nofun⟩ ?_)
  have hremoved (hs : Paired s) : Paired (s.set .evidence none) := ⟨nofun, hs.rollbackEvidence⟩
  have hcopied (hs : Paired s) : Paired ((s.set .evidence none).set .installed (some c)) :=
    ⟨nofun, hs.rollbackEvidence⟩
  have hrollback : (s.set .evidence none) .rollback = some c := hc
  refine Machine.wp_bind.mpr (wp_atomicCopyFile hrollback ⟨hremoved, nofun⟩ ⟨hremoved, nofun⟩ ?_)
  refine wp_ite_isFile ⟨hcopied, nofun⟩ (fun e he => ?_) fun _ => ⟨hcopied, hc.symm⟩
  refine wp_atomicCopyFile he ⟨hcopied, nofun⟩ ⟨hcopied, nofun⟩ ⟨fun hs => ⟨fun e' he' => ?_, ?_⟩, hc.symm⟩
  · cases he'
    obtain ⟨c', hc', hbytes⟩ := hs.rollbackEvidence e he
    exact ⟨c, rfl, Option.some.inj (hc.symm.trans hc') ▸ hbytes⟩
  · exact hs.rollbackEvidence

/-! ### Calls -/

inductive InstallCall where
  | update (a : VerifiedArchive)
  | rollback

def InstallCall.prog : InstallCall → InstallProg Unit
  | update a => updateInstall a
  | rollback => rollbackInstall

/-- What a call leaves that comes to its end, or that fails or is stopped after some operations. -/
def afterCall (s : InstallDir) : InstallCall × Option ℕ → InstallDir
  | (call, some n) => installMachine.runFor n call.prog s
  | (call, none) => (installMachine.run call.prog s).2

def afterCalls (s : InstallDir) (calls : List (InstallCall × Option ℕ)) : InstallDir :=
  calls.foldl afterCall s

/-- The call is not stopped while the evidence to roll back to has yet to follow, or that is about
what is installed. -/
def Careful (s : InstallDir) : InstallCall × Option ℕ → Prop
  | (call, some n) => ∀ o, installMachine.nextOp n call.prog s = some o → Pending o → Fits s
  | (_, none) => True

/-- No attempt has come so far that the binary is in place. -/
def StopsEarly (a : VerifiedArchive) : InstallDir → List ℕ → Prop
  | _, [] => True
  | s, n :: stops => (∃ o, installMachine.nextOp n (updateInstall a) s = some o ∧ Late o = false) ∧
      StopsEarly a (installMachine.runFor n (updateInstall a) s) stops

/-- An update that is stopped some times, done again, and rolled back, in the course of some calls. -/
structure Retried (calls before after : List (InstallCall × Option ℕ)) (a : VerifiedArchive)
    (stops : List ℕ) : Prop where
  calls_eq : calls = before ++ (stops.map fun n => (.update a, some n)) ++
    (.update a, none) :: (.rollback, none) :: after
  stops_ne : stops ≠ []

/-- What is there after the update of `Retried` is rolled back. -/
def restored (s : InstallDir) (before : List (InstallCall × Option ℕ)) (a : VerifiedArchive)
    (stops : List ℕ) : Option Content :=
  afterCalls s (before ++ (stops.map fun n => (.update a, some n)) ++
    [(.update a, none), (.rollback, none)]) .installed

/-- **Evidence describes its binary**, and an update that is done again can be undone. -/
structure Described (s : InstallDir) (calls : List (InstallCall × Option ℕ)) : Prop where
  paired : ∀ k, Paired (afterCalls s (calls.take k))
  undone : ∀ before after a stops c, Retried calls before after a stops →
    afterCalls s before .installed = some c → (restored s before a stops).map Content.bytes = some c.bytes

/-- **No call is stopped at the wrong time.** -/
structure Undisturbed (s : InstallDir) (calls : List (InstallCall × Option ℕ)) : Prop where
  careful : ∀ k call, calls[k]? = some call → Careful (afterCalls s (calls.take k)) call
  early : ∀ before after a stops c, Retried calls before after a stops →
    afterCalls s before .installed = some c →
      StopsEarly a (afterCalls s before) stops ∨ a.binary = c.bytes

/-! ### Runs of calls -/

theorem run_update (a : VerifiedArchive) (s : InstallDir) :
    (Paired s → Paired (installMachine.run (updateInstall a) s).2) ∧
      (installMachine.run (updateInstall a) s).2 .installed = some a.content ∧
      (installMachine.run (updateInstall a) s).2 .rollback = s .installed := by
  rcases (updateInstall_spec a s).run_world with ⟨_, h⟩ | ⟨_, h⟩
  · exact h
  · exact h.elim

theorem run_rollback (s : InstallDir) :
    (Paired s → Paired (installMachine.run rollbackInstall s).2) ∧
      ((installMachine.run rollbackInstall s).2 .installed = s .rollback ∨ s .rollback = none) := by
  rcases (rollbackInstall_spec s).run_world with ⟨_, h⟩ | ⟨_, h⟩
  · exact ⟨h.1, .inl h.2⟩
  · exact ⟨h.1, .inr h.2⟩

theorem paired_afterCall {s : InstallDir} (hs : Paired s) (call : InstallCall × Option ℕ) :
    Paired (afterCall s call) ↔ Careful s call := by
  have hend (call : InstallCall) : Paired (installMachine.run call.prog s).2 := by
    cases call with
    | update a => exact (run_update a s).1 hs
    | rollback => exact (run_rollback s).1 hs
  obtain ⟨call, _ | n⟩ := call
  · exact iff_of_true (hend call) trivial
  rw [afterCall, Careful]
  cases hnext : installMachine.nextOp n call.prog s with
  | none =>
    rw [Machine.runFor_eq_run_of_nextOp _ hnext]
    exact iff_of_true (hend call) nofun
  | some o =>
    cases call with
    | update a =>
      refine (((updateInstall_spec a s).runFor hnext).1 hs).trans ⟨fun h o' ho' => ?_, fun h => h o rfl⟩
      obtain rfl := Option.some.inj ho'
      exact h
    | rollback =>
      obtain ⟨hpaired, hpending⟩ := (rollbackInstall_spec s).runFor hnext
      refine iff_of_true (hpaired hs) fun o' ho' h => ?_
      obtain rfl := Option.some.inj ho'
      exact absurd h hpending

/-- Evidence stays with its binary as long as the calls are careful, by induction on the calls. -/
theorem paired_iff_careful {s : InstallDir} (hs : Paired s) (calls : List (InstallCall × Option ℕ)) :
    (∀ k, Paired (afterCalls s (calls.take k))) ↔
      ∀ k call, calls[k]? = some call → Careful (afterCalls s (calls.take k)) call := by
  have hnext {k : ℕ} {call : InstallCall × Option ℕ} (hcall : calls[k]? = some call) :
      afterCalls s (calls.take (k + 1)) = afterCall (afterCalls s (calls.take k)) call := by
    rw [List.take_add_one, hcall, Option.toList_some, afterCalls, List.foldl_append]
    rfl
  constructor
  · intro h k call hcall
    have hk := h (k + 1)
    rw [hnext hcall] at hk
    exact (paired_afterCall (h k) call).mp hk
  · intro h k
    induction k with
    | zero => exact hs
    | succ k ih =>
      cases hcall : calls[k]? with
      | some call =>
        rw [hnext hcall]
        exact (paired_afterCall ih call).mpr (h k call hcall)
      | none =>
        rw [List.take_add_one, hcall, Option.toList_none, List.append_nil]
        exact ih

/-! ### Attempts -/

/-- What is installed after some attempts, by induction on them: what was there, as long as they stop
early, and else the binary of the archive. -/
theorem installed_afterAttempts (a : VerifiedArchive) (stops : List ℕ) {s : InstallDir} {c : Content}
    (hs : s .installed = some c) :
    (StopsEarly a s stops →
      afterCalls s (stops.map fun n => (.update a, some n)) .installed = some c) ∧
    (¬ StopsEarly a s stops ∨ c = a.content →
      afterCalls s (stops.map fun n => (.update a, some n)) .installed = some a.content) := by
  induction stops generalizing s c with
  | nil => exact ⟨fun _ => hs, fun h => h.elim (fun hno => absurd trivial hno) fun heq => heq ▸ hs⟩
  | cons n stops ih =>
    change (StopsEarly a s (n :: stops) → afterCalls (installMachine.runFor n (updateInstall a) s)
      (stops.map fun n => (.update a, some n)) .installed = some c) ∧ (_ → afterCalls
        (installMachine.runFor n (updateInstall a) s) (stops.map fun n => (.update a, some n))
          .installed = some a.content)
    have hlate (hinstalled : installMachine.runFor n (updateInstall a) s .installed = some a.content) :=
      (ih hinstalled).2 (.inr rfl)
    rw [StopsEarly]
    cases hnext : installMachine.nextOp n (updateInstall a) s with
    | none =>
      refine ⟨fun h => absurd h.1 nofun, fun _ => hlate ?_⟩
      rw [Machine.runFor_eq_run_of_nextOp _ hnext]
      exact (run_update a s).2.1
    | some o =>
      have hinstalled := ((updateInstall_spec a s).runFor hnext).2
      cases ho : Late o with
      | true =>
        rw [ho] at hinstalled
        refine ⟨fun h => ?_, fun _ => hlate hinstalled⟩
        obtain ⟨⟨o', ho', hearly⟩, -⟩ := h
        obtain rfl := Option.some.inj ho'
        rw [ho] at hearly
        cases hearly
      | false =>
        rw [ho] at hinstalled
        obtain ⟨hearly, hnot⟩ := ih (hinstalled.trans hs)
        refine ⟨fun h => hearly h.2, fun h => hnot (h.imp_left fun hno hstops => ?_)⟩
        exact hno ⟨⟨o, rfl, ho⟩, hstops⟩

/-- An update that is done again can be undone if and only if no attempt came too far. -/
theorem restored_iff {s : InstallDir} {before : List (InstallCall × Option ℕ)} {a : VerifiedArchive}
    {stops : List ℕ} {c : Content} (hc : afterCalls s before .installed = some c) :
    (restored s before a stops).map Content.bytes = some c.bytes ↔
      StopsEarly a (afterCalls s before) stops ∨ a.binary = c.bytes := by
  obtain ⟨hearly, hlate⟩ := installed_afterAttempts a stops hc
  have hrestored : restored s before a stops = afterCalls (afterCalls s before)
      (stops.map fun n => (.update a, some n)) .installed := by
    have hsome : ∃ d, afterCalls (afterCalls s before) (stops.map fun n => (.update a, some n))
        .installed = some d := by
      by_cases h : StopsEarly a (afterCalls s before) stops
      · exact ⟨c, hearly h⟩
      · exact ⟨a.content, hlate (.inl h)⟩
    obtain ⟨d, hd⟩ := hsome
    rw [restored, afterCalls, List.foldl_append, List.foldl_append, ← afterCalls, ← afterCalls]
    obtain ⟨-, -, hrollback⟩ := run_update a (afterCalls (afterCalls s before)
      (stops.map fun n => (.update a, some n)))
    rcases (run_rollback (installMachine.run (updateInstall a) (afterCalls (afterCalls s before)
      (stops.map fun n => (.update a, some n)))).2).2 with h | h
    · exact h.trans hrollback
    · rw [hrollback, hd] at h
      cases h
  rw [hrestored]
  by_cases h : StopsEarly a (afterCalls s before) stops
  · exact iff_of_true (by rw [hearly h]; rfl) (.inl h)
  · rw [hlate (.inl h)]
    exact ⟨fun heq => .inr (Option.some.inj heq), fun heq => congrArg some (heq.resolve_left h)⟩

/-- **Evidence describes its binary if and only if no call is stopped at the wrong time.** -/
theorem described_iff (s : InstallDir) (hs : Paired s) (calls : List (InstallCall × Option ℕ)) :
    Described s calls ↔ Undisturbed s calls := by
  constructor
  · intro h
    exact ⟨(paired_iff_careful hs calls).mp h.paired, fun before after a stops c hretried hc =>
      (restored_iff hc).mp (h.undone before after a stops c hretried hc)⟩
  · intro h
    exact ⟨(paired_iff_careful hs calls).mpr h.careful, fun before after a stops c hretried hc =>
      (restored_iff hc).mpr (h.early before after a stops c hretried hc)⟩

/-! ### A third update that is stopped -/

def emptyDir : InstallDir := fun _ => none

theorem paired_emptyDir : Paired emptyDir := ⟨nofun, nofun⟩

def staleCalls : List (InstallCall × Option ℕ) :=
  [(.update ⟨[1], fun _ => []⟩, none), (.update ⟨[2], fun _ => []⟩, none),
    (.update ⟨[3], fun _ => []⟩, some 3)]

theorem described_iff_stale : Described emptyDir staleCalls ↔ Undisturbed emptyDir staleCalls :=
  described_iff emptyDir paired_emptyDir staleCalls

/-- The second binary stands beside the evidence of the first. -/
theorem not_described_stale : ¬ Described emptyDir staleCalls := by
  intro h
  have hevidence : afterCalls emptyDir (staleCalls.take 3) .rollbackEvidence = some ⟨[], [1]⟩ := rfl
  obtain ⟨c, hc, hbytes⟩ := (h.paired 3).rollbackEvidence _ hevidence
  have hrollback : afterCalls emptyDir (staleCalls.take 3) .rollback = some ⟨[2], [2]⟩ := rfl
  obtain rfl := Option.some.inj (hrollback.symm.trans hc)
  exact absurd hbytes (by decide)

/-! ### What is installed -/

/-- A binary is installed, and it and the one to roll back to are among some binaries. -/
structure Holds (K : Bytes → Prop) (s : InstallDir) : Prop where
  installed : ∃ c, s .installed = some c ∧ K c.bytes
  rollback : ∀ c, s .rollback = some c → K c.bytes

section

variable {K : Bytes → Prop} {s : InstallDir}

theorem Holds.set {file : InstallFile} {content : Option Content} (hs : Holds K s)
    (h : file = .evidence ∨ file = .rollbackEvidence) : Holds K (s.set file content) := by
  rcases h with rfl | rfl
  · exact ⟨hs.installed, hs.rollback⟩
  · exact ⟨hs.installed, hs.rollback⟩

theorem Holds.setInstalled {c : Content} (hs : Holds K s) (hc : K c.bytes) :
    Holds K (s.set .installed (some c)) := ⟨⟨c, rfl, hc⟩, hs.rollback⟩

theorem backUp_holds (hs : Holds K s) : installMachine.wp (fun _ w => Holds K w) backUp
    (fun _ w => Holds K w) (fun _ w => Holds K w) s := by
  obtain ⟨c, hc, hK⟩ := hs.installed
  have hrollback : Holds K (s.set .rollback (some c)) :=
    ⟨⟨c, hc, hK⟩, fun c' h => Option.some.inj h ▸ hK⟩
  refine Machine.wp_bind.mpr (wp_performInstall hs ?_)
  dsimp only [installStep]
  rw [hc]
  refine Machine.wp_bind.mpr (wp_atomicCopyFile hc hs hs ?_)
  refine wp_ite_isFile hrollback (fun e he => ?_) fun _ => ?_
  · exact Machine.wp_bind.mpr (wp_atomicCopyFile he hrollback hrollback (hrollback.set (.inr rfl)))
  · exact Machine.wp_bind.mpr (wp_performInstall hrollback (hrollback.set (.inr rfl)))

theorem updateInstall_holds {a : VerifiedArchive} (ha : K a.binary) (hs : Holds K s) :
    installMachine.wp (fun _ w => Holds K w) (updateInstall a)
      (fun _ w => Holds K w) (fun _ w => Holds K w) s := by
  refine Machine.wp_bind.mpr ((backUp_holds hs).post fun _ w hw => ?_)
  refine Machine.wp_bind.mpr (wp_performInstall hw ?_)
  have hw : Holds K (w.set .evidence none) := hw.set (.inl rfl)
  refine Machine.wp_bind.mpr (wp_performInstall hw ?_)
  have hw := hw.setInstalled (c := a.content) ha
  exact wp_performInstall hw (hw.set (.inl rfl))

theorem rollbackInstall_holds (hs : Holds K s) :
    installMachine.wp (fun _ w => Holds K w) rollbackInstall
      (fun _ w => Holds K w) (fun _ w => Holds K w) s := by
  refine wp_ite_isFile hs (fun c hc => ?_) fun _ => hs
  refine Machine.wp_bind.mpr (wp_performInstall hs ?_)
  have hremoved : Holds K (s.set .evidence none) := hs.set (.inl rfl)
  have hrollback : (s.set .evidence none) .rollback = some c := hc
  refine Machine.wp_bind.mpr (wp_atomicCopyFile hrollback hremoved hremoved ?_)
  have hcopied := hremoved.setInstalled (hs.rollback c hc)
  refine wp_ite_isFile hcopied (fun e he => ?_) fun _ => hcopied
  exact wp_atomicCopyFile he hcopied hcopied (hcopied.set (.inl rfl))

theorem holds_afterCall (hs : Holds K s) {call : InstallCall × Option ℕ}
    (hcall : ∀ a, call.1 = .update a → K a.binary) : Holds K (afterCall s call) := by
  obtain ⟨call, stop⟩ := call
  have hprog : installMachine.wp (fun _ w => Holds K w) call.prog (fun _ w => Holds K w)
      (fun _ w => Holds K w) s := by
    cases call with
    | update a => exact updateInstall_holds (hcall a rfl) hs
    | rollback => exact rollbackInstall_holds hs
  have hend : Holds K (installMachine.run call.prog s).2 := by
    rcases hprog.run_world with ⟨_, h⟩ | ⟨_, h⟩
    · exact h
    · exact h
  cases stop with
  | none => exact hend
  | some n =>
    rw [afterCall]
    cases hnext : installMachine.nextOp n call.prog s with
    | none =>
      rw [Machine.runFor_eq_run_of_nextOp _ hnext]
      exact hend
    | some o => exact hprog.runFor hnext

/-- **A whole binary is always installed.** Whatever updates and rollbacks there are, and wherever each of
them stops, a binary is installed that was there before or in one of the archives, and so is the one to
roll back to. -/
theorem holds_afterCalls {calls : List (InstallCall × Option ℕ)} (hs : Holds K s)
    (hcalls : ∀ a stop, (.update a, stop) ∈ calls → K a.binary) : Holds K (afterCalls s calls) := by
  induction calls generalizing s with
  | nil => exact hs
  | cons call calls ih =>
    refine ih (holds_afterCall hs fun a ha => ?_) fun a stop hmem => ?_
    · obtain ⟨_, stop⟩ := call
      cases ha
      exact hcalls a stop List.mem_cons_self
    · exact hcalls a stop (List.mem_cons_of_mem _ hmem)

end

theorem holds_stale : Holds (· ∈ [[0], [1], [2], [3]])
    (afterCalls (emptyDir.set .installed (some ⟨[0], [0]⟩)) staleCalls) := by
  refine holds_afterCalls ⟨⟨_, rfl, by decide⟩, fun c h => (by cases h)⟩ fun a stop h => ?_
  simp only [staleCalls, List.mem_cons, List.not_mem_nil, or_false] at h
  rcases h with h | h | h <;> cases h <;> decide

end Install

end Ao2
