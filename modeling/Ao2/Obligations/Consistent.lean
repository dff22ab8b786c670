import Ao2.Obligations.Linked

/-!
# Ledgers that add up

Whatever is done to a ledger, its counts are those of its obligations. A check finds the same when it is
made again: what it clears of an obligation it finds again, and what it does not find it does not count
on.
-/

namespace Ao2

namespace Obligations

namespace Linked

open Files

/-! ### The check -/

/-- The text of a file of a target. -/
def Target.readFile (t : Target) (p : Place) : Option String :=
  match t.status p with
  | some (.file content) => content.text?
  | _ => none

/-- The text of a file with the text of a path in the target. -/
def Target.readToString (t : Target) (path : String) : Option String :=
  if path = "" ∨ '\x00' ∈ path.toList then none else t.readFile (linkNames path)

/-- The files to search, with their texts; a file that is no text is left out. -/
def searchableFileSnapshots (t : Target) (sourcePaths : List String) : Except Unit (List (Place × String)) := do
  let walk ← searchableFiles t sourcePaths
  .ok (walk.files.filterMap fun p => (t.readFile p).map (p, ·))

def obligationEvidencePointsToExistingLine (t : Target) (evidence : ObligationEvidence) : Bool :=
  evidence.line ≠ 0 && evidence.path.toList.head? ≠ some '/' && ".." ∉ pathParts evidence.path &&
    match t.readToString evidence.path with
    | some text => (lines text.toList)[evidence.line - 1]?.isSome
    | none => false

/-- An obligation is checked; `points` says which evidence is on a line that is there. -/
def checkObligationWith (points : ObligationEvidence → Bool) (files : List (Place × String))
    (o : Obligation) : Obligation :=
  if o.waiver.isSome then { o with status := .waived }
  else if o.expectedFragments = [] then
    { o with
      status :=
        if o.evidence = [] then .unverified
        else if o.evidence.all points then .pass
        else .fail }
  else
    let evidence := o.expectedFragments.filterMap (findFragment files)
    if evidence.length = o.expectedFragments.length then
      { o with status := .pass, evidence := evidence }
    else { o with status := .fail, evidence := [] }

def checkObligationLedger (ledger : ObligationLedger) (t : Target) : Except Unit ObligationLedger := do
  let files ← searchableFileSnapshots t (sourcePathsOf ledger)
  .ok (refreshSummaryAndVerdict
    { ledger with
      obligations := ledger.obligations.map
        (checkObligationWith (obligationEvidencePointsToExistingLine t) files) })

/-! ### Moves -/

/-- What is done to a ledger. -/
inductive LedgerMove where
  | annotate (obligationId : String) (evidence : Option ObligationEvidence) (waiver : Option String)
  | check (t : Target)

/-- A move, which may fail. -/
def LedgerMove.apply (ledger : ObligationLedger) : LedgerMove → Option ObligationLedger
  | .annotate obligationId evidence waiver =>
    (annotateObligationLedger ledger obligationId evidence waiver).toOption
  | .check t => (checkObligationLedger ledger t).toOption

/-- The ledger of the caller after a move. -/
def LedgerMove.next (ledger : ObligationLedger) (m : LedgerMove) : ObligationLedger :=
  (m.apply ledger).getD ledger

/-- The ledger after some moves. -/
def ledgerAfter [Platform] (sourcePath content : String) (moves : List LedgerMove) : ObligationLedger :=
  moves.foldl LedgerMove.next (extractObligationLedger sourcePath content)

/-! ### Ledgers that add up -/

/-- So many obligations have a status. -/
def countOf (ledger : ObligationLedger) (status : ObligationStatus) : ℕ :=
  ledger.obligations.countP (·.status = status)

/-- **A ledger adds up.** -/
structure Consistent (ledger : ObligationLedger) : Prop where
  summary : ledger.summary =
    ⟨countOf ledger .pass, countOf ledger .fail, countOf ledger .unverified, countOf ledger .waived⟩
  total : ledger.summary.pass + ledger.summary.fail + ledger.summary.unverified + ledger.summary.waived =
    ledger.obligations.length
  verdict : ledger.verdict = .accepted ↔
    ∀ o ∈ ledger.obligations, o.status ≠ .fail ∧ o.status ≠ .unverified
  ids : (ledger.obligations.map (·.id)).Nodup
  order : ledger.obligations.map (·.id) =
    (List.range' 1 ledger.obligations.length).map obligationId
  lines : ledger.obligations.Pairwise fun o o' => o.sourceLine < o'.sourceLine
  waived : ∀ o ∈ ledger.obligations, o.status = .waived ↔ o.waiver.isSome = true

/-- What is waived in a ledger is waived in a later one. -/
def StaysWaived (ledger later : ObligationLedger) : Prop :=
  List.Forall₂ (fun o o' : Obligation => o.id = o'.id ∧ (o.status = .waived → o'.status = .waived))
    ledger.obligations later.obligations

theorem StaysWaived.trans {ledger ledger' ledger'' : ObligationLedger} (h : StaysWaived ledger ledger')
    (h' : StaysWaived ledger' ledger'') : StaysWaived ledger ledger'' := by
  obtain ⟨hlength, hget⟩ := List.forall₂_iff_get.mp h
  obtain ⟨hlength', hget'⟩ := List.forall₂_iff_get.mp h'
  refine List.forall₂_iff_get.mpr ⟨hlength.trans hlength', fun i hi hi'' => ?_⟩
  obtain ⟨hid, hstays⟩ := hget i hi (hlength ▸ hi)
  obtain ⟨hid', hstays'⟩ := hget' i (hlength ▸ hi) hi''
  exact ⟨hid.trans hid', fun hw => hstays' (hstays hw)⟩

/-! ### Counts -/

theorem sum_counts (obligations : List Obligation) :
    obligations.countP (·.status = .pass) + obligations.countP (·.status = .fail) +
      obligations.countP (·.status = .unverified) + obligations.countP (·.status = .waived) =
        obligations.length := by
  induction obligations with
  | nil => rfl
  | cons o obligations ih =>
    simp only [List.countP_cons, List.length_cons]
    cases o.status <;> simp <;> omega

/-- What is kept of an obligation, and what its waiver says. -/
structure Kept (o o' : Obligation) : Prop where
  id : o'.id = o.id
  line : o'.sourceLine = o.sourceLine
  waived : (o.status = .waived ↔ o.waiver.isSome = true) →
    (o'.status = .waived ↔ o'.waiver.isSome = true) ∧ (o.status = .waived → o'.status = .waived)

theorem Kept.refl (o : Obligation) : Kept o o := ⟨rfl, rfl, fun h => ⟨h, fun h => h⟩⟩

theorem Kept.trans {o o' o'' : Obligation} (h : Kept o o') (h' : Kept o' o'') : Kept o o'' := by
  refine ⟨h'.id.trans h.id, h'.line.trans h.line, fun hwaived => ?_⟩
  obtain ⟨hwaived', hstays⟩ := h.waived hwaived
  obtain ⟨hwaived'', hstays'⟩ := h'.waived hwaived'
  exact ⟨hwaived'', fun hw => hstays' (hstays hw)⟩

theorem map_eq_of_forall₂ {α β : Type} {R : α → α → Prop} {f : α → β} (hf : ∀ a b, R a b → f b = f a)
    {l l' : List α} (h : List.Forall₂ R l l') : l'.map f = l.map f := by
  induction h with
  | nil => rfl
  | cons hab _ ih => rw [List.map_cons, List.map_cons, hf _ _ hab, ih]

theorem forall_mem_of_forall₂ {α : Type} {R : α → α → Prop} {P : α → Prop} (hP : ∀ a b, R a b → P a → P b)
    {l l' : List α} (h : List.Forall₂ R l l') (hl : ∀ a ∈ l, P a) : ∀ a ∈ l', P a := by
  induction h with
  | nil => exact hl
  | cons hab _ ih =>
    rw [List.forall_mem_cons] at hl ⊢
    exact ⟨hP _ _ hab hl.1, ih hl.2⟩

/-- What is common to all ledgers that have been counted. -/
theorem consistent_refresh {ledger : ObligationLedger}
    (hids : ledger.obligations.map (·.id) =
      (List.range' 1 ledger.obligations.length).map obligationId)
    (hlines : (ledger.obligations.map (·.sourceLine)).Pairwise (· < ·))
    (hwaived : ∀ o ∈ ledger.obligations, o.status = .waived ↔ o.waiver.isSome = true) :
    Consistent (refreshSummaryAndVerdict ledger) := by
  have hcounts := foldl_counts ledger.obligations ⟨0, 0, 0, 0⟩
  simp only [Nat.zero_add] at hcounts
  have hsummary : (refreshSummaryAndVerdict ledger).summary = _ := hcounts
  refine ⟨hcounts, ?_, ?_, ?_, hids, List.pairwise_map.mp hlines, hwaived⟩
  · rw [hsummary]
    exact sum_counts ledger.obligations
  · rw [verdict_refresh]
    refine forall₂_congr fun o _ => ?_
    cases o.status <;> simp
  · change (ledger.obligations.map (·.id)).Nodup
    rw [hids]
    exact List.Nodup.map obligationId_injective List.nodup_range'

/-- **A ledger that adds up does so after a move** that keeps its obligations. -/
theorem Consistent.refresh {ledger : ObligationLedger} (h : Consistent ledger)
    {obligations : List Obligation} (hkept : List.Forall₂ Kept ledger.obligations obligations) :
    Consistent (refreshSummaryAndVerdict { ledger with obligations := obligations }) ∧
      StaysWaived ledger (refreshSummaryAndVerdict { ledger with obligations := obligations }) := by
  have hwaived := h.waived
  refine ⟨consistent_refresh ?_ ?_ ?_, ?_⟩
  · change obligations.map (·.id) = _
    rw [map_eq_of_forall₂ (fun _ _ hk => hk.id) hkept, h.order, hkept.length_eq]
  · change (obligations.map (·.sourceLine)).Pairwise _
    rw [map_eq_of_forall₂ (fun _ _ hk => hk.line) hkept]
    exact List.pairwise_map.mpr h.lines
  · exact forall_mem_of_forall₂ (fun _ _ hk ho => (hk.waived ho).1) hkept hwaived
  · have hboth := (List.forall₂_and_left _ _).mpr ⟨hwaived, hkept⟩
    exact hboth.imp fun _ _ ⟨ho, hk⟩ => ⟨hk.id.symm, (hk.waived ho).2⟩

/-! ### What each move keeps -/

theorem kept_annotateObligation (evidence : Option ObligationEvidence) (waiver : Option String)
    (o : Obligation) : Kept o (annotateObligation evidence waiver o) := by
  -- first the waiver, then the evidence
  have hevidence (o' : Obligation) : Kept o' (annotateObligation evidence none o') := by
    cases evidence with
    | none => exact .refl o'
    | some e =>
      refine ⟨rfl, rfl, fun h => ?_⟩
      rw [annotateObligation]
      cases hwaiver : o'.waiver with
      | none =>
        rw [hwaiver] at h
        simp [h]
      | some waiver =>
        rw [hwaiver] at h
        simp [h]
  cases waiver with
  | none => exact hevidence o
  | some waiver =>
    by_cases hblank : trim waiver ≠ ""
    · have heq : annotateObligation evidence (some waiver) o = annotateObligation evidence none
          { o with waiver := some (trim waiver), status := .waived } := by
        simp only [annotateObligation, if_pos hblank]
      rw [heq]
      have hwaived : Kept o { o with waiver := some (trim waiver), status := .waived } :=
        ⟨rfl, rfl, fun _ => ⟨by simp, fun _ => rfl⟩⟩
      exact hwaived.trans (hevidence _)
    · have heq : annotateObligation evidence (some waiver) o = annotateObligation evidence none o := by
        simp only [annotateObligation, if_neg hblank]
      rw [heq]
      exact hevidence o

theorem kept_changeFirst {id : String} {f : Obligation → Obligation} (hf : ∀ o, Kept o (f o))
    {obligations changed : List Obligation} (h : changeFirst id f obligations = some changed) :
    List.Forall₂ Kept obligations changed := by
  induction obligations generalizing changed with
  | nil => cases h
  | cons o rest ih =>
    rw [changeFirst] at h
    split_ifs at h
    · cases h
      exact .cons (hf o) (List.forall₂_same.mpr fun o _ => .refl o)
    · obtain ⟨changed', hchanged, rfl⟩ := Option.map_eq_some_iff.mp h
      exact .cons (.refl o) (ih hchanged)

theorem kept_checkObligationWith (points : ObligationEvidence → Bool) (files : List (Place × String))
    (o : Obligation) : Kept o (checkObligationWith points files o) := by
  rw [checkObligationWith]
  by_cases hwaiver : o.waiver.isSome = true
  · rw [if_pos hwaiver]
    exact ⟨rfl, rfl, fun _ => ⟨iff_of_true rfl hwaiver, fun _ => rfl⟩⟩
  have hkept {o' : Obligation} (hid : o'.id = o.id) (hline : o'.sourceLine = o.sourceLine)
      (hsame : o'.waiver = o.waiver) (hstatus : o'.status ≠ .waived) : Kept o o' := by
    refine ⟨hid, hline, fun h => ⟨?_, fun hw => absurd (h.mp hw) hwaiver⟩⟩
    rw [hsame]
    exact iff_of_false hstatus hwaiver
  rw [if_neg hwaiver]
  by_cases hfragments : o.expectedFragments = []
  · rw [if_pos hfragments]
    refine hkept rfl rfl rfl ?_
    dsimp only
    split_ifs <;> decide
  · rw [if_neg hfragments]
    dsimp only
    split_ifs
    · exact hkept rfl rfl rfl fun hno => by cases hno
    · exact hkept rfl rfl rfl fun hno => by cases hno

/-- **An obligation that is checked again** is as it was. -/
theorem checkObligationWith_idem (points : ObligationEvidence → Bool) (files : List (Place × String))
    (o : Obligation) :
    checkObligationWith points files (checkObligationWith points files o) =
      checkObligationWith points files o := by
  by_cases hwaiver : o.waiver.isSome = true
  · simp only [checkObligationWith, if_pos hwaiver]
  by_cases hfragments : o.expectedFragments = []
  · simp only [checkObligationWith, if_neg hwaiver, if_pos hfragments]
  by_cases hfound : (o.expectedFragments.filterMap (findFragment files)).length = o.expectedFragments.length
  · simp only [checkObligationWith, if_neg hwaiver, if_neg hfragments, if_pos hfound]
  · simp only [checkObligationWith, if_neg hwaiver, if_neg hfragments, if_neg hfound]

/-- **A check that is made again** on the same target gives the same ledger. -/
theorem checkObligationLedger_again {ledger checked : ObligationLedger} {t : Target}
    (h : checkObligationLedger ledger t = .ok checked) : checkObligationLedger checked t = .ok checked := by
  obtain ⟨files, hfiles, h⟩ := bind_eq_ok.mp h
  cases h
  refine bind_eq_ok.mpr ⟨files, hfiles, congrArg Except.ok ?_⟩
  have hobligations : (ledger.obligations.map (checkObligationWith
      (obligationEvidencePointsToExistingLine t) files)).map
        (checkObligationWith (obligationEvidencePointsToExistingLine t) files) =
      ledger.obligations.map (checkObligationWith (obligationEvidencePointsToExistingLine t) files) := by
    rw [List.map_map]
    exact List.map_congr_left fun o _ => checkObligationWith_idem _ _ o
  rw [refreshSummaryAndVerdict, refreshSummaryAndVerdict]
  dsimp only
  rw [hobligations]

/-- **A move keeps a ledger that adds up.** -/
theorem Consistent.next {ledger : ObligationLedger} (h : Consistent ledger) (m : LedgerMove) :
    Consistent (m.next ledger) ∧ StaysWaived ledger (m.next ledger) := by
  have hsame : Consistent ledger ∧ StaysWaived ledger ledger :=
    ⟨h, List.forall₂_same.mpr fun _ _ => ⟨rfl, fun hw => hw⟩⟩
  cases m with
  | annotate id evidence waiver =>
    rw [LedgerMove.next, LedgerMove.apply, annotateObligationLedger]
    split_ifs
    · exact hsame
    · cases hchanged : changeFirst id (annotateObligation evidence waiver) ledger.obligations with
      | none => exact hsame
      | some obligations =>
        exact h.refresh (kept_changeFirst (kept_annotateObligation evidence waiver) hchanged)
  | check t =>
    rw [LedgerMove.next, LedgerMove.apply, checkObligationLedger]
    cases hfiles : searchableFileSnapshots t (sourcePathsOf ledger) with
    | error e => exact hsame
    | ok files =>
      refine h.refresh (List.forall₂_map_right_iff.mpr (List.forall₂_same.mpr fun o _ => ?_))
      exact kept_checkObligationWith _ _ o

/-! ### Extraction -/

section

variable [Platform] (sourcePath content : String)

/-- The lines of the obligations of a contract are in order. -/
theorem pairwise_sourceLine :
    ((extractObligations sourcePath content).map (·.sourceLine)).Pairwise (· < ·) := by
  have hlines (found : List Obligation) {f : Obligation × ℕ → Obligation}
      (hf : ∀ p, (f p).sourceLine = p.1.sourceLine) :
      ((found.zipIdx 1).map f).map (·.sourceLine) = found.map (·.sourceLine) := by
    rw [List.map_map, show (·.sourceLine) ∘ f = (·.sourceLine) ∘ Prod.fst from funext hf,
      ← List.map_map, List.zipIdx_map_fst]
  have hnumbers : ((lines content.toList).zipIdx 1).Pairwise fun a b => a.2 < b.2 := by
    rw [← List.pairwise_map, List.zipIdx_map_snd]
    exact List.pairwise_lt_range'
  rw [extractObligations, hlines, List.pairwise_map, List.pairwise_filterMap]
  case hf => exact fun _ => rfl
  refine hnumbers.imp ?_
  rintro ⟨line, number⟩ ⟨line', number'⟩ hlt o ho o' ho'
  dsimp only at ho ho'
  rw [extractObligation] at ho ho'
  split_ifs at ho with hline
  split_ifs at ho' with hline'
  cases ho
  cases ho'
  exact hlt

theorem consistent_extract : Consistent (extractObligationLedger sourcePath content) := by
  refine consistent_refresh ?_ (pairwise_sourceLine sourcePath content) ?_
  · exact ids_extractObligations
  · intro o ho
    obtain ⟨⟨found, number⟩, hfound, rfl⟩ := List.mem_map.mp ho
    obtain ⟨⟨line, number'⟩, -, hextract⟩ := List.mem_filterMap.mp (List.fst_mem_of_mem_zipIdx hfound)
    dsimp only at hextract
    rw [extractObligation] at hextract
    split_ifs at hextract
    cases hextract
    simp

/-- **Whatever is done to a ledger, it adds up**: after any annotations and checks, and whatever is done
then. What was waived stays so, a check that is made again gives the same, and a move that fails leaves
the ledger of the caller. -/
theorem consistent_ledgerAfter (moves : List LedgerMove) :
    Consistent (ledgerAfter sourcePath content moves) ∧
      (∀ later, StaysWaived (ledgerAfter sourcePath content moves)
        (ledgerAfter sourcePath content (moves ++ later))) ∧
      (∀ t checked, checkObligationLedger (ledgerAfter sourcePath content moves) t = .ok checked →
        checkObligationLedger checked t = .ok checked) ∧
      ∀ m : LedgerMove, m.apply (ledgerAfter sourcePath content moves) = none →
        ledgerAfter sourcePath content (moves ++ [m]) = ledgerAfter sourcePath content moves := by
  have hafter (moves later : List LedgerMove) : ledgerAfter sourcePath content (moves ++ later) =
      later.foldl LedgerMove.next (ledgerAfter sourcePath content moves) := List.foldl_append
  have hrun (later : List LedgerMove) (ledger : ObligationLedger) (h : Consistent ledger) :
      Consistent (later.foldl LedgerMove.next ledger) ∧
        StaysWaived ledger (later.foldl LedgerMove.next ledger) := by
    induction later generalizing ledger with
    | nil => exact ⟨h, List.forall₂_same.mpr fun _ _ => ⟨rfl, fun hw => hw⟩⟩
    | cons m later ih =>
      obtain ⟨hnext, hstays⟩ := h.next m
      obtain ⟨hlater, hstays'⟩ := ih _ hnext
      exact ⟨hlater, hstays.trans hstays'⟩
  have hledger := (hrun moves _ (consistent_extract sourcePath content)).1
  refine ⟨hledger, fun later => ?_, fun t checked => checkObligationLedger_again, fun m hm => ?_⟩
  · rw [hafter]
    exact (hrun later _ hledger).2
  · rw [hafter, List.foldl_cons, List.foldl_nil, LedgerMove.next, hm, Option.getD_none]

end

end Linked

end Obligations

end Ao2
