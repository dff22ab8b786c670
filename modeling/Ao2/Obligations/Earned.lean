import Ao2.Json.Encoding
import Ao2.Obligations.Search

/-!
# Accepted ledgers

A ledger is extracted, annotated and checked in any order. When a check accepts it, what was forbidden
can be on a line nevertheless: an obligation of that kind passes as any other, when its fragments are
found. A contract whose path is spelled otherwise is searched for its own fragments, which it has.

## Main results

* `not_earned_forbidden` — a forbidden word that is there
-/

namespace Ao2

namespace Obligations

open Files

/-! ### Moves -/

inductive LedgerMove where
  | annotate (obligationId : String) (evidence : Option ObligationEvidence) (waiver : Option String)
  | check (root : Node)

/-- The ledger after a move; a move that fails leaves it as it is. -/
def LedgerMove.apply (ledger : ObligationLedger) : LedgerMove → ObligationLedger
  | .annotate obligationId evidence waiver =>
    match annotateObligationLedger ledger obligationId evidence waiver with
    | .ok ledger' => ledger'
    | .error _ => ledger
  | .check root =>
    match checkObligationLedger ledger root with
    | .ok ledger' => ledger'
    | .error _ => ledger

/-- The evidence that was recorded for an obligation. -/
def annotatedEvidence (moves : List LedgerMove) (id : String) : List ObligationEvidence :=
  moves.filterMap fun
    | .annotate obligationId evidence _ => if obligationId = id then evidence else none
    | .check _ => none

/-- The place of the contract in the target, if it is there. -/
def contractIn (cwd root : Place) (sourcePath : String) : Option Place :=
  let p := placeOf cwd sourcePath
  if root <+: p then some (p.drop root.length) else none

section

variable [Platform]

def ledgerAfter (sourcePath content : String) (moves : List LedgerMove) : ObligationLedger :=
  moves.foldl LedgerMove.apply (extractObligationLedger sourcePath content)

/-! ### The promise -/

/-- The fragment is on a line of a searchable file that is not the contract. -/
def OnOtherLine (root : Node) (contract : Option Place) (fragment : String) : Prop :=
  ∃ all, searchableFileSnapshots [] root = .ok all ∧
    OnLine (all.filter (some ·.1 ≠ contract)) fragment

/-- The fragments of an obligation are where they should be. -/
def FragmentsStand (root : Node) (contract : Option Place) (o : Obligation) : Prop :=
  if o.kind = "must_not" then ∀ fragment ∈ o.expectedFragments, ¬ OnOtherLine root contract fragment
  else ∀ fragment ∈ o.expectedFragments, OnOtherLine root contract fragment

/-- There is evidence, and all of it is on lines that are there. -/
def EvidenceStands (root : Node) (evidence : List ObligationEvidence) : Prop :=
  evidence ≠ [] ∧ ∀ e ∈ evidence, obligationEvidencePointsToExistingLine root e = true

/-- **The ledger is earned.** -/
structure Earned (root : Node) (contract : Option Place) (content : String) (moves : List LedgerMove)
    (checked : ObligationLedger) : Prop where
  stands : ∀ o ∈ checked.obligations, o.waiver = none →
    (o.expectedFragments ≠ [] ∧ FragmentsStand root contract o) ∨
      EvidenceStands root (annotatedEvidence moves o.id)
  nonempty : (∃ line ∈ lines content.toList, IsObligationLine (.ofList line)) →
    checked.obligations ≠ []

/-- The contract is a file that is searched: its path from the target is not spelled as the source
path is. -/
def ContractSearched (root : Node) (contract : Option Place) (sourcePath : String) : Prop :=
  ∃ all, searchableFileSnapshots [] root = .ok all ∧
    ∃ f ∈ all, some f.1 = contract ∧ relativePath f.1 ≠ forwardSlashes sourcePath

/-- Nothing with fragments is forbidden, unless there is evidence; and where the contract is searched,
the fragments stand anyhow. -/
def Earnable (root : Node) (contract : Option Place) (sourcePath : String) (moves : List LedgerMove)
    (ledger : ObligationLedger) : Prop :=
  ∀ o ∈ ledger.obligations, o.waiver = none → o.expectedFragments ≠ [] →
    EvidenceStands root (annotatedEvidence moves o.id) ∨
      (ContractSearched root contract sourcePath ∧ FragmentsStand root contract o) ∨
      (¬ ContractSearched root contract sourcePath ∧ o.kind ≠ "must_not")

/-! ### Runs -/

/-- What does not change of an obligation. -/
def fixedPart (o : Obligation) : String × String × List String := (o.id, o.kind, o.expectedFragments)

/-- The obligations are those of the contract, with the evidence that was recorded. -/
structure Follows (sourcePath content : String) (moves : List LedgerMove) (ledger : ObligationLedger) :
    Prop where
  sources : sourcePathsOf ledger = [forwardSlashes sourcePath]
  fixed : ledger.obligations.map fixedPart = (extractObligations sourcePath content).map fixedPart
  evidence : ∀ o ∈ ledger.obligations, o.expectedFragments = [] →
    o.evidence = annotatedEvidence moves o.id

variable {sourcePath content : String} {moves : List LedgerMove} {ledger : ObligationLedger}

omit [Platform] in
theorem annotatedEvidence_concat (moves : List LedgerMove) (m : LedgerMove) (id : String) :
    annotatedEvidence (moves ++ [m]) id = annotatedEvidence moves id ++ annotatedEvidence [m] id :=
  List.filterMap_append

omit [Platform] in
theorem annotateObligation_same (evidence : Option ObligationEvidence) (waiver : Option String)
    (o : Obligation) : fixedPart (annotateObligation evidence waiver o) = fixedPart o ∧
      (annotateObligation evidence waiver o).evidence = o.evidence ++ evidence.toList := by
  have hadd (o' : Obligation) (hfixed : fixedPart o' = fixedPart o) (hevidence : o'.evidence = o.evidence) :
      fixedPart (annotateObligation evidence none o') = fixedPart o ∧
        (annotateObligation evidence none o').evidence = o.evidence ++ evidence.toList := by
    cases evidence with
    | none => exact ⟨hfixed, hevidence.trans (List.append_nil _).symm⟩
    | some e => exact ⟨hfixed, congrArg (· ++ [e]) hevidence⟩
  cases waiver with
  | none => exact hadd o rfl rfl
  | some waiver =>
    by_cases hblank : trim waiver ≠ ""
    · have heq : annotateObligation evidence (some waiver) o = annotateObligation evidence none
          { o with waiver := some (trim waiver), status := .waived } := by
        simp only [annotateObligation, if_pos hblank]
      rw [heq]
      exact hadd _ rfl rfl
    · have heq : annotateObligation evidence (some waiver) o = annotateObligation evidence none o := by
        simp only [annotateObligation, if_neg hblank]
      rw [heq]
      exact hadd o rfl rfl

omit [Platform] in
theorem annotatedEvidence_annotate (id obligationId : String) (evidence : Option ObligationEvidence)
    (waiver : Option String) : annotatedEvidence [.annotate obligationId evidence waiver] id =
      if obligationId = id then evidence.toList else [] := by
  rw [annotatedEvidence]
  split_ifs with hid
  · cases evidence with
    | none => simp [hid]
    | some e => simp [hid]
  · simp [hid]

omit [Platform] in
/-- With identifiers of their own no obligation is changed but the one that is meant. -/
theorem changeFirst_eq {id : String} {f : Obligation → Obligation} (obligations : List Obligation)
    (hnodup : (obligations.map Obligation.id).Nodup) : changeFirst id f obligations =
      if id ∈ obligations.map Obligation.id then
        some (obligations.map fun o => if o.id = id then f o else o)
      else none := by
  induction obligations with
  | nil => rfl
  | cons o obligations ih =>
    rw [List.map_cons, List.nodup_cons] at hnodup
    rw [changeFirst, List.map_cons, List.map_cons]
    by_cases hid : o.id = id
    · subst hid
      have hrest : (obligations.map fun o' => if o'.id = o.id then f o' else o') = obligations := by
        refine (List.map_congr_left fun o' ho' => if_neg fun hsame => hnodup.1 ?_).trans (List.map_id _)
        rw [← hsame]
        exact List.mem_map_of_mem ho'
      rw [if_pos rfl, if_pos rfl, if_pos List.mem_cons_self, hrest]
    · rw [if_neg hid, if_neg hid, ih hnodup.2]
      by_cases hmem : id ∈ obligations.map Obligation.id
      · rw [if_pos hmem, if_pos (List.mem_cons_of_mem _ hmem), Option.map_some]
      · rw [if_neg hmem, if_neg (List.not_mem_cons_of_ne_of_not_mem (Ne.symm hid) hmem), Option.map_none]

theorem Follows.nodup (h : Follows sourcePath content moves ledger) :
    (ledger.obligations.map Obligation.id).Nodup := by
  have hids : ledger.obligations.map Obligation.id =
      (extractObligations sourcePath content).map Obligation.id := by
    have := congrArg (List.map Prod.fst) h.fixed
    rwa [List.map_map, List.map_map] at this
  rw [hids]
  exact nodup_ids

/-- **A move** keeps the obligations, and records its evidence. -/
theorem Follows.apply (h : Follows sourcePath content moves ledger) (m : LedgerMove) :
    Follows sourcePath content (moves ++ [m]) (m.apply ledger) := by
  -- a move without an effect has no evidence
  have hskip (hnone : ∀ o ∈ ledger.obligations, annotatedEvidence [m] o.id = []) :
      Follows sourcePath content (moves ++ [m]) ledger := by
    refine ⟨h.sources, h.fixed, fun o ho hfragments => ?_⟩
    rw [annotatedEvidence_concat, hnone o ho, List.append_nil]
    exact h.evidence o ho hfragments
  cases m with
  | check root =>
    rw [LedgerMove.apply]
    cases hcheck : checkObligationLedger ledger root with
    | error e => exact hskip fun _ _ => rfl
    | ok ledger' =>
      obtain ⟨files, -, hok⟩ := bind_eq_ok.mp hcheck
      cases hok
      refine ⟨h.sources, ?_, fun o' ho' hfragments => ?_⟩
      · refine Eq.trans ?_ h.fixed
        change (ledger.obligations.map (checkObligation root files)).map fixedPart = _
        rw [List.map_map]
        refine List.map_congr_left fun o _ => ?_
        obtain ⟨hid, hkind, hsame, -, -⟩ := @checkObligation_same root files o
        rw [Function.comp_apply, fixedPart, hid, hkind, hsame, fixedPart]
      · obtain ⟨o, ho, rfl⟩ := List.mem_map.mp ho'
        obtain ⟨hid, -, hsame, -, hevidence⟩ := @checkObligation_same root files o
        rw [hsame] at hfragments
        rw [hid, hevidence hfragments, annotatedEvidence_concat, h.evidence o ho hfragments]
        exact (List.append_nil _).symm
  | annotate obligationId evidence waiver =>
    rw [LedgerMove.apply, annotateObligationLedger]
    by_cases hblank : evidence.isNone ∧ trim (waiver.getD "") = ""
    · rw [if_pos hblank]
      refine hskip fun o _ => ?_
      rw [annotatedEvidence_annotate, Option.isNone_iff_eq_none.mp hblank.1, Option.toList_none, ite_self]
    rw [if_neg hblank, changeFirst_eq _ h.nodup]
    by_cases hknown : obligationId ∈ ledger.obligations.map Obligation.id
    · rw [if_pos hknown]
      refine ⟨h.sources, ?_, fun o' ho' hfragments => ?_⟩
      · refine Eq.trans ?_ h.fixed
        change (ledger.obligations.map _).map fixedPart = _
        rw [List.map_map]
        refine List.map_congr_left fun o _ => ?_
        rw [Function.comp_apply]
        split_ifs
        · exact (annotateObligation_same evidence waiver o).1
        · rfl
      · obtain ⟨o, ho, rfl⟩ := List.mem_map.mp ho'
        obtain ⟨hfixed, hevidence⟩ := annotateObligation_same evidence waiver o
        rw [annotatedEvidence_concat, annotatedEvidence_annotate]
        by_cases hid : o.id = obligationId
        · rw [if_pos hid] at hfragments ⊢
          obtain ⟨hid', -, hfragments'⟩ : _ ∧ _ ∧ _ := by simpa [fixedPart] using hfixed
          rw [hevidence, hid', if_pos hid.symm, h.evidence o ho (hfragments' ▸ hfragments)]
        · rw [if_neg hid] at hfragments ⊢
          rw [if_neg (Ne.symm hid), List.append_nil]
          exact h.evidence o ho hfragments
    · rw [if_neg hknown]
      refine hskip fun o ho => ?_
      rw [annotatedEvidence_annotate, if_neg]
      rintro rfl
      exact hknown (List.mem_map_of_mem ho)

theorem follows_ledgerAfter (sourcePath content : String) (moves : List LedgerMove) :
    Follows sourcePath content moves (ledgerAfter sourcePath content moves) := by
  induction moves using List.reverseRecOn with
  | nil =>
    refine ⟨rfl, rfl, fun o ho _ => ?_⟩
    obtain ⟨⟨o', number⟩, ho', rfl⟩ := List.mem_map.mp ho
    obtain ⟨line, -, hextract⟩ := List.mem_filterMap.mp (List.fst_mem_of_mem_zipIdx ho')
    simp only [extractObligation] at hextract
    split_ifs at hextract
    cases hextract
    rfl
  | append_singleton moves m ih =>
    rw [ledgerAfter, List.foldl_concat]
    exact ih.apply m

/-! ### When an accepted ledger is earned -/

variable {root : Node} {contract : Option Place} {checked : ObligationLedger}

/-- What the check has searched, and what it has left out. -/
theorem exists_searched (h : Follows sourcePath content moves ledger)
    (hcheck : checkObligationLedger ledger root = .ok checked) :
    ∃ files all, searchableFileSnapshots [] root = .ok all ∧
      (∀ f, f ∈ files ↔ f ∈ all ∧ relativePath f.1 ≠ forwardSlashes sourcePath) ∧
      checked.obligations = ledger.obligations.map (checkObligation root files) ∧
      (checked.verdict = .accepted → ∀ o ∈ checked.obligations, o.status = .pass ∨ o.status = .waived) := by
  obtain ⟨files, hfiles, hok⟩ := bind_eq_ok.mp hcheck
  cases hok
  obtain ⟨all, hall, hmem⟩ := searchableFileSnapshots_eq_ok hfiles
  refine ⟨files, all, hall, fun f => ?_, rfl, fun hverdict => (verdict_refresh _).mp hverdict⟩
  rw [hmem, h.sources, List.mem_singleton]

omit [Platform] in
/-- Fragments that are found in the files that were searched are on other lines than the contract's,
unless the contract was searched. -/
theorem onOtherLine_of_onLine {files all : List (Place × String)}
    (hall : searchableFileSnapshots [] root = .ok all)
    (hmem : ∀ f, f ∈ files ↔ f ∈ all ∧ relativePath f.1 ≠ forwardSlashes sourcePath)
    (hsearched : ¬ ContractSearched root contract sourcePath) {fragment : String}
    (h : OnLine files fragment) : OnOtherLine root contract fragment := by
  obtain ⟨f, hf, hline⟩ := h
  obtain ⟨hf, hpath⟩ := (hmem f).mp hf
  refine ⟨all, hall, f, List.mem_filter.mpr ⟨hf, decide_eq_true fun hcontract => ?_⟩, hline⟩
  exact hsearched ⟨all, hall, f, hf, hcontract, hpath⟩

omit [Platform] in
/-- One obligation that has passed. -/
theorem stands_iff {files all : List (Place × String)} (hall : searchableFileSnapshots [] root = .ok all)
    (hmem : ∀ f, f ∈ files ↔ f ∈ all ∧ relativePath f.1 ≠ forwardSlashes sourcePath) {o : Obligation}
    (hwaiver : o.waiver = none)
    (hevidence : o.expectedFragments = [] → o.evidence = annotatedEvidence moves o.id)
    (hpass : (checkObligation root files o).status = .pass ∨
      (checkObligation root files o).status = .waived) :
    (o.expectedFragments ≠ [] ∧ FragmentsStand root contract o) ∨
        EvidenceStands root (annotatedEvidence moves o.id) ↔
      (o.expectedFragments ≠ [] → EvidenceStands root (annotatedEvidence moves o.id) ∨
        (ContractSearched root contract sourcePath ∧ FragmentsStand root contract o) ∨
        (¬ ContractSearched root contract sourcePath ∧ o.kind ≠ "must_not")) := by
  rw [status_checkObligation hwaiver] at hpass
  by_cases hfragments : o.expectedFragments = []
  · rw [if_pos hfragments, hevidence hfragments] at hpass
    exact iff_of_true (.inr hpass) fun hno => absurd hfragments hno
  rw [if_neg hfragments] at hpass
  have hstands (hno : ¬ ContractSearched root contract sourcePath) :
      FragmentsStand root contract o ↔ o.kind ≠ "must_not" := by
    have hother fragment (hin : fragment ∈ o.expectedFragments) :=
      onOtherLine_of_onLine hall hmem hno (hpass fragment hin)
    rw [FragmentsStand]
    split_ifs with hkind
    · obtain ⟨fragment, hin⟩ := List.exists_mem_of_ne_nil _ hfragments
      exact iff_of_false (fun h => h fragment hin (hother fragment hin)) (not_not.mpr hkind)
    · exact iff_of_true hother hkind
  by_cases hsearched : ContractSearched root contract sourcePath
  · simp only [hfragments, hsearched, ne_eq, not_false_eq_true, true_and, true_imp_iff, not_true,
      false_and, or_false]
    exact or_comm
  · simp only [hfragments, hsearched, ne_eq, not_false_eq_true, true_and, true_imp_iff, false_and,
      false_or, hstands hsearched]
    exact or_comm

/-- **An accepted ledger is earned if and only if it is earnable.** -/
theorem earned_iff (cwd rootPlace : Place) (sourcePath content : String) (moves : List LedgerMove)
    (root : Node) (checked : ObligationLedger)
    (hcheck : checkObligationLedger (ledgerAfter sourcePath content moves) root = .ok checked)
    (haccepted : checked.verdict = .accepted) :
    Earned root (contractIn cwd rootPlace sourcePath) content moves checked ↔
      Earnable root (contractIn cwd rootPlace sourcePath) sourcePath moves
        (ledgerAfter sourcePath content moves) := by
  generalize contractIn cwd rootPlace sourcePath = contract
  have hfollows := follows_ledgerAfter sourcePath content moves
  generalize ledgerAfter sourcePath content moves = ledger at hcheck hfollows ⊢
  obtain ⟨files, all, hall, hmem, hobligations, hpassed⟩ := exists_searched hfollows hcheck
  have hone (o : Obligation) (ho : o ∈ ledger.obligations) (hwaiver : o.waiver = none) :=
    @stands_iff sourcePath moves root contract files all hall hmem o hwaiver (hfollows.evidence o ho)
      (hpassed haccepted _ (hobligations ▸ List.mem_map_of_mem ho))
  constructor
  · intro hearned o ho hwaiver
    obtain ⟨hid, hkind, hfragments, hsame, -⟩ := @checkObligation_same root files o
    have hstands := hearned.stands _ (hobligations ▸ List.mem_map_of_mem ho) (hsame.trans hwaiver)
    rw [FragmentsStand, hid, hkind, hfragments, ← FragmentsStand] at hstands
    exact (hone o ho hwaiver).mp hstands
  · intro hearnable
    refine ⟨fun o' ho' hwaiver => ?_, fun hline hnil => ?_⟩
    · rw [hobligations] at ho'
      obtain ⟨o, ho, rfl⟩ := List.mem_map.mp ho'
      obtain ⟨hid, hkind, hfragments, hsame, -⟩ := @checkObligation_same root files o
      rw [hsame] at hwaiver
      rw [FragmentsStand, hid, hkind, hfragments, ← FragmentsStand]
      exact (hone o ho hwaiver).mpr (hearnable o ho hwaiver)
    · rw [hobligations, List.map_eq_nil_iff] at hnil
      have hfixed := hfollows.fixed
      rw [hnil, List.map_nil] at hfixed
      exact obligations_ne_nil hline (List.map_eq_nil_iff.mp hfixed.symm)

end

/-! ### A forbidden word -/

attribute [local instance] spellingPlatform

def forbiddenContract : String := "The output must not have `secret`."

def forbiddenRoot : Node :=
  .dir [("contract.md", .file (.text forbiddenContract)), ("out.txt", .file (.text "secret"))]

def forbiddenChecked : ObligationLedger :=
  refreshSummaryAndVerdict { extractObligationLedger "contract.md" forbiddenContract with
    obligations := (extractObligations "contract.md" forbiddenContract).map
      (checkObligation forbiddenRoot [(["out.txt"], "secret")]) }

theorem check_forbidden :
    checkObligationLedger (ledgerAfter "contract.md" forbiddenContract []) forbiddenRoot =
      .ok forbiddenChecked := by
  rfl

theorem verdict_forbidden : forbiddenChecked.verdict = .accepted := by decide

theorem earned_iff_forbidden :
    Earned forbiddenRoot (contractIn [] [] "contract.md") forbiddenContract [] forbiddenChecked ↔
      Earnable forbiddenRoot (contractIn [] [] "contract.md") "contract.md" []
        (ledgerAfter "contract.md" forbiddenContract []) :=
  earned_iff [] [] "contract.md" forbiddenContract [] forbiddenRoot forbiddenChecked check_forbidden
    verdict_forbidden

/-- The word is in another file, and the ledger is accepted. -/
theorem not_earned_forbidden :
    checkObligationLedger (ledgerAfter "contract.md" forbiddenContract []) forbiddenRoot =
        .ok forbiddenChecked ∧ forbiddenChecked.verdict = .accepted ∧
      ¬ Earned forbiddenRoot (contractIn [] [] "contract.md") forbiddenContract [] forbiddenChecked := by
  refine ⟨check_forbidden, verdict_forbidden, fun h => ?_⟩
  obtain ⟨o, ho, hwaiver, hkind, hfragments⟩ : ∃ o, forbiddenChecked.obligations = [o] ∧
      o.waiver = none ∧ o.kind = "must_not" ∧ o.expectedFragments = ["secret"] :=
    ⟨_, rfl, rfl, by decide, by decide⟩
  have hother : OnOtherLine forbiddenRoot (contractIn [] [] "contract.md") "secret" := by
    refine ⟨[(["contract.md"], forbiddenContract), (["out.txt"], "secret")], rfl, (["out.txt"], "secret"),
      by decide, "secret".toList, ?_, ?_⟩
    · decide
    · decide
  rcases h.stands o (ho ▸ List.mem_singleton_self o) hwaiver with ⟨-, hstands⟩ | hevidence
  · rw [FragmentsStand, if_pos hkind, hfragments] at hstands
    exact hstands "secret" (List.mem_singleton_self _) hother
  · exact hevidence.1 rfl

end Obligations

end Ao2
