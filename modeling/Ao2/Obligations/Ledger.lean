import Ao2.Texts.Ascii
import Ao2.Texts.Lines
import Mathlib.Data.List.Destutter
import Mathlib.Data.List.Sort

/-!
# The ledger of obligations

A line of a contract that says that something must be is an obligation. What it has between backquotes
or dollar signs is expected to be found word for word; an obligation without such fragments needs
evidence that somebody records, and any obligation can be waived.

## Main results

* `verdict_refresh` — a ledger is accepted when every obligation has passed or is waived
* `obligations_ne_nil` — a contract with an obligation has a ledger with one
* `nodup_ids` — the obligations have identifiers of their own
-/

namespace Ao2

namespace Obligations

/-! ### Ledgers -/

inductive ObligationStatus where
  | pass | fail | unverified | waived
  deriving DecidableEq

inductive ObligationVerdict where
  | accepted | rejected
  deriving DecidableEq

structure ObligationEvidence where
  path : String
  line : ℕ
  detail : String

structure Obligation where
  id : String
  kind : String
  statement : String
  sourcePath : String
  sourceLine : ℕ
  sourceExcerptHash : String
  expectedFragments : List String
  status : ObligationStatus
  evidence : List ObligationEvidence
  waiver : Option String

structure ObligationSummary where
  pass : ℕ
  fail : ℕ
  unverified : ℕ
  waived : ℕ

structure ObligationSourceContract where
  path : String
  sha256 : String

structure ObligationLedger where
  schemaVersion : String
  sourceContracts : List ObligationSourceContract
  obligations : List Obligation
  summary : ObligationSummary
  verdict : ObligationVerdict

def ObligationSummary.count (s : ObligationSummary) : ObligationStatus → ObligationSummary
  | .pass => { s with pass := s.pass + 1 }
  | .fail => { s with fail := s.fail + 1 }
  | .unverified => { s with unverified := s.unverified + 1 }
  | .waived => { s with waived := s.waived + 1 }

def refreshSummaryAndVerdict (ledger : ObligationLedger) : ObligationLedger :=
  let summary := ledger.obligations.foldl (fun s o => s.count o.status) ⟨0, 0, 0, 0⟩
  { ledger with
    summary := summary
    verdict := if summary.fail = 0 ∧ summary.unverified = 0 then .accepted else .rejected }

/-! ### Statements -/

/-- A text without the characters that it begins with. -/
def trimStartMatches (p : Char → Bool) (s : String) : String := .ofList (s.toList.dropWhile p)

/-- A line without its bullet or its number. -/
def cleanStatement (rawLine : String) : String :=
  trim <| trimStartMatches (fun c => c.isDigit || c = '.') <|
    trimStartMatches (· = '*') <| trimStartMatches (· = '-') <| trim rawLine

def isObligationStatement (statement : String) : Bool :=
  let lower := toAsciiLowercase statement
  containsText lower "must" || containsText lower "shall" || containsText lower "required" ||
    containsText lower "acceptance" || containsText lower "rubric" || containsText lower "preserve" ||
    containsText lower "unchanged" || containsText lower "verbatim"

def obligationKind (statement : String) : String :=
  let lower := toAsciiLowercase statement
  if containsText lower "must not" || containsText lower "shall not" || containsText lower "forbidden"
  then "must_not"
  else if containsText lower "preserve" || containsText lower "unchanged" ||
    containsText lower "verbatim" || containsText lower "exact" || containsText lower "equation"
  then "content_preservation"
  else if containsText lower "acceptance" then "acceptance"
  else if containsText lower "rubric" then "rubric"
  else "must"

/-- What stands between two delimiters; `current` is what was read since the first of them. -/
def delimitedFragments (delimiter : Char) : (current : Option (List Char)) → List Char → List String
  | _, [] => []
  | none, c :: rest => delimitedFragments delimiter (if c = delimiter then some [] else none) rest
  | some current, c :: rest =>
    if c = delimiter then trim (.ofList current) :: delimitedFragments delimiter none rest
    else delimitedFragments delimiter (some (current ++ [c])) rest

def expectedFragments (statement : String) : List String :=
  let fragments := delimitedFragments '`' none statement.toList ++
    delimitedFragments '$' none statement.toList
  ((fragments.insertionSort (· ≤ ·)).destutter (· ≠ ·)).filter (!isBlank ·)

/-! ### Extraction -/

/-- A line that is an obligation. -/
def IsObligationLine (line : String) : Prop :=
  cleanStatement line ≠ "" ∧ isObligationStatement (cleanStatement line) = true

instance (line : String) : Decidable (IsObligationLine line) :=
  inferInstanceAs (Decidable (_ ∧ _))

/-- A number with at least three digits. -/
def threeDigits (n : ℕ) : String :=
  .ofList (List.replicate (3 - (toString n).toList.length) '0' ++ (toString n).toList)

def obligationId (n : ℕ) : String := "OBL-" ++ threeDigits n

section

variable [Platform]

def extractObligation (sourcePath : String) (sourceLine : ℕ) (rawLine : String) : Option Obligation :=
  let statement := cleanStatement rawLine
  if IsObligationLine rawLine then
    some {
      id := ""
      kind := obligationKind statement
      expectedFragments := expectedFragments statement
      sourceExcerptHash := "sha256:" ++ sha256Text statement
      statement := statement
      sourcePath := sourcePath
      sourceLine := sourceLine
      status := .unverified
      evidence := []
      waiver := none }
  else none

/-- The obligations of a contract, each with its line. -/
def extractObligations (sourcePath content : String) : List Obligation :=
  let found := ((lines content.toList).zipIdx 1).filterMap fun (line, number) =>
    extractObligation sourcePath number (.ofList line)
  (found.zipIdx 1).map fun (o, number) => { o with id := obligationId number }

def extractObligationLedger (sourcePath content : String) : ObligationLedger :=
  refreshSummaryAndVerdict {
    schemaVersion := "ao2.obligation-ledger.v1"
    sourceContracts := [⟨sourcePath, "sha256:" ++ sha256Text content⟩]
    obligations := extractObligations sourcePath content
    summary := ⟨0, 0, 0, 0⟩
    verdict := .rejected }

end

/-! ### Annotation -/

def annotateObligation (evidence : Option ObligationEvidence) (waiver : Option String)
    (o : Obligation) : Obligation :=
  let o := match waiver with
    | some waiver =>
      if trim waiver ≠ "" then { o with waiver := some (trim waiver), status := .waived } else o
    | none => o
  match evidence with
  | some evidence =>
    { o with
      evidence := o.evidence ++ [evidence]
      status := if o.waiver = none then .unverified else o.status }
  | none => o

/-- The first obligation with an identifier changed. -/
def changeFirst (id : String) (f : Obligation → Obligation) : List Obligation → Option (List Obligation)
  | [] => none
  | o :: rest => if o.id = id then some (f o :: rest) else (changeFirst id f rest).map (o :: ·)

def annotateObligationLedger (ledger : ObligationLedger) (obligationId : String)
    (evidence : Option ObligationEvidence) (waiver : Option String) : Except String ObligationLedger :=
  if evidence.isNone ∧ trim (waiver.getD "") = "" then
    .error "annotation requires evidence or waiver"
  else
    match changeFirst obligationId (annotateObligation evidence waiver) ledger.obligations with
    | none => .error ("unknown obligation id: " ++ obligationId)
    | some obligations => .ok (refreshSummaryAndVerdict { ledger with obligations := obligations })

/-! ### Verdicts -/

theorem foldl_counts (obligations : List Obligation) (s : ObligationSummary) :
    obligations.foldl (fun s o => s.count o.status) s =
      ⟨s.pass + obligations.countP (·.status = .pass), s.fail + obligations.countP (·.status = .fail),
        s.unverified + obligations.countP (·.status = .unverified),
        s.waived + obligations.countP (·.status = .waived)⟩ := by
  induction obligations generalizing s with
  | nil => rfl
  | cons o obligations ih =>
    rw [List.foldl_cons, ih]
    simp only [List.countP_cons]
    cases o.status <;> simp [ObligationSummary.count] <;> omega

/-- **A ledger is accepted when every obligation has passed or is waived.** -/
theorem verdict_refresh (ledger : ObligationLedger) :
    (refreshSummaryAndVerdict ledger).verdict = .accepted ↔
      ∀ o ∈ ledger.obligations, o.status = .pass ∨ o.status = .waived := by
  have hcounts := foldl_counts ledger.obligations ⟨0, 0, 0, 0⟩
  simp only [Nat.zero_add] at hcounts
  have hverdict : (refreshSummaryAndVerdict ledger).verdict = .accepted ↔
      (ledger.obligations.countP (·.status = .fail) = 0 ∧
        ledger.obligations.countP (·.status = .unverified) = 0) := by
    rw [refreshSummaryAndVerdict]
    dsimp only
    rw [hcounts]
    split_ifs with h
    · exact iff_of_true rfl h
    · exact iff_of_false (by decide) h
  rw [hverdict, List.countP_eq_zero, List.countP_eq_zero, ← forall₂_and]
  refine forall₂_congr fun o _ => ?_
  cases o.status <;> simp

/-! ### Identifiers -/

theorem threeDigits_injective : Function.Injective threeDigits := by
  intro m n h
  have hvalue (n : ℕ) : Nat.ofDigitChars 10 (threeDigits n).toList 0 = n := by
    rw [threeDigits, String.toList_ofList, Nat.ofDigitChars_append, Nat.ofDigitChars_replicate_zero,
      Nat.mul_zero, Nat.toString_eq_repr, Nat.toList_repr]
    exact Nat.ofDigitChars_toDigits (by decide) (by decide)
  rw [← hvalue m, h, hvalue]

theorem obligationId_injective : Function.Injective obligationId := by
  intro m n h
  refine threeDigits_injective (String.toList_inj.mp ?_)
  have h := congrArg String.toList h
  rw [obligationId, obligationId, String.toList_append, String.toList_append] at h
  exact List.append_cancel_left h

variable [Platform] {sourcePath content : String}

theorem ids_extractObligations : (extractObligations sourcePath content).map Obligation.id =
    (List.range' 1 (extractObligations sourcePath content).length).map obligationId := by
  have hids (found : List Obligation) :
      ((found.zipIdx 1).map fun (o, number) => { o with id := obligationId number }).map Obligation.id =
        (List.range' 1 found.length).map obligationId := by
    rw [List.map_map, ← List.zipIdx_map_snd, List.map_map]
    rfl
  rw [extractObligations, hids, List.length_map, List.length_zipIdx]

theorem nodup_ids : ((extractObligations sourcePath content).map Obligation.id).Nodup := by
  rw [ids_extractObligations]
  exact List.Nodup.map obligationId_injective List.nodup_range'

/-- **A contract with an obligation has a ledger with one.** -/
theorem obligations_ne_nil (h : ∃ line ∈ lines content.toList, IsObligationLine (.ofList line)) :
    extractObligations sourcePath content ≠ [] := by
  obtain ⟨line, hline, hobligation⟩ := h
  obtain ⟨i, hi, rfl⟩ := List.getElem_of_mem hline
  have hfound : ((lines content.toList)[i], 1 + i) ∈ (lines content.toList).zipIdx 1 :=
    List.mk_add_mem_zipIdx_iff_getElem?.mpr (List.getElem?_eq_getElem hi)
  intro hnil
  rw [extractObligations, List.map_eq_nil_iff, List.zipIdx_eq_nil_iff, List.filterMap_eq_nil_iff] at hnil
  have hnone := hnil _ hfound
  dsimp only at hnone
  rw [extractObligation, if_pos hobligation] at hnone
  cases hnone

end Obligations

end Ao2
