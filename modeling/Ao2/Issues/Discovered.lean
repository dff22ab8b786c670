import Ao2.Issues.Records
import Ao2.Json.Encoding

/-!
# What a discovery finds

An issue is repaired if its only row says so, and the latest such issue is selected; any other issue
is on the ledger once. The order of the pages and of their rows does not matter.

## Main results

* `discover_eq_ok` — what is known of a discovery that succeeds
-/

namespace Ao2

namespace Issues

namespace Discovery

/-! ### Rows of pages -/

section

variable [Platform]

/-- The record of a row on a page with a digest. -/
def rowOf (pageDigest : String) (i : SanitizedIssue) : IssueRecord where
  issue := i
  contentDigest := sha256Json i.toJson
  updatedAt := (parseRfc3339 i.updatedAt).getD 0
  evidenceDigests := {sha256Json i.toJson, pageDigest}

/-- A row that is well formed. -/
def IsRow (headSha : String) (completedAt : DateTime) (i : SanitizedIssue) : Prop :=
  ∃ t, validateRow headSha completedAt i = .ok t

theorem updatedAt_of_validateRow {headSha : String} {completedAt t : DateTime} {i : SanitizedIssue}
    (h : validateRow headSha completedAt i = .ok t) : parseRfc3339 i.updatedAt = some t := by
  simp only [validateRow, seq_eq_ok, bailIf_eq_ok] at h
  obtain ⟨-, -, -, -, -, h⟩ := h
  obtain ⟨_, -, h⟩ := bind_eq_ok.mp h
  obtain ⟨t', ht', h⟩ := bind_eq_ok.mp h
  simp only [seq_eq_ok, Except.ok.injEq] at h
  obtain ⟨-, -, -, -, -, -, -, -, rfl⟩ := h
  exact orContext_eq_ok.mp ht'

theorem recordIssue_eq_ok {pageDigest headSha : String} {completedAt : DateTime} {i : SanitizedIssue}
    {r : IssueRecord} : recordIssue pageDigest headSha completedAt i = .ok r ↔
      IsRow headSha completedAt i ∧ r = rowOf pageDigest i := by
  rw [recordIssue, bind_eq_ok]
  constructor
  · rintro ⟨t, ht, heq⟩
    refine ⟨⟨t, ht⟩, ?_⟩
    rw [← Except.ok.inj heq, rowOf, updatedAt_of_validateRow ht]
    rfl
  · rintro ⟨⟨t, ht⟩, rfl⟩
    refine ⟨t, ht, ?_⟩
    rw [rowOf, updatedAt_of_validateRow ht]
    rfl

/-- What is known of a row that is well formed. -/
theorem IsRow.spec {headSha : String} {completedAt : DateTime} {i : SanitizedIssue}
    (h : IsRow headSha completedAt i) : (∃ t, parseRfc3339 i.updatedAt = some t) ∧
      ∃ reason, classificationExclusion i.classification = .ok reason := by
  obtain ⟨t, ht⟩ := h
  refine ⟨⟨t, updatedAt_of_validateRow ht⟩, ?_⟩
  simp only [validateRow, seq_eq_ok, bailIf_eq_ok] at ht
  obtain ⟨-, -, -, -, -, ht⟩ := ht
  obtain ⟨_, -, ht⟩ := bind_eq_ok.mp ht
  obtain ⟨_, -, ht⟩ := bind_eq_ok.mp ht
  simp only [seq_eq_ok] at ht
  obtain ⟨-, -, -, -, -, -, hclassification, -⟩ := ht
  rw [validateClassification] at hclassification
  obtain ⟨reason, hreason, -⟩ := bind_eq_ok.mp hclassification
  exact ⟨reason, hreason⟩

/-- The rows of some pages. -/
def issuesOf (pages : List IssuePage) : List SanitizedIssue := pages.flatMap IssuePage.issues

omit [Platform] in
theorem mem_issuesOf {pages : List IssuePage} {i : SanitizedIssue} :
    i ∈ issuesOf pages ↔ ∃ page ∈ pages, i ∈ page.issues := List.mem_flatMap

/-- The records of the rows of some pages. -/
def rowsOfPages (pages : List IssuePage) : List IssueRecord :=
  pages.flatMap fun page => page.issues.map (rowOf (sha256Json page.toJson))

theorem mapM_recordIssue {pageDigest headSha : String} {completedAt : DateTime}
    {issues : List SanitizedIssue} {rows : List IssueRecord} :
    issues.mapM (recordIssue pageDigest headSha completedAt) = .ok rows ↔
      (∀ i ∈ issues, IsRow headSha completedAt i) ∧ rows = issues.map (rowOf pageDigest) := by
  rw [mapM_eq_ok]
  constructor
  · intro h
    induction h with
    | nil => exact ⟨fun _ h => absurd h List.not_mem_nil, rfl⟩
    | cons hhead _ ih =>
      obtain ⟨hrow, rfl⟩ := recordIssue_eq_ok.mp hhead
      obtain ⟨hrows, rfl⟩ := ih
      exact ⟨List.forall_mem_cons.mpr ⟨hrow, hrows⟩, rfl⟩
  · rintro ⟨hrows, rfl⟩
    induction issues with
    | nil => exact .nil
    | cons i issues ih =>
      rw [List.forall_mem_cons] at hrows
      exact .cons (recordIssue_eq_ok.mpr ⟨hrows.1, rfl⟩) (ih hrows.2)

/-- **Which pages are gone through**, and what their rows are. -/
theorem recordPages_eq_ok {headSha : String} {completedAt : DateTime} {index : ℕ}
    {pages : List IssuePage} {rows : List IssueRecord} :
    recordPages headSha completedAt index pages = .ok rows ↔
      pages.map IssuePage.page = List.range' (index + 1) pages.length ∧
      (∀ page ∈ pages, ∀ i ∈ page.issues, IsRow headSha completedAt i) ∧ rows = rowsOfPages pages := by
  induction pages generalizing index rows with
  | nil =>
    rw [recordPages]
    exact ⟨fun h => ⟨rfl, fun _ h => absurd h List.not_mem_nil, (Except.ok.inj h).symm⟩,
      fun h => congrArg Except.ok h.2.2.symm⟩
  | cons page pages ih =>
    rw [recordPages, seq_eq_ok, bailIf_eq_ok, not_not, bind_eq_ok, List.map_cons, List.length_cons,
      List.range'_succ, List.cons.injEq, List.forall_mem_cons]
    constructor
    · rintro ⟨hpage, first, hfirst, h⟩
      obtain ⟨rest, hrest, heq⟩ := bind_eq_ok.mp h
      obtain ⟨hrows, rfl⟩ := mapM_recordIssue.mp hfirst
      obtain ⟨hnumbers, hall, rfl⟩ := ih.mp hrest
      exact ⟨⟨hpage, hnumbers⟩, ⟨hrows, hall⟩, (Except.ok.inj heq).symm⟩
    · rintro ⟨⟨hpage, hnumbers⟩, ⟨hrows, hall⟩, rfl⟩
      exact ⟨hpage, _, mapM_recordIssue.mpr ⟨hrows, rfl⟩, bind_eq_ok.mpr
        ⟨_, ih.mpr ⟨hnumbers, hall, rfl⟩, rfl⟩⟩

/-! ### Rows in another order -/

/-- A result without the digests that cover the bytes of pages. -/
def DiscoveryResult.withoutPageDigests (r : DiscoveryResult) : DiscoveryResult :=
  { r with
    responseDigests := []
    candidates := r.candidates.map fun c => { c with decisionDigest := "" }
    exclusionLedger := r.exclusionLedger.map fun e => { e with evidenceDigests := [] } }

omit [Platform] in
theorem insertionSort_core (records : List IssueRecord) :
    (records.map core).insertionSort Precedes = (records.insertionSort Precedes).map core :=
  (List.map_insertionSort Precedes Precedes core records fun _ _ _ _ => Iff.rfl).symm

theorem rankCandidates_core (request : DiscoveryRequest) (records : List IssueRecord) :
    (rankCandidates request (records.map core)).map (fun c => { c with decisionDigest := "" }) =
      (rankCandidates request records).map fun c => { c with decisionDigest := "" } := by
  rw [rankCandidates, rankCandidates, List.map_map, List.map_map, List.zipIdx_map, List.map_map]
  rfl

omit [Platform] in
theorem excludeRanked_core (beyondLimit : List IssueRecord) {candidates candidates' : List DiscoveryCandidate}
    (h : candidates'.map (fun c => { c with decisionDigest := "" }) =
      candidates.map fun c => { c with decisionDigest := "" })
    (exclusions : List (ℕ × List String)) :
    excludeRanked (beyondLimit.map core) candidates' exclusions =
      excludeRanked beyondLimit candidates exclusions := by
  have hblank (l : List DiscoveryCandidate) (start : List (ℕ × List String)) :
      (l.drop selectedLimit).foldl (fun exclusions candidate =>
        (candidate.issueNumber, ["not_selected_rank_" ++ toString candidate.rank]) :: exclusions) start =
      ((l.map fun c => { c with decisionDigest := "" }).drop selectedLimit).foldl
        (fun exclusions candidate =>
          (candidate.issueNumber, ["not_selected_rank_" ++ toString candidate.rank]) :: exclusions)
        start := by
    rw [← List.map_drop, List.foldl_map]
  rw [excludeRanked, excludeRanked, hblank, h, ← hblank, List.foldl_map]
  rfl

omit [Platform] in
theorem exclusionLedger_core (records : List IssueRecord) (selected : Option ℕ)
    (exclusions : List (ℕ × List String)) :
    (exclusionLedger (records.map core) selected exclusions).map
        (fun e => { e with evidenceDigests := [] }) =
      (exclusionLedger records selected exclusions).map fun e => { e with evidenceDigests := [] } := by
  rw [exclusionLedger, exclusionLedger, List.filterMap_map, List.map_filterMap, List.map_filterMap]
  refine List.filterMap_congr fun r _ => ?_
  rw [Function.comp_apply, ledgerEntry, ledgerEntry]
  by_cases hselected : some r.issue.number = selected
  · have hcore : some (core r).issue.number = selected := hselected
    rw [if_pos hselected, if_pos hcore]
  · have hcore : ¬ some (core r).issue.number = selected := hselected
    rw [if_neg hselected, if_neg hcore]
    rfl

/-- **What is reported but for the digests of pages** does not depend on the pages of the rows. -/
theorem discoveryResult_core (request : DiscoveryRequest) (sourceUrl : String)
    {digests digests' : List String} (hlength : digests'.length = digests.length)
    (records eligible : List IssueRecord) (exclusions : List (ℕ × List String)) :
    (discoveryResult request sourceUrl digests' (records.map core) (eligible.map core)
        exclusions).withoutPageDigests =
      (discoveryResult request sourceUrl digests records eligible exclusions).withoutPageDigests := by
  have hcandidates := rankCandidates_core request
    ((eligible.insertionSort Precedes).take request.candidateLimit)
  have hselected : (rankCandidates request
      (((eligible.insertionSort Precedes).take request.candidateLimit).map core)).head?.map
        DiscoveryCandidate.issueNumber =
      (rankCandidates request ((eligible.insertionSort Precedes).take request.candidateLimit)).head?.map
        DiscoveryCandidate.issueNumber := by
    have hhead := congrArg (fun l => l.head?.map DiscoveryCandidate.issueNumber) hcandidates
    rwa [List.head?_map, List.head?_map, Option.map_map, Option.map_map] at hhead
  rw [discoveryResult, discoveryResult, insertionSort_core, ← List.map_take, ← List.map_drop]
  simp only [DiscoveryResult.withoutPageDigests, hcandidates, hselected, hlength,
    excludeRanked_core _ hcandidates, exclusionLedger_core, List.map_map]
  rfl

/-! ### A discovery that succeeds -/

/-- What is checked before the rows. -/
structure Accepted (request : DiscoveryRequest) (env : PageEnvelope) (completedAt : DateTime)
    (sourceUrl : String) : Prop where
  limits : validateLimits request.snapshotLimit request.candidateLimit = .ok ()
  repository : validateRepository request.repository = .ok request.repository
  branch : requiredText "--default-branch" request.defaultBranch 255 = .ok request.defaultBranch
  head : validateSha "--head-sha" request.headSha = .ok request.headSha
  run : validateRunId request.runId = .ok ()
  completed : validateTimestamp "--completed-at" request.completedAt = .ok completedAt
  url : canonicalizeIssueListUrl request.url request.repository = .ok sourceUrl
  sameRepository : env.repository = request.repository
  sameBranch : env.defaultBranch = request.defaultBranch
  sameHead : env.headSha = request.headSha
  pages : env.pages ≠ [] ∧ env.pages.length ≤ maxPageCount

/-- The pages in their order. -/
def sortedPages (pages : List IssuePage) : List IssuePage :=
  pages.insertionSort fun a b => a.page ≤ b.page

/-- What the rows of some pages come to. -/
def stateOf (pages : List IssuePage) : Records := (rowsOfPages pages).foldl insertRecord ⟨[], ∅⟩

/-- What is checked of the rows. -/
structure AcceptedRows (request : DiscoveryRequest) (completedAt : DateTime) (pages : List IssuePage) :
    Prop where
  numbers : pages.map IssuePage.page = List.range' 1 pages.length
  rows : ∀ page ∈ pages, ∀ i ∈ page.issues, IsRow request.headSha completedAt i
  raw : (rowsOfPages pages).length ≤ maxRawRowCount
  unique : (stateOf pages).records.length ≤ request.snapshotLimit

omit [Platform] in
theorem validateRepository_eq_ok {value value' : String} (h : validateRepository value = .ok value') :
    value' = value := by
  rw [validateRepository] at h
  exact (Except.ok.inj (seq_eq_ok.mp h).2).symm

omit [Platform] in
theorem requiredText_eq_ok {flag value value' : String} {maxLen : ℕ}
    (h : requiredText flag value maxLen = .ok value') : value' = value := by
  rw [requiredText] at h
  exact (Except.ok.inj (seq_eq_ok.mp h).2).symm

omit [Platform] in
theorem validateSha_eq_ok {flag value value' : String} (h : validateSha flag value = .ok value') :
    value' = value := by
  rw [validateSha] at h
  exact (Except.ok.inj (seq_eq_ok.mp h).2).symm

/-- **What is known of a discovery that succeeds**, and all that it takes. -/
theorem discover_eq_ok {request : DiscoveryRequest} {env : PageEnvelope} {r : DiscoveryResult} :
    discover request (.ok env) = .ok r ↔ ∃ completedAt sourceUrl eligible exclusions,
      Accepted request env completedAt sourceUrl ∧
      AcceptedRows request completedAt (sortedPages env.pages) ∧
      partitionRecords (stateOf (sortedPages env.pages)).duplicates request.headSha
        (stateOf (sortedPages env.pages)).records = .ok (eligible, exclusions) ∧
      r = discoveryResult request sourceUrl
        ((sortedPages env.pages).map fun page => sha256Json page.toJson)
        (stateOf (sortedPages env.pages)).records eligible exclusions := by
  constructor
  · intro h
    rw [discover] at h
    obtain ⟨hlimits, h⟩ := seq_eq_ok.mp h
    obtain ⟨repository, hrepository, h⟩ := bind_eq_ok.mp h
    obtain ⟨branch, hbranch, h⟩ := bind_eq_ok.mp h
    obtain ⟨head, hhead, h⟩ := bind_eq_ok.mp h
    obtain ⟨hrun, h⟩ := seq_eq_ok.mp h
    obtain ⟨completedAt, hcompleted, h⟩ := bind_eq_ok.mp h
    obtain ⟨sourceUrl, hurl, h⟩ := bind_eq_ok.mp h
    obtain ⟨env', henv, h⟩ := bind_eq_ok.mp h
    obtain rfl := Except.ok.inj henv
    obtain rfl := validateRepository_eq_ok hrepository
    obtain rfl := requiredText_eq_ok hbranch
    obtain rfl := validateSha_eq_ok hhead
    obtain ⟨hidentity, h⟩ := seq_eq_ok.mp h
    obtain ⟨hcount, h⟩ := seq_eq_ok.mp h
    obtain ⟨rows, hrows, h⟩ := bind_eq_ok.mp h
    obtain ⟨hraw, h⟩ := seq_eq_ok.mp h
    obtain ⟨hunique, h⟩ := seq_eq_ok.mp h
    obtain ⟨⟨eligible, exclusions⟩, hpartition, h⟩ := bind_eq_ok.mp h
    rw [bailIf_eq_ok] at hidentity hcount hraw hunique
    simp only [not_or, not_not, ne_eq, Nat.not_lt] at hidentity hcount hraw hunique
    obtain ⟨hnumbers, hall, rfl⟩ := recordPages_eq_ok.mp hrows
    exact ⟨completedAt, sourceUrl, eligible, exclusions,
      ⟨hlimits, hrepository, hbranch, hhead, hrun, hcompleted, hurl, hidentity.1, hidentity.2.1,
        hidentity.2.2, hcount⟩, ⟨hnumbers, hall, hraw, hunique⟩, hpartition, (Except.ok.inj h).symm⟩
  · rintro ⟨completedAt, sourceUrl, eligible, exclusions, ha, hr, hpartition, rfl⟩
    have hidentity : ¬ (env.repository ≠ request.repository ∨
        env.defaultBranch ≠ request.defaultBranch ∨ env.headSha ≠ request.headSha) := by
      rintro (h | h | h)
      · exact h ha.sameRepository
      · exact h ha.sameBranch
      · exact h ha.sameHead
    have hcount : ¬ (env.pages = [] ∨ maxPageCount < env.pages.length) := by
      rintro (h | h)
      · exact ha.pages.1 h
      · exact absurd ha.pages.2 (Nat.not_le_of_lt h)
    rw [discover]
    refine seq_eq_ok.mpr ⟨ha.limits, bind_eq_ok.mpr ⟨_, ha.repository, bind_eq_ok.mpr ⟨_, ha.branch,
      bind_eq_ok.mpr ⟨_, ha.head, seq_eq_ok.mpr ⟨ha.run, bind_eq_ok.mpr ⟨_, ha.completed,
      bind_eq_ok.mpr ⟨_, ha.url, bind_eq_ok.mpr ⟨env, rfl, seq_eq_ok.mpr ⟨bailIf_eq_ok.mpr hidentity,
      seq_eq_ok.mpr ⟨bailIf_eq_ok.mpr hcount, bind_eq_ok.mpr ⟨_, recordPages_eq_ok.mpr
        ⟨hr.numbers, hr.rows, rfl⟩, seq_eq_ok.mpr ⟨bailIf_eq_ok.mpr (Nat.not_lt_of_le hr.raw),
      seq_eq_ok.mpr ⟨bailIf_eq_ok.mpr (Nat.not_lt_of_le hr.unique), bind_eq_ok.mpr
        ⟨_, hpartition, rfl⟩⟩⟩⟩⟩⟩⟩⟩⟩⟩⟩⟩⟩⟩

/-! ### Pages and rows in another order -/

omit [Platform] in
/-- **The pages in another order** are the same pages once they are sorted. -/
theorem sortedPages_perm {pages pages' : List IssuePage} (hperm : pages.Perm pages')
    (hnumbers : (sortedPages pages).map IssuePage.page =
      List.range' 1 (sortedPages pages).length) : sortedPages pages' = sortedPages pages := by
  have hsame : (sortedPages pages').Perm (sortedPages pages) :=
    (List.perm_insertionSort _ _).trans (hperm.symm.trans (List.perm_insertionSort _ _).symm)
  have hnodup : ((sortedPages pages).map IssuePage.page).Nodup := by
    rw [hnumbers]
    exact List.nodup_range'
  have hsorted (l : List IssuePage) : (sortedPages l).Pairwise fun a b => a.page ≤ b.page :=
    List.pairwise_insertionSort _ _
  have hantisymm : ∀ a b, a ∈ sortedPages pages' → b ∈ sortedPages pages → a.page ≤ b.page →
      b.page ≤ a.page → a = b := fun a b ha hb hab hba =>
    List.inj_on_of_nodup_map hnodup (hsame.mem_iff.mp ha) hb (le_antisymm hab hba)
  exact hsame.eq_of_pairwise hantisymm (hsorted _) (hsorted _)

/-- The same page but for the order of its rows. -/
structure Shuffled (page page' : IssuePage) : Prop where
  number : page'.page = page.page
  rows : page.issues.Perm page'.issues

omit [Platform] in
theorem shuffled_orderedInsert {page page' : IssuePage} {pages pages' : List IssuePage}
    (hpage : Shuffled page page') (hpages : List.Forall₂ Shuffled pages pages') :
    List.Forall₂ Shuffled (pages.orderedInsert (fun a b => a.page ≤ b.page) page)
      (pages'.orderedInsert (fun a b => a.page ≤ b.page) page') := by
  induction hpages with
  | nil => exact .cons hpage .nil
  | cons hhead htail ih =>
    rw [List.orderedInsert_cons, List.orderedInsert_cons, hpage.number, hhead.number]
    split_ifs
    · exact .cons hpage (.cons hhead htail)
    · exact .cons hhead ih

omit [Platform] in
theorem shuffled_sortedPages {pages pages' : List IssuePage}
    (h : List.Forall₂ Shuffled pages pages') :
    List.Forall₂ Shuffled (sortedPages pages) (sortedPages pages') := by
  induction h with
  | nil => exact .nil
  | cons hhead _ ih => exact shuffled_orderedInsert hhead ih

theorem core_rowsOfPages (pages : List IssuePage) : (rowsOfPages pages).map core =
    (issuesOf pages).map fun i => core (rowOf "" i) := by
  rw [rowsOfPages, issuesOf, List.map_flatMap, List.map_flatMap]
  refine List.flatMap_congr fun page _ => ?_
  rw [List.map_map]
  rfl

omit [Platform] in
theorem issues_shuffled {pages pages' : List IssuePage} (h : List.Forall₂ Shuffled pages pages') :
    (issuesOf pages).Perm (issuesOf pages') := by
  induction h with
  | nil => exact .nil
  | cons hhead _ ih => exact hhead.rows.append ih

omit [Platform] in
theorem toJson_injective : Function.Injective SanitizedIssue.toJson := by
  intro a b h
  obtain ⟨⟩ := a
  obtain ⟨⟩ := b
  have hstrs : Function.Injective Json.strs := fun l l' hl =>
    List.map_injective_iff.mpr (fun _ _ hs => Json.str.inj hs) (Json.arr.inj hl)
  simp only [SanitizedIssue.toJson, Json.obj.injEq, List.cons.injEq, Prod.mk.injEq, Json.str.injEq,
    Json.bool.injEq, Json.nat, Json.num.injEq, Int.natCast_inj, hstrs.eq_iff, true_and, and_true] at h
  obtain ⟨rfl, rfl, rfl, rfl, rfl, rfl, rfl, rfl, rfl, rfl, rfl, rfl, rfl, rfl, rfl, rfl, rfl⟩ := h
  rfl

/-- Rows with the same digest are the same. -/
def Distinguished (issues : List SanitizedIssue) : Prop :=
  ∀ i ∈ issues, ∀ j ∈ issues, sha256Json i.toJson = sha256Json j.toJson → i.toJson = j.toJson

theorem mem_rowsOfPages {pages : List IssuePage} {r : IssueRecord} : r ∈ rowsOfPages pages ↔
    ∃ page ∈ pages, ∃ i ∈ page.issues, rowOf (sha256Json page.toJson) i = r := by
  rw [rowsOfPages, List.mem_flatMap]
  exact exists_congr fun _ => and_congr_right' List.mem_map

theorem determined_rowsOfPages {pages : List IssuePage} (h : Distinguished (issuesOf pages)) :
    Determined (rowsOfPages pages) := by
  intro a ha b hb hsame
  obtain ⟨page, hpage, i, hi, rfl⟩ := mem_rowsOfPages.mp ha
  obtain ⟨page', hpage', j, hj, rfl⟩ := mem_rowsOfPages.mp hb
  obtain rfl : i = j := toJson_injective
    (h i (mem_issuesOf.mpr ⟨page, hpage, hi⟩) j (mem_issuesOf.mpr ⟨page', hpage', hj⟩) hsame)
  rfl

omit [Platform] in
theorem number_recordAt {records : List IssueRecord} (n : ℕ) :
    recordAt (records.map core) n = (recordAt records n).map core := by
  rw [recordAt, recordAt, List.find?_map]
  rfl

/-- What the rows come to is the same, but for the pages they are from. -/
theorem stateOf_shuffled {pages pages' : List IssuePage} (hsha : Distinguished (issuesOf pages))
    (h : List.Forall₂ Shuffled pages pages') :
    (stateOf pages').records.map core = (stateOf pages).records.map core ∧
      (stateOf pages').duplicates = (stateOf pages).duplicates ∧
      (rowsOfPages pages').length = (rowsOfPages pages).length := by
  have hperm : ((rowsOfPages pages').map core).Perm ((rowsOfPages pages).map core) := by
    rw [core_rowsOfPages, core_rowsOfPages]
    exact ((issues_shuffled h).map _).symm
  obtain ⟨hrising, hrecords, hduplicates⟩ := records_spec (rowsOfPages pages)
  obtain ⟨hrising', hrecords', hduplicates'⟩ := records_spec (rowsOfPages pages')
  refine ⟨?_, ?_, ?_⟩
  · refine Rising.ext (List.pairwise_map.mpr hrising') (List.pairwise_map.mpr hrising) fun n => ?_
    rw [number_recordAt, number_recordAt]
    exact (congrArg _ (hrecords' n)).trans ((core_combined hperm.symm
      (determined_rowsOfPages hsha) n).symm.trans (congrArg _ (hrecords n)).symm)
  · refine Finset.ext fun n => (hduplicates' n).trans (Iff.trans ?_ (hduplicates n).symm)
    have hcount (l : List IssueRecord) :
        (rowsAt l n).length = ((l.map core).filter (·.issue.number = n)).length := by
      rw [List.filter_map, List.length_map]
      rfl
    rw [hcount, hcount, (hperm.filter _).length_eq]
  · have hlength := hperm.length_eq
    rwa [List.length_map, List.length_map] at hlength

omit [Platform] in
theorem pages_shuffled {pages pages' : List IssuePage} (h : List.Forall₂ Shuffled pages pages') :
    pages'.map IssuePage.page = pages.map IssuePage.page := by
  induction h with
  | nil => rfl
  | cons hhead _ ih => rw [List.map_cons, List.map_cons, hhead.number, ih]

omit [Platform] in
theorem exists_shuffled {pages pages' : List IssuePage} (h : List.Forall₂ Shuffled pages pages')
    {page' : IssuePage} (hpage' : page' ∈ pages') : ∃ page ∈ pages, Shuffled page page' := by
  induction h with
  | nil => exact absurd hpage' List.not_mem_nil
  | cons hhead _ ih =>
    rcases List.mem_cons.mp hpage' with rfl | hmem
    · exact ⟨_, List.mem_cons_self, hhead⟩
    · obtain ⟨page, hpage, hshuffled⟩ := ih hmem
      exact ⟨page, List.mem_cons_of_mem _ hpage, hshuffled⟩

omit [Platform] in
theorem issuesOf_sortedPages (pages : List IssuePage) :
    (issuesOf (sortedPages pages)).Perm (issuesOf pages) :=
  (List.perm_insertionSort _ _).flatMap_right _

/-- **Rows in another order** change only digests that cover the bytes of pages. -/
theorem discover_shuffled {request : DiscoveryRequest} {env : PageEnvelope} {r : DiscoveryResult}
    (hsha : Distinguished (issuesOf env.pages)) (h : discover request (.ok env) = .ok r)
    {pages : List IssuePage} (hpages : List.Forall₂ Shuffled env.pages pages) :
    ∃ r', discover request (.ok { env with pages := pages }) = .ok r' ∧
      r'.withoutPageDigests = r.withoutPageDigests := by
  obtain ⟨completedAt, sourceUrl, eligible, exclusions, ha, hr, hpartition, rfl⟩ := discover_eq_ok.mp h
  have hsorted := shuffled_sortedPages hpages
  have hsha' : Distinguished (issuesOf (sortedPages env.pages)) := fun i hi j hj =>
    hsha i ((issuesOf_sortedPages _).mem_iff.mp hi) j ((issuesOf_sortedPages _).mem_iff.mp hj)
  obtain ⟨hrecords, hduplicates, hraw⟩ := stateOf_shuffled hsha' hsorted
  have hparts : (partitionRecords (stateOf (sortedPages pages)).duplicates request.headSha
      (stateOf (sortedPages pages)).records).map (fun parts => (parts.1.map core, parts.2)) =
      .ok (eligible.map core, exclusions) := by
    rw [← partitionRecords_core, hrecords, hduplicates, partitionRecords_core, hpartition]
    rfl
  obtain ⟨⟨eligible', exclusions'⟩, hpartition', heq⟩ := map_eq_ok.mp hparts
  obtain ⟨heligible, rfl⟩ := Prod.mk.inj heq
  refine ⟨discoveryResult request sourceUrl ((sortedPages pages).map fun page => sha256Json page.toJson)
    (stateOf (sortedPages pages)).records eligible' exclusions', discover_eq_ok.mpr
      ⟨completedAt, sourceUrl, eligible', exclusions', ?_, ?_, hpartition', rfl⟩, ?_⟩
  · refine { ha with pages := ⟨fun hnil => ?_, hpages.length_eq ▸ ha.pages.2⟩ }
    cases hnil
    exact ha.pages.1 (List.forall₂_nil_right_iff.mp hpages)
  · refine ⟨?_, fun page' hpage' i hi => ?_, hraw ▸ hr.raw, ?_⟩
    · rw [pages_shuffled hsorted, hr.numbers, hsorted.length_eq]
    · obtain ⟨page, hpage, hshuffled⟩ := exists_shuffled hsorted hpage'
      exact hr.rows page hpage i (hshuffled.rows.mem_iff.mpr hi)
    · have hlength := congrArg List.length hrecords
      rw [List.length_map, List.length_map] at hlength
      exact hlength ▸ hr.unique
  · rw [← discoveryResult_core request sourceUrl rfl, hrecords, heligible]
    refine discoveryResult_core request sourceUrl ?_ _ _ _
    rw [List.length_map, List.length_map, hsorted.length_eq]

/-- **Pages in another order** change nothing. -/
theorem discover_perm {request : DiscoveryRequest} {env : PageEnvelope} {r : DiscoveryResult}
    (h : discover request (.ok env) = .ok r) {pages : List IssuePage} (hperm : env.pages.Perm pages) :
    discover request (.ok { env with pages := pages }) = .ok r := by
  obtain ⟨completedAt, sourceUrl, eligible, exclusions, ha, hr, hpartition, rfl⟩ := discover_eq_ok.mp h
  have hsorted := sortedPages_perm hperm hr.numbers
  refine discover_eq_ok.mpr ⟨completedAt, sourceUrl, eligible, exclusions, ?_, ?_, ?_, ?_⟩
  · refine { ha with pages := ⟨fun hnil => ?_, hperm.length_eq ▸ ha.pages.2⟩ }
    cases hnil
    exact ha.pages.1 hperm.eq_nil
  · exact hsorted.symm ▸ hr
  · exact hsorted.symm ▸ hpartition
  · rw [hsorted]

/-! ### What is selected -/

/-- An issue that may be repaired: its row is the only one with its number, and says so. -/
def IsAdmissible (env : PageEnvelope) (i : SanitizedIssue) : Prop :=
  i ∈ issuesOf env.pages ∧ ((issuesOf env.pages).filter (·.number = i.number)).length = 1 ∧
    IsEligible env.headSha i

/-- The order of the issues: the latest first, and the lowest number where that is the same. -/
def Comes (i j : SanitizedIssue) : Prop :=
  ∃ t t', parseRfc3339 i.updatedAt = some t ∧ parseRfc3339 j.updatedAt = some t' ∧
    (t' < t ∨ t = t' ∧ i.number ≤ j.number)

/-- **What a discovery may report** of an envelope. -/
structure Sound (request : DiscoveryRequest) (env : PageEnvelope) (r : DiscoveryResult) : Prop where
  ranks : r.candidates.map DiscoveryCandidate.rank = List.range' 1 r.candidates.length
  limit : r.candidates.length ≤ request.candidateLimit
  admissible : ∀ c ∈ r.candidates, ∃ i, IsAdmissible env i ∧ i.number = c.issueNumber
  selected : ∀ n, r.selectedIssueNumber = some n ↔
    ∃ i, IsAdmissible env i ∧ i.number = n ∧ ∀ j, IsAdmissible env j → Comes i j
  unselected : r.selectedIssueNumber = none ↔ ∀ i, ¬ IsAdmissible env i
  single : ∀ n, 2 ≤ ((issuesOf env.pages).filter (·.number = n)).length →
    r.selectedIssueNumber ≠ some n
  once : (r.exclusionLedger.map ExclusionLedgerEntry.issueNumber).Nodup
  excluded : ∀ n, n ∈ r.exclusionLedger.map ExclusionLedgerEntry.issueNumber ↔
    (∃ i ∈ issuesOf env.pages, i.number = n) ∧ r.selectedIssueNumber ≠ some n
  reasons : ∀ e ∈ r.exclusionLedger, e.reasonCodes ≠ []
  evidence : ∀ e ∈ r.exclusionLedger, ∀ d, d ∈ e.evidenceDigests ↔ ∃ page ∈ env.pages,
    ∃ i ∈ page.issues, i.number = e.issueNumber ∧ (d = sha256Json i.toJson ∨ d = sha256Json page.toJson)
  responses : r.responseDigests = (sortedPages env.pages).map fun page => sha256Json page.toJson

omit [Platform] in
instance : Std.Total Precedes where
  total a b := by
    rw [Precedes, Precedes]
    rcases lt_trichotomy a.updatedAt b.updatedAt with h | h | h
    · exact .inr (.inl h)
    · rcases lt_trichotomy a.issue.number b.issue.number with hn | hn | hn
      · exact .inl (.inr ⟨h, .inl hn⟩)
      · rcases le_total a.contentDigest b.contentDigest with hd | hd
        · exact .inl (.inr ⟨h, .inr ⟨hn, hd⟩⟩)
        · exact .inr (.inr ⟨h.symm, .inr ⟨hn.symm, hd⟩⟩)
      · exact .inr (.inr ⟨h.symm, .inl hn⟩)
    · exact .inl (.inl h)

omit [Platform] in
instance : IsTrans IssueRecord Precedes where
  trans a b c := by
    rintro (hab | ⟨hab, hab'⟩) (hbc | ⟨hbc, hbc'⟩)
    · exact .inl (hbc.trans hab)
    · exact .inl (hbc ▸ hab)
    · exact .inl (hab ▸ hbc)
    · refine .inr ⟨hab.trans hbc, ?_⟩
      rcases hab' with hab' | ⟨hab', hd⟩ <;> rcases hbc' with hbc' | ⟨hbc', hd'⟩
      · exact .inl (hab'.trans hbc')
      · exact .inl (hbc' ▸ hab')
      · exact .inl (hab' ▸ hbc')
      · exact .inr ⟨hab'.trans hbc', hd.trans hd'⟩

/-- The rows with a number are as many as the records of rows. -/
theorem length_rowsAt (pages : List IssuePage) (n : ℕ) : (rowsAt (rowsOfPages pages) n).length =
    ((issuesOf pages).filter (·.number = n)).length := by
  have hissues : (rowsOfPages pages).map IssueRecord.issue = issuesOf pages := by
    rw [rowsOfPages, issuesOf, List.map_flatMap]
    refine List.flatMap_congr fun page _ => ?_
    rw [List.map_map]
    exact List.map_id _
  rw [← hissues, List.filter_map, List.length_map, rowsAt]
  rfl

/-- A record of some rows is what one of them says. -/
theorem exists_of_mem_records {pages : List IssuePage} {r : IssueRecord}
    (h : r ∈ (stateOf pages).records) : r.issue ∈ issuesOf pages ∧
      r.updatedAt = (parseRfc3339 r.issue.updatedAt).getD 0 := by
  obtain ⟨hrising, hrecords, -⟩ := records_spec (rowsOfPages pages)
  have hat := (recordAt_eq_some hrising).mpr ⟨h, rfl⟩
  rw [hrecords] at hat
  obtain ⟨⟨x, hx, hcore⟩, -⟩ := combined_eq_some hat
  obtain ⟨page, hpage, i, hi, rfl⟩ := mem_rowsOfPages.mp (List.mem_of_mem_filter hx)
  have hissue : r.issue = i := (congrArg IssueRecord.issue hcore :)
  have hdate : r.updatedAt = (parseRfc3339 i.updatedAt).getD 0 :=
    (congrArg IssueRecord.updatedAt hcore :)
  rw [hissue]
  exact ⟨mem_issuesOf.mpr ⟨page, hpage, hi⟩, hdate⟩

/-- There is a record for every number of a row. -/
theorem exists_record {pages : List IssuePage} {i : SanitizedIssue} (h : i ∈ issuesOf pages) :
    ∃ r ∈ (stateOf pages).records, r.issue.number = i.number := by
  obtain ⟨hrising, hrecords, -⟩ := records_spec (rowsOfPages pages)
  obtain ⟨page, hpage, hi⟩ := mem_issuesOf.mp h
  have hne : rowsAt (rowsOfPages pages) i.number ≠ [] := List.ne_nil_of_mem
    (List.mem_filter.mpr ⟨mem_rowsOfPages.mpr ⟨page, hpage, i, hi, rfl⟩, decide_eq_true rfl⟩)
  obtain ⟨r, hr⟩ := Option.isSome_iff_exists.mp (combined_isSome.mpr hne)
  rw [← hrecords] at hr
  exact ⟨r, (recordAt_eq_some hrising).mp hr⟩

theorem evidence_records {pages : List IssuePage} {r : IssueRecord}
    (h : r ∈ (stateOf pages).records) (d : String) : d ∈ evidenceDigests r ↔ ∃ page ∈ pages,
      ∃ i ∈ page.issues, i.number = r.issue.number ∧
        (d = sha256Json i.toJson ∨ d = sha256Json page.toJson) := by
  obtain ⟨hrising, hrecords, -⟩ := records_spec (rowsOfPages pages)
  have hat := (recordAt_eq_some hrising).mpr ⟨h, rfl⟩
  rw [hrecords] at hat
  obtain ⟨-, -, hevidence⟩ := combined_eq_some hat
  rw [evidenceDigests, Finset.mem_sort, hevidence]
  constructor
  · rintro ⟨x, hx, hd⟩
    obtain ⟨hx, hnumber⟩ := List.mem_filter.mp hx
    obtain ⟨page, hpage, i, hi, rfl⟩ := mem_rowsOfPages.mp hx
    rw [rowOf, Finset.mem_insert, Finset.mem_singleton] at hd
    exact ⟨page, hpage, i, hi, of_decide_eq_true hnumber, hd⟩
  · rintro ⟨page, hpage, i, hi, hnumber, hd⟩
    refine ⟨_, List.mem_filter.mpr ⟨mem_rowsOfPages.mpr ⟨page, hpage, i, hi, rfl⟩,
      decide_eq_true hnumber⟩, ?_⟩
    rwa [rowOf, Finset.mem_insert, Finset.mem_singleton]

omit [Platform] in
theorem eq_of_length_filter_eq_one {issues : List SanitizedIssue} {i j : SanitizedIssue}
    (hi : i ∈ issues) (hj : j ∈ issues) (hij : j.number = i.number)
    (hone : (issues.filter (·.number = i.number)).length = 1) : j = i := by
  obtain ⟨x, hx⟩ := List.length_eq_one_iff.mp hone
  have hi' : i ∈ issues.filter (·.number = i.number) := List.mem_filter.mpr ⟨hi, decide_eq_true rfl⟩
  have hj' : j ∈ issues.filter (·.number = i.number) := List.mem_filter.mpr ⟨hj, decide_eq_true hij⟩
  rw [hx, List.mem_singleton] at hi' hj'
  exact hj'.trans hi'.symm

/-- **The records that may be repaired** are those of the admissible issues. -/
theorem mem_repairable {env : PageEnvelope} {pages : List IssuePage}
    (hpages : (issuesOf pages).Perm (issuesOf env.pages)) {i : SanitizedIssue} :
    (∃ r ∈ (stateOf pages).records.filter (IsRepairable (stateOf pages).duplicates env.headSha),
      r.issue = i) ↔ IsAdmissible env i := by
  obtain ⟨-, -, hduplicates⟩ := records_spec (rowsOfPages pages)
  have hcount (n : ℕ) : n ∈ (stateOf pages).duplicates ↔
      2 ≤ ((issuesOf env.pages).filter (·.number = n)).length := by
    rw [← (hpages.filter _).length_eq, ← length_rowsAt]
    exact hduplicates n
  rw [IsAdmissible]
  constructor
  · rintro ⟨r, hr, rfl⟩
    obtain ⟨hr, hrepairable⟩ := List.mem_filter.mp hr
    obtain ⟨hduplicate, heligible⟩ := of_decide_eq_true hrepairable
    have hmem := hpages.mem_iff.mp (exists_of_mem_records hr).1
    have hself : r.issue ∈ (issuesOf env.pages).filter (·.number = r.issue.number) :=
      List.mem_filter.mpr ⟨hmem, decide_eq_true rfl⟩
    have hpos := List.length_pos_of_mem hself
    rw [hcount] at hduplicate
    exact ⟨hmem, by omega, heligible⟩
  · rintro ⟨hmem, hone, heligible⟩
    obtain ⟨r, hr, hnumber⟩ := exists_record (hpages.mem_iff.mpr hmem)
    obtain rfl : r.issue = i := eq_of_length_filter_eq_one hmem
      (hpages.mem_iff.mp (exists_of_mem_records hr).1) hnumber hone
    refine ⟨r, List.mem_filter.mpr ⟨hr, decide_eq_true ⟨?_, heligible⟩⟩, rfl⟩
    rw [hcount, hone]
    exact Nat.not_succ_le_self 1

omit [Platform] in
theorem excludeRanked_reasons {beyondLimit : List IssueRecord} {candidates : List DiscoveryCandidate}
    {exclusions : List (ℕ × List String)} (h : ∀ entry ∈ exclusions, entry.2 ≠ []) :
    ∀ entry ∈ excludeRanked beyondLimit candidates exclusions, entry.2 ≠ [] := by
  have hfold {α : Type} (f : α → ℕ × List String) (hf : ∀ a, (f a).2 ≠ []) (l : List α)
      (start : List (ℕ × List String)) (hstart : ∀ entry ∈ start, entry.2 ≠ []) :
      ∀ entry ∈ l.foldl (fun entries a => f a :: entries) start, entry.2 ≠ [] := by
    induction l generalizing start with
    | nil => exact hstart
    | cons a l ih => exact ih _ (List.forall_mem_cons.mpr ⟨hf a, hstart⟩)
  exact hfold (fun c : DiscoveryCandidate => (c.issueNumber, ["not_selected_rank_" ++ toString c.rank]))
    (fun _ => List.cons_ne_nil _ _) _ _
    (hfold (fun r : IssueRecord => (r.issue.number, ["candidate_limit_exceeded"])) (fun _ => List.cons_ne_nil _ _)
      _ _ h)

omit [Platform] in
theorem lookup_reasons {exclusions : List (ℕ × List String)} (h : ∀ entry ∈ exclusions, entry.2 ≠ [])
    (n : ℕ) : (exclusions.lookup n).getD ["not_selected_candidate"] ≠ [] := by
  induction exclusions with
  | nil => exact List.cons_ne_nil _ _
  | cons entry exclusions ih =>
    rw [List.forall_mem_cons] at h
    rw [List.lookup_cons]
    cases n == entry.1 with
    | true => exact h.1
    | false => exact ih h.2

omit [Platform] in
theorem issueNumber_exclusionLedger (records : List IssueRecord) (selected : Option ℕ)
    (exclusions : List (ℕ × List String)) :
    (exclusionLedger records selected exclusions).map ExclusionLedgerEntry.issueNumber =
      (records.map fun r => r.issue.number).filter (some · ≠ selected) := by
  induction records with
  | nil => rfl
  | cons r records ih =>
    rw [exclusionLedger] at ih ⊢
    rw [List.filterMap_cons, ledgerEntry, List.map_cons, List.filter_cons]
    split_ifs with hselected hnot hnot
    · exact absurd hselected (of_decide_eq_true hnot)
    · exact ih
    · exact congrArg _ ih
    · exact absurd (decide_eq_true hselected) hnot

/-- **The first of the ranking** is selected. -/
theorem selectedIssueNumber_eq {request : DiscoveryRequest} (hlimit : 1 ≤ request.candidateLimit)
    (sourceUrl : String) (responseDigests : List String) (records eligible : List IssueRecord)
    (exclusions : List (ℕ × List String)) :
    (discoveryResult request sourceUrl responseDigests records eligible exclusions).selectedIssueNumber =
      (eligible.insertionSort Precedes).head?.map fun r => r.issue.number := by
  rw [discoveryResult]
  dsimp only
  obtain ⟨limit, hlimit⟩ := Nat.exists_eq_add_of_le' hlimit
  rw [hlimit]
  cases eligible.insertionSort Precedes with
  | nil => rfl
  | cons first rest => rfl

theorem candidates_eq (request : DiscoveryRequest) (sourceUrl : String)
    (responseDigests : List String) (records eligible : List IssueRecord)
    (exclusions : List (ℕ × List String)) :
    (discoveryResult request sourceUrl responseDigests records eligible exclusions).candidates =
      rankCandidates request ((eligible.insertionSort Precedes).take request.candidateLimit) := rfl

/-- **The selected issue** is the first of those that may be repaired. -/
theorem selected_spec {env : PageEnvelope} {eligible : List IssueRecord}
    (hmem : ∀ i, (∃ r ∈ eligible, r.issue = i) ↔ IsAdmissible env i)
    (hdates : ∀ r ∈ eligible, parseRfc3339 r.issue.updatedAt = some r.updatedAt) (n : ℕ) :
    (eligible.insertionSort Precedes).head?.map (fun r => r.issue.number) = some n ↔
      ∃ i, IsAdmissible env i ∧ i.number = n ∧ ∀ j, IsAdmissible env j → Comes i j := by
  have hsorted := List.pairwise_insertionSort Precedes eligible
  have hperm := List.perm_insertionSort Precedes eligible
  cases hranked : eligible.insertionSort Precedes with
  | nil =>
    rw [hranked] at hperm
    obtain rfl := hperm.nil_eq.symm
    refine ⟨fun h => (by cases h), ?_⟩
    rintro ⟨i, hi, -⟩
    obtain ⟨r, hr, -⟩ := (hmem i).mpr hi
    exact absurd hr List.not_mem_nil
  | cons first rest =>
    rw [hranked] at hsorted hperm
    have hfirst : first ∈ eligible := hperm.mem_iff.mp List.mem_cons_self
    have hcomes : ∀ j, IsAdmissible env j → Comes first.issue j := by
      intro j hj
      obtain ⟨r, hr, rfl⟩ := (hmem j).mpr hj
      refine ⟨_, _, hdates first hfirst, hdates r hr, ?_⟩
      rcases List.mem_cons.mp (hperm.mem_iff.mpr hr) with rfl | hrest
      · exact .inr ⟨rfl, le_refl _⟩
      · rcases (List.pairwise_cons.mp hsorted).1 r hrest with h | ⟨hdate, h | ⟨h, -⟩⟩
        · exact .inl h
        · exact .inr ⟨hdate, h.le⟩
        · exact .inr ⟨hdate, h.le⟩
    rw [List.head?_cons, Option.map_some, Option.some.injEq]
    constructor
    · rintro rfl
      exact ⟨first.issue, (hmem _).mp ⟨first, hfirst, rfl⟩, rfl, hcomes⟩
    · rintro ⟨i, hi, rfl, hleast⟩
      obtain ⟨t, t', ht, ht', hle⟩ := hcomes i hi
      obtain ⟨s, s', hs, hs', hge⟩ := hleast first.issue ((hmem _).mp ⟨first, hfirst, rfl⟩)
      obtain rfl := Option.some.inj (ht.symm.trans hs')
      obtain rfl := Option.some.inj (ht'.symm.trans hs)
      rcases hle with hlt | ⟨heq, hle⟩
      · rcases hge with hgt | ⟨heq, -⟩
        · exact absurd (hlt.trans hgt) (lt_irrefl _)
        · exact absurd (heq ▸ hlt) (lt_irrefl _)
      · rcases hge with hgt | ⟨-, hge⟩
        · exact absurd (heq ▸ hgt) (lt_irrefl _)
        · exact le_antisymm hle hge

/-- **A discovery is sound.** -/
theorem sound_of_discover {request : DiscoveryRequest} {env : PageEnvelope} {r : DiscoveryResult}
    (h : discover request (.ok env) = .ok r) : Sound request env r := by
  obtain ⟨completedAt, sourceUrl, eligible, exclusions, ha, hr, hpartition, rfl⟩ := discover_eq_ok.mp h
  have hpages := issuesOf_sortedPages env.pages
  have hrow : ∀ record ∈ (stateOf (sortedPages env.pages)).records,
      IsRow request.headSha completedAt record.issue := fun record hrecord => by
    obtain ⟨page, hpage, hi⟩ := mem_issuesOf.mp (exists_of_mem_records hrecord).1
    exact hr.rows page hpage _ hi
  obtain ⟨exclusions', hpartition', hreasons⟩ :=
    @partitionRecords_spec (stateOf (sortedPages env.pages)).duplicates request.headSha _
      fun record hrecord => (hrow record hrecord).spec.2
  obtain ⟨rfl, rfl⟩ := Prod.mk.inj (Except.ok.inj (hpartition'.symm.trans hpartition))
  have hmem (i : SanitizedIssue) := @mem_repairable _ env _ hpages i
  rw [ha.sameHead] at hmem
  have hdates : ∀ record ∈ (stateOf (sortedPages env.pages)).records.filter
      (IsRepairable (stateOf (sortedPages env.pages)).duplicates request.headSha),
      parseRfc3339 record.issue.updatedAt = some record.updatedAt := fun record hrecord => by
    have hrecord := List.mem_of_mem_filter hrecord
    obtain ⟨t, ht⟩ := (hrow record hrecord).spec.1
    rw [(exists_of_mem_records hrecord).2, ht]
    rfl
  have hlimit : 1 ≤ request.candidateLimit := by
    have hlimits := ha.limits
    simp only [validateLimits, seq_eq_ok, bailIf_eq_ok, not_not] at hlimits
    exact hlimits.2.1
  obtain ⟨hrising, -, hduplicates⟩ := records_spec (rowsOfPages (sortedPages env.pages))
  have hselected := selected_spec hmem hdates
  have hnumber (n : ℕ) : n ∈ (stateOf (sortedPages env.pages)).records.map (fun r => r.issue.number) ↔
      ∃ i ∈ issuesOf env.pages, i.number = n := by
    rw [List.mem_map]
    constructor
    · rintro ⟨r, hr, rfl⟩
      exact ⟨r.issue, hpages.mem_iff.mp (exists_of_mem_records hr).1, rfl⟩
    · rintro ⟨i, hi, rfl⟩
      exact exists_record (hpages.mem_iff.mpr hi)
  have hadmissible : ∀ i n, IsAdmissible env i → i.number = n →
      ¬ 2 ≤ ((issuesOf env.pages).filter (·.number = n)).length := by
    rintro i n hi rfl htwo
    rw [hi.2.1] at htwo
    exact absurd htwo (Nat.not_succ_le_self 1)
  exact {
    ranks := by
      rw [candidates_eq, rankCandidates, List.map_map, List.length_map, List.length_zipIdx]
      exact List.zipIdx_map_snd _ _
    limit := by
      rw [candidates_eq, rankCandidates, List.length_map, List.length_zipIdx]
      exact List.length_take_le _ _
    admissible := fun c hc => by
      rw [candidates_eq, rankCandidates] at hc
      obtain ⟨⟨record, rank⟩, hrank, rfl⟩ := List.mem_map.mp hc
      have hrecord := List.mem_of_mem_take (List.fst_mem_of_mem_zipIdx hrank)
      exact ⟨record.issue, (hmem _).mp
        ⟨record, (List.perm_insertionSort _ _).mem_iff.mp hrecord, rfl⟩, rfl⟩
    selected := fun n => by
      rw [selectedIssueNumber_eq hlimit]
      exact hselected n
    unselected := by
      rw [selectedIssueNumber_eq hlimit, Option.map_eq_none_iff, List.head?_eq_none_iff,
        ← List.length_eq_zero_iff, List.length_insertionSort, List.length_eq_zero_iff,
        List.eq_nil_iff_forall_not_mem]
      constructor
      · intro hnone i hi
        obtain ⟨record, hrecord, -⟩ := (hmem i).mpr hi
        exact hnone record hrecord
      · exact fun hnone record hrecord => hnone _ ((hmem _).mp ⟨record, hrecord, rfl⟩)
    single := fun n htwo => by
      rw [selectedIssueNumber_eq hlimit]
      intro hn
      obtain ⟨i, hi, hin, -⟩ := (hselected n).mp hn
      exact hadmissible i n hi hin htwo
    once := by
      rw [discoveryResult, issueNumber_exclusionLedger]
      exact (List.pairwise_map.mpr (hrising.imp ne_of_lt)).filter _
    excluded := fun n => by
      rw [discoveryResult, issueNumber_exclusionLedger, List.mem_filter, hnumber, decide_eq_true_eq]
      exact and_congr_right' ne_comm
    reasons := fun e he => by
      obtain ⟨record, -, hentry⟩ := List.mem_filterMap.mp he
      rw [ledgerEntry] at hentry
      split_ifs at hentry
      rw [← Option.some.inj hentry]
      exact lookup_reasons (excludeRanked_reasons hreasons) _
    evidence := fun e he d => by
      obtain ⟨record, hrecord, hentry⟩ := List.mem_filterMap.mp he
      rw [ledgerEntry] at hentry
      split_ifs at hentry
      rw [← Option.some.inj hentry]
      refine (evidence_records hrecord d).trans (exists_congr fun page => and_congr_left' ?_)
      exact (List.perm_insertionSort _ _).mem_iff
    responses := rfl }

/-- **A discovery selects soundly, completely and whatever the order** of the pages and of the rows
inside them: these change only digests that cover the bytes of pages. -/
theorem discover_sound {request : DiscoveryRequest} {env : PageEnvelope} {r : DiscoveryResult}
    (hsha : Distinguished (issuesOf env.pages)) (h : discover request (.ok env) = .ok r) :
    Sound request env r ∧
      (∀ pages, env.pages.Perm pages → discover request (.ok { env with pages := pages }) = .ok r) ∧
      ∀ pages, List.Forall₂ Shuffled env.pages pages →
        ∃ r', discover request (.ok { env with pages := pages }) = .ok r' ∧
          Sound request { env with pages := pages } r' ∧ r'.withoutPageDigests = r.withoutPageDigests := by
  refine ⟨sound_of_discover h, fun pages => discover_perm h, fun pages hpages => ?_⟩
  obtain ⟨r', hr', hsame⟩ := discover_shuffled hsha h hpages
  exact ⟨r', hr', sound_of_discover hr', hsame⟩

end

/-! ### An envelope -/

def sampleIssue (number : ℕ) : SanitizedIssue where
  number := number
  state := "open"
  updatedAt := "2026-07-20T12:00:00Z"
  title := "Sanitized issue " ++ toString number
  body := "Sanitized bounded discovery fixture."
  labels := ["bug"]
  classification := "bug"
  reportedHeadSha := "1111111111111111111111111111111111111111"
  fixPresentAtHead := false
  environmentAccessible := true
  securitySensitive := false
  targetInRepository := true
  noExistingFix := true
  publicReproductionFeasible := true
  deterministicLocalReproduction := true
  expectedBehaviorSource := "tests"
  boundedPolicyCompatible := true

def samplePage : IssuePage := ⟨1, [sampleIssue 101, sampleIssue 102]⟩

def sampleEnvelope : PageEnvelope where
  repository := "uesugitorachiyo/ao2"
  defaultBranch := "main"
  headSha := "1111111111111111111111111111111111111111"
  pages := [samplePage]

def sampleRequest : DiscoveryRequest where
  url := "https://github.com/uesugitorachiyo/ao2/issues"
  repository := "uesugitorachiyo/ao2"
  defaultBranch := "main"
  headSha := "1111111111111111111111111111111111111111"
  runId := "repair-run-20260728"
  completedAt := "2026-07-28T00:00:00Z"
  snapshotLimit := 50
  candidateLimit := 10

/-- The decision on a row with a digest. -/
def sampleDecision (number rank : ℕ) (digest : String) : CandidateDecision :=
  candidateDecision ⟨sampleIssue number, digest, 0,
      {digest, "c15ae534dfed5eee110312628c4149abe71e7ce420e440beeeb791702e69e7a8"}⟩
    "uesugitorachiyo/ao2" "1111111111111111111111111111111111111111" "repair-run-20260728" rank
    "2026-07-28T00:00:00Z"

def sampleDigests : List (Json × String) :=
  [((sampleIssue 101).toJson, "0b1ecc8dfea6559cc03d3d5e76b1785074d9d1cce2108a92bcb7e67c3b19d27d"),
    ((sampleIssue 102).toJson, "2729a46fba7bb8e7484a88fc97ed2b76f2fc0fc18c8941f396909e667da4f0ab"),
    (samplePage.toJson, "c15ae534dfed5eee110312628c4149abe71e7ce420e440beeeb791702e69e7a8"),
    ((sampleDecision 101 1 "0b1ecc8dfea6559cc03d3d5e76b1785074d9d1cce2108a92bcb7e67c3b19d27d").toJson,
      "aed098c22ef6bb3234034c762393aabcecd79550f1cf21949aa303d5486e7556"),
    ((sampleDecision 102 2 "2729a46fba7bb8e7484a88fc97ed2b76f2fc0fc18c8941f396909e667da4f0ab").toJson,
      "d29ab0e7718977a4a0b3a0e7d6651ccb4452e1c76fc76027bd8f78e82ab6952d")]

/-- The dates of the envelope, in seconds. -/
@[reducible] def samplePlatform : Platform :=
  tablePlatform sampleDigests [("2026-07-20T12:00:00Z", 1784548800000000000),
    ("2026-07-28T00:00:00Z", 1785196800000000000)]

section

attribute [local instance] samplePlatform

theorem distinguished_sample : Distinguished (issuesOf sampleEnvelope.pages) := fun _ _ _ _ h =>
  tableOrSpell_injective (by decide) (by decide +kernel) h

theorem isAdmissible_sample : IsAdmissible sampleEnvelope (sampleIssue 101) :=
  ⟨List.mem_cons_self, rfl, by decide⟩

/-- Of two issues of the same date the one with the lowest number is selected. -/
theorem discover_sound_sample : ∃ r, discover sampleRequest (.ok sampleEnvelope) = .ok r ∧
    r.selectedIssueNumber = some 101 := by
  obtain ⟨r, hr⟩ : ∃ r, discover sampleRequest (.ok sampleEnvelope) = .ok r := ⟨_, rfl⟩
  obtain ⟨hsound, -, -⟩ := discover_sound distinguished_sample hr
  refine ⟨r, hr, (hsound.selected 101).mpr ⟨_, isAdmissible_sample, rfl, fun j hj => ?_⟩⟩
  refine ⟨_, _, rfl, ?_, .inr ⟨rfl, ?_⟩⟩
  all_goals
    have hmem : j ∈ [sampleIssue 101, sampleIssue 102] := hj.1
    rcases List.mem_cons.mp hmem with rfl | hmem
  · rfl
  · rw [List.mem_singleton.mp hmem]
    rfl
  · exact le_refl _
  · rw [List.mem_singleton.mp hmem]
    exact Nat.le_succ 101

end

end Discovery

end Issues

end Ao2
