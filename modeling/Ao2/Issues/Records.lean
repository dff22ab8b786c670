import Ao2.Issues.Discovery
import Mathlib.Data.List.Induction

/-!
# The records of the rows

Rows with the same number are one record, whatever their order and their pages, and a record has a
reason not to be repaired just when its issue may not be.

## Main results

* `records_spec` — the records are what the rows with their numbers come to
* `core_combined` — whatever the order of the rows
-/

namespace Ao2

namespace Issues

namespace Discovery

/-! ### Records by their numbers -/

/-- The record with a number. -/
def recordAt (records : List IssueRecord) (n : ℕ) : Option IssueRecord :=
  records.find? (·.issue.number = n)

/-- The records stand in the order of their numbers, none of them twice. -/
def Rising (records : List IssueRecord) : Prop :=
  records.Pairwise fun a b => a.issue.number < b.issue.number

theorem recordAt_eq_some {records : List IssueRecord} (h : Rising records) {n : ℕ} {r : IssueRecord} :
    recordAt records n = some r ↔ r ∈ records ∧ r.issue.number = n := by
  induction records with
  | nil => exact ⟨fun h => (by cases h), fun h => absurd h.1 List.not_mem_nil⟩
  | cons a records ih =>
    obtain ⟨ha, hrest⟩ := List.pairwise_cons.mp h
    rw [recordAt, List.find?_cons]
    by_cases hn : a.issue.number = n
    · rw [decide_eq_true hn]
      constructor
      · intro heq
        obtain rfl := Option.some.inj heq
        exact ⟨List.mem_cons_self, hn⟩
      · rintro ⟨hr, hrn⟩
        rcases List.mem_cons.mp hr with rfl | hr
        · rfl
        · have := ha r hr
          omega
    · rw [decide_eq_false hn]
      refine (ih hrest).trans (and_congr_left fun hrn => ?_)
      rw [List.mem_cons]
      refine ⟨.inr, fun hr => hr.resolve_left ?_⟩
      rintro rfl
      exact hn hrn

theorem recordAt_eq_none {records : List IssueRecord} {n : ℕ} :
    recordAt records n = none ↔ ∀ r ∈ records, r.issue.number ≠ n := by
  rw [recordAt, List.find?_eq_none]
  exact forall₂_congr fun r _ => by rw [decide_eq_true_eq]

theorem recordAt_putRecord {record : IssueRecord} {records : List IssueRecord}
    (hnew : ∀ r ∈ records, r.issue.number ≠ record.issue.number) (n : ℕ) :
    recordAt (putRecord record records) n =
      if record.issue.number = n then some record else recordAt records n := by
  induction records with
  | nil =>
    rw [putRecord, List.orderedInsert_nil, recordAt, List.find?_cons]
    by_cases hn : record.issue.number = n
    · rw [decide_eq_true hn, if_pos hn]
    · rw [decide_eq_false hn, if_neg hn]
      rfl
  | cons a records ih =>
    rw [List.forall_mem_cons] at hnew
    rw [putRecord, List.orderedInsert_cons]
    split_ifs with hle hn hn
    · rw [recordAt, List.find?_cons, decide_eq_true hn]
    · rw [recordAt, List.find?_cons, decide_eq_false hn]
      rfl
    · have hrest := ih hnew.2
      rw [if_pos hn, recordAt, putRecord] at hrest
      rw [recordAt, List.find?_cons, decide_eq_false (fun h => hnew.1 (h.trans hn.symm)), hrest]
    · have hrest := ih hnew.2
      rw [if_neg hn, recordAt, putRecord] at hrest
      rw [recordAt, List.find?_cons, hrest, recordAt, recordAt, List.find?_cons]

theorem Rising.putRecord {record : IssueRecord} {records : List IssueRecord} (h : Rising records)
    (hnew : ∀ r ∈ records, r.issue.number ≠ record.issue.number) :
    Rising (putRecord record records) := by
  have hperm := List.perm_orderedInsert (fun a b : IssueRecord => a.issue.number ≤ b.issue.number)
    record records
  induction records with
  | nil => exact List.pairwise_singleton _ _
  | cons a records ih =>
    obtain ⟨ha, hrest⟩ := List.pairwise_cons.mp h
    rw [List.forall_mem_cons] at hnew
    rw [Discovery.putRecord, List.orderedInsert_cons]
    split_ifs with hle
    · refine List.pairwise_cons.mpr ⟨fun r hr => ?_, h⟩
      have hlt : record.issue.number < a.issue.number := lt_of_le_of_ne hle (Ne.symm hnew.1)
      rcases List.mem_cons.mp hr with rfl | hr
      · exact hlt
      · exact hlt.trans (ha r hr)
    · refine List.pairwise_cons.mpr ⟨fun r hr => ?_, ih hrest hnew.2 (List.perm_orderedInsert _ _ _)⟩
      rcases List.mem_cons.mp ((List.perm_orderedInsert _ _ _).mem_iff.mp hr) with rfl | hr
      · omega
      · exact ha r hr

theorem recordAt_filter_ne (records : List IssueRecord) (m n : ℕ) :
    recordAt (records.filter (·.issue.number ≠ m)) n = if n = m then none else recordAt records n := by
  rw [recordAt, List.find?_filter]
  split_ifs with hn
  · refine List.find?_eq_none.mpr fun r _ h => ?_
    simp only [decide_eq_true_eq] at h
    exact h.1 (h.2.trans hn)
  · refine congrArg (List.find? · records) (funext fun r => ?_)
    rw [decide_eq_decide, decide_eq_true_eq, decide_eq_true_eq, and_iff_right_iff_imp]
    exact fun hr hm => hn (hr.symm.trans hm)

theorem number_mergeRecords {existing record : IssueRecord}
    (h : existing.issue.number = record.issue.number) :
    (mergeRecords existing record).issue.number = existing.issue.number := by
  rw [mergeRecords]
  split_ifs
  · exact h.symm
  · rfl

/-- A row and what there is with its number. -/
def withRow (record : IssueRecord) : Option IssueRecord → IssueRecord
  | none => record
  | some existing => mergeRecords existing record

/-- **What a row changes**: the record with its number, and whether that number is there twice. -/
theorem insertRecord_spec {state : Records} (h : Rising state.records) (record : IssueRecord) :
    Rising (insertRecord state record).records ∧
      (∀ n, recordAt (insertRecord state record).records n =
        if record.issue.number = n then some (withRow record (recordAt state.records n))
        else recordAt state.records n) ∧
      ∀ n, n ∈ (insertRecord state record).duplicates ↔ n ∈ state.duplicates ∨
        record.issue.number = n ∧ (recordAt state.records n).isSome = true := by
  rw [insertRecord]
  cases hfind : state.records.find? (·.issue.number = record.issue.number) with
  | none =>
    have hnew := recordAt_eq_none.mp hfind
    refine ⟨h.putRecord hnew, fun n => ?_, fun n => ?_⟩
    · dsimp only
      rw [recordAt_putRecord hnew]
      split_ifs with hn
      · subst hn
        rw [recordAt, hfind]
        rfl
      · rfl
    · refine ⟨.inl, fun hmem => hmem.resolve_right ?_⟩
      rintro ⟨rfl, hsome⟩
      rw [recordAt, hfind] at hsome
      exact Bool.noConfusion hsome
  | some existing =>
    obtain ⟨hmem, hnumber⟩ := (recordAt_eq_some h).mp hfind
    have hmerged := number_mergeRecords hnumber
    have hnew : ∀ r ∈ state.records.filter (·.issue.number ≠ record.issue.number),
        r.issue.number ≠ (mergeRecords existing record).issue.number := fun r hr => by
      rw [hmerged, hnumber]
      exact of_decide_eq_true (List.mem_filter.mp hr).2
    refine ⟨Rising.putRecord (List.Pairwise.filter _ h) hnew, fun n => ?_, fun n => ?_⟩
    · dsimp only
      rw [recordAt_putRecord hnew, hmerged, hnumber, recordAt_filter_ne]
      split_ifs with hn hn'
      · subst hn
        rw [recordAt, hfind]
        rfl
      · exact absurd hn'.symm hn
      · rfl
    · dsimp only
      rw [Finset.mem_insert, or_comm]
      refine or_congr_right ⟨?_, fun h => h.1.symm⟩
      rintro rfl
      refine ⟨rfl, ?_⟩
      rw [recordAt, hfind]
      rfl

/-- What the rows with a number come to. -/
def combined (rows : List IssueRecord) (n : ℕ) : Option IssueRecord :=
  match rows.filter (·.issue.number = n) with
  | [] => none
  | record :: rest => some (rest.foldl mergeRecords record)

theorem combined_concat (rows : List IssueRecord) (record : IssueRecord) (n : ℕ) :
    combined (rows ++ [record]) n =
      if record.issue.number = n then some (withRow record (combined rows n)) else combined rows n := by
  rw [combined, combined, List.filter_append, List.filter_singleton]
  split_ifs with hn
  · rw [decide_eq_true hn, cond_true]
    cases rows.filter (·.issue.number = n) with
    | nil => rfl
    | cons first rest =>
      dsimp only [List.cons_append]
      rw [List.foldl_concat]
      rfl
  · rw [decide_eq_false hn, cond_false, List.append_nil]

/-- The rows with a number. -/
def rowsAt (rows : List IssueRecord) (n : ℕ) : List IssueRecord :=
  rows.filter (·.issue.number = n)

theorem combined_isSome {rows : List IssueRecord} {n : ℕ} :
    (combined rows n).isSome = true ↔ rowsAt rows n ≠ [] := by
  rw [combined, rowsAt]
  cases rows.filter (·.issue.number = n) with
  | nil => exact ⟨fun h => Bool.noConfusion h, fun h => absurd rfl h⟩
  | cons first rest => exact ⟨fun _ => List.cons_ne_nil _ _, fun _ => rfl⟩

/-- **The records** are what the rows with their numbers come to, and the duplicates are the numbers
of more than one row. -/
theorem records_spec (rows : List IssueRecord) :
    Rising (rows.foldl insertRecord ⟨[], ∅⟩).records ∧
      (∀ n, recordAt (rows.foldl insertRecord ⟨[], ∅⟩).records n = combined rows n) ∧
      ∀ n, n ∈ (rows.foldl insertRecord ⟨[], ∅⟩).duplicates ↔ 2 ≤ (rowsAt rows n).length := by
  induction rows using List.reverseRecOn with
  | nil =>
    refine ⟨List.Pairwise.nil, fun _ => rfl, fun n => ?_⟩
    exact ⟨fun h => absurd h (Finset.notMem_empty n), fun h => absurd h (Nat.not_succ_le_zero 1)⟩
  | append_singleton rows record ih =>
    obtain ⟨hrising, hrecords, hduplicates⟩ := ih
    obtain ⟨hrising', hrecords', hduplicates'⟩ := insertRecord_spec hrising record
    rw [List.foldl_concat]
    refine ⟨hrising', fun n => ?_, fun n => ?_⟩
    · rw [hrecords', hrecords, combined_concat]
    · rw [hduplicates', hduplicates, hrecords, combined_isSome, rowsAt, rowsAt, List.filter_append,
        List.length_append, List.filter_singleton]
      by_cases hn : record.issue.number = n
      · rw [decide_eq_true hn, cond_true, List.length_singleton, ← List.length_pos_iff]
        simp only [hn, true_and]
        omega
      · rw [decide_eq_false hn, cond_false, List.length_nil, Nat.add_zero]
        exact or_iff_left fun h => hn h.1

/-! ### What a record is without the pages it is from -/

/-- A record without the digests of the pages it is from. -/
def core (r : IssueRecord) : IssueRecord := { r with evidenceDigests := ∅ }

theorem core_mergeRecords (existing record : IssueRecord) :
    core (mergeRecords existing record) =
      if record.contentDigest < existing.contentDigest then core record else core existing := by
  rw [mergeRecords]
  split_ifs <;> rfl

theorem Rising.ext {records records' : List IssueRecord} (h : Rising records) (h' : Rising records')
    (heq : ∀ n, recordAt records n = recordAt records' n) : records = records' := by
  have hnodup {l : List IssueRecord} (hl : Rising l) : l.Nodup := hl.imp fun hlt heq => by
    rw [heq] at hlt
    exact lt_irrefl _ hlt
  have hmem (r : IssueRecord) : r ∈ records ↔ r ∈ records' := by
    have hr := recordAt_eq_some h (n := r.issue.number) (r := r)
    have hr' := recordAt_eq_some h' (n := r.issue.number) (r := r)
    rw [heq, hr'] at hr
    exact ⟨fun hmem => (hr.mpr ⟨hmem, rfl⟩).1, fun hmem => (hr.mp ⟨hmem, rfl⟩).1⟩
  have hperm := (List.perm_ext_iff_of_nodup (hnodup h) (hnodup h')).mpr hmem
  exact hperm.eq_of_pairwise (fun a b _ _ hab hba => absurd (hab.trans hba) (lt_irrefl _)) h h'

/-- What rows are merged to: one of them but for its evidence, with the least digest, and with the
evidence of all. -/
theorem foldl_mergeRecords (first : IssueRecord) (rest : List IssueRecord) :
    (∃ r ∈ first :: rest, core (rest.foldl mergeRecords first) = core r) ∧
      (∀ r ∈ first :: rest, (rest.foldl mergeRecords first).contentDigest ≤ r.contentDigest) ∧
      ∀ d, d ∈ (rest.foldl mergeRecords first).evidenceDigests ↔
        ∃ r ∈ first :: rest, d ∈ r.evidenceDigests := by
  induction rest using List.reverseRecOn with
  | nil =>
    refine ⟨⟨first, List.mem_cons_self, rfl⟩, fun r hr => ?_, fun d => by simp⟩
    rw [List.mem_singleton.mp hr]
    exact le_refl _
  | append_singleton rest record ih =>
    obtain ⟨⟨r, hr, hcore⟩, hleast, hevidence⟩ := ih
    rw [List.foldl_concat]
    generalize rest.foldl mergeRecords first = merged at hcore hleast hevidence ⊢
    have hmem (x : IssueRecord) : x ∈ first :: (rest ++ [record]) ↔ x ∈ first :: rest ∨ x = record := by
      rw [← List.cons_append, List.mem_append, List.mem_singleton]
    have hdigest : (mergeRecords merged record).contentDigest =
        if record.contentDigest < merged.contentDigest then record.contentDigest
        else merged.contentDigest := by
      rw [mergeRecords]
      split_ifs <;> rfl
    refine ⟨?_, fun x hx => ?_, fun d => ?_⟩
    · rw [core_mergeRecords]
      split_ifs
      · exact ⟨record, (hmem _).mpr (.inr rfl), rfl⟩
      · exact ⟨r, (hmem _).mpr (.inl hr), hcore⟩
    · rw [hdigest]
      rcases (hmem x).mp hx with hx | rfl
      · split_ifs with hlt
        · exact hlt.le.trans (hleast x hx)
        · exact hleast x hx
      · split_ifs with hlt
        · exact le_refl _
        · exact le_of_not_gt hlt
    · have hunion : d ∈ (mergeRecords merged record).evidenceDigests ↔
          d ∈ merged.evidenceDigests ∨ d ∈ record.evidenceDigests := by
        rw [mergeRecords, Finset.mem_union]
      rw [hunion, hevidence]
      constructor
      · rintro (⟨x, hx, hd⟩ | hd)
        · exact ⟨x, (hmem _).mpr (.inl hx), hd⟩
        · exact ⟨record, (hmem _).mpr (.inr rfl), hd⟩
      · rintro ⟨x, hx, hd⟩
        rcases (hmem x).mp hx with hx | rfl
        · exact .inl ⟨x, hx, hd⟩
        · exact .inr hd

/-- **What the rows with a number come to.** -/
theorem combined_eq_some {rows : List IssueRecord} {n : ℕ} {m : IssueRecord}
    (h : combined rows n = some m) :
    (∃ r ∈ rowsAt rows n, core m = core r) ∧
      (∀ r ∈ rowsAt rows n, m.contentDigest ≤ r.contentDigest) ∧
      ∀ d, d ∈ m.evidenceDigests ↔ ∃ r ∈ rowsAt rows n, d ∈ r.evidenceDigests := by
  rw [combined] at h
  rw [rowsAt]
  cases hrows : rows.filter (·.issue.number = n) with
  | nil =>
    rw [hrows] at h
    cases h
  | cons first rest =>
    rw [hrows] at h
    obtain rfl := Option.some.inj h
    exact foldl_mergeRecords first rest

/-- The digest of a row tells the row but for its page. -/
def Determined (rows : List IssueRecord) : Prop :=
  ∀ a ∈ rows, ∀ b ∈ rows, a.contentDigest = b.contentDigest → core a = core b

/-- **The order of the rows does not matter**, nor do their pages. -/
theorem core_combined {rows rows' : List IssueRecord} (hperm : (rows.map core).Perm (rows'.map core))
    (hdetermined : Determined rows) (n : ℕ) :
    (combined rows n).map core = (combined rows' n).map core := by
  have hat (x : IssueRecord) : x ∈ (rowsAt rows n).map core ↔ x ∈ (rowsAt rows' n).map core := by
    have hfilter (l : List IssueRecord) : (rowsAt l n).map core =
        (l.map core).filter (·.issue.number = n) := by
      rw [List.filter_map]
      rfl
    rw [hfilter, hfilter, (hperm.filter _).mem_iff]
  cases hm : combined rows n with
  | none =>
    have hempty : rowsAt rows n = [] := by
      by_contra hne
      rw [← ne_eq, ← combined_isSome, hm] at hne
      exact Bool.noConfusion hne
    cases hm' : combined rows' n with
    | none => rfl
    | some m' =>
      obtain ⟨⟨r, hr, -⟩, -⟩ := combined_eq_some hm'
      have hmem := (hat (core r)).mpr (List.mem_map_of_mem hr)
      rw [hempty] at hmem
      exact absurd hmem List.not_mem_nil
  | some m =>
    obtain ⟨⟨r, hr, hcore⟩, hleast, -⟩ := combined_eq_some hm
    obtain ⟨s, hs, hsr⟩ := List.mem_map.mp ((hat (core r)).mp (List.mem_map_of_mem hr))
    cases hm' : combined rows' n with
    | none =>
      have hne : rowsAt rows' n ≠ [] := List.ne_nil_of_mem hs
      rw [← combined_isSome, hm'] at hne
      exact Bool.noConfusion hne
    | some m' =>
      obtain ⟨⟨r', hr', hcore'⟩, hleast', -⟩ := combined_eq_some hm'
      obtain ⟨s', hs', hsr'⟩ := List.mem_map.mp ((hat (core r')).mpr (List.mem_map_of_mem hr'))
      have hdigest {a b : IssueRecord} (h : core a = core b) : a.contentDigest = b.contentDigest :=
        (congrArg IssueRecord.contentDigest h :)
      have hle : m.contentDigest ≤ m'.contentDigest := by
        rw [hdigest hcore', ← hdigest hsr']
        exact hleast s' hs'
      have hge : m'.contentDigest ≤ m.contentDigest := by
        rw [hdigest hcore, ← hdigest hsr]
        exact hleast' s hs
      have hsame : r.contentDigest = s'.contentDigest := by
        rw [← hdigest hcore, hdigest hsr', ← hdigest hcore']
        exact le_antisymm hle hge
      have hrows := hdetermined r (List.mem_of_mem_filter hr) s' (List.mem_of_mem_filter hs') hsame
      rw [Option.map_some, Option.map_some, hcore, hrows, hsr', hcore']

/-! ### Why an issue is not repaired -/

/-- An issue that may be repaired at a head. -/
def IsEligible (headSha : String) (i : SanitizedIssue) : Prop :=
  i.state = "open" ∧ i.classification = "bug" ∧ i.targetInRepository = true ∧
    i.noExistingFix = true ∧ i.reportedHeadSha = headSha ∧ i.fixPresentAtHead = false ∧
    i.securitySensitive = false ∧ i.publicReproductionFeasible = true ∧
    i.deterministicLocalReproduction = true ∧ i.expectedBehaviorSource ≠ "unavailable" ∧
    i.boundedPolicyCompatible = true

instance (headSha : String) (i : SanitizedIssue) : Decidable (IsEligible headSha i) :=
  inferInstanceAs (Decidable (_ ∧ _))

theorem foldl_pushReason (flags : List (Bool × String)) (reasons : List String) :
    flags.foldl (fun reasons (excluded, reason) =>
        if excluded then pushReason reasons reason else reasons) reasons = [] ↔
      reasons = [] ∧ ∀ flag ∈ flags, flag.1 = false := by
  induction flags generalizing reasons with
  | nil => exact ⟨fun h => ⟨h, fun _ h => absurd h List.not_mem_nil⟩, And.left⟩
  | cons flag flags ih =>
    obtain ⟨excluded, reason⟩ := flag
    rw [List.foldl_cons, ih, List.forall_mem_cons]
    cases excluded with
    | false => simp
    | true =>
      have hne : pushReason reasons reason ≠ [] := by
        rw [pushReason]
        split_ifs with hmem
        · exact List.ne_nil_of_mem hmem
        · exact List.append_ne_nil_of_right_ne_nil _ (List.cons_ne_nil _ _)
      simp [hne]

/-- **The reasons** are there just when the issue may not be repaired. -/
theorem exclusionReasonCodes_spec {i : SanitizedIssue} (headSha : String)
    (h : ∃ reason, classificationExclusion i.classification = .ok reason) :
    ∃ reasons, exclusionReasonCodes i headSha = .ok reasons ∧
      (reasons = none ↔ IsEligible headSha i) ∧ ∀ codes, reasons = some codes → codes ≠ [] := by
  obtain ⟨reason, hreason⟩ := h
  obtain ⟨start, hstart, hnil⟩ : ∃ start,
      classificationReasons (candidateEligibility i headSha) i = .ok start ∧
        (start = [] ↔ (candidateEligibility i headSha).openBug = true) := by
    rw [classificationReasons]
    split_ifs with hopen
    · exact ⟨[], rfl, fun _ => hopen, fun _ => rfl⟩
    · rw [hreason]
      exact ⟨[reason], rfl, fun h => absurd h (List.cons_ne_nil _ _), fun h => absurd h hopen⟩
  obtain ⟨reasons, hreasons⟩ : ∃ reasons, (evidenceReasons (candidateEligibility i headSha) i headSha).foldl
      (fun reasons (excluded, reason) => if excluded then pushReason reasons reason else reasons)
      start = reasons := ⟨_, rfl⟩
  have hempty : reasons = [] ↔ IsEligible headSha i := by
    rw [← hreasons, foldl_pushReason, hnil]
    simp only [evidenceReasons, candidateEligibility, List.forall_mem_cons, List.not_mem_nil,
      IsEligible, Bool.and_eq_true, decide_eq_true_eq, Bool.not_eq_eq_eq_not, Bool.not_true,
      Bool.not_false, false_implies, implies_true, and_true]
    constructor
    · rintro ⟨⟨ho, hc⟩, ht, hf, ⟨⟨hh, -⟩, hp⟩, hs, hr, hd, he, hb⟩
      exact ⟨ho, hc, ht, hf, hh, hp, hs, hr, hd, he, hb⟩
    · rintro ⟨ho, hc, ht, hf, hh, hp, hs, hr, hd, he, hb⟩
      exact ⟨⟨ho, hc⟩, ht, hf, ⟨⟨hh, hf⟩, hp⟩, hs, hr, hd, he, hb⟩
  refine ⟨if reasons = [] then none else some reasons, ?_, ?_, fun codes hcodes => ?_⟩
  · rw [exclusionReasonCodes, hstart, ← hreasons]
    rfl
  · rw [ite_eq_left_iff, imp_iff_not_or, not_not, or_iff_left (Option.some_ne_none _), hempty]
  · split_ifs at hcodes with hnot
    rw [← Option.some.inj hcodes]
    exact hnot

/-- The records whose issues may be repaired. -/
def IsRepairable (duplicates : Finset ℕ) (headSha : String) (r : IssueRecord) : Prop :=
  r.issue.number ∉ duplicates ∧ IsEligible headSha r.issue

instance (duplicates : Finset ℕ) (headSha : String) (r : IssueRecord) :
    Decidable (IsRepairable duplicates headSha r) := inferInstanceAs (Decidable (_ ∧ _))

theorem partitionRecords_spec {duplicates : Finset ℕ} {headSha : String} {records : List IssueRecord}
    (h : ∀ r ∈ records, ∃ reason, classificationExclusion r.issue.classification = .ok reason) :
    ∃ exclusions, partitionRecords duplicates headSha records =
        .ok (records.filter (IsRepairable duplicates headSha), exclusions) ∧
      ∀ entry ∈ exclusions, entry.2 ≠ [] := by
  induction records with
  | nil => exact ⟨[], rfl, fun _ h => absurd h List.not_mem_nil⟩
  | cons r records ih =>
    rw [List.forall_mem_cons] at h
    obtain ⟨exclusions, hrest, hreasons⟩ := ih h.2
    rw [partitionRecords, List.filter_cons]
    by_cases hduplicate : r.issue.number ∈ duplicates
    · have hnot : ¬ IsRepairable duplicates headSha r := fun hr => hr.1 hduplicate
      rw [if_pos hduplicate, hrest, if_neg (by rwa [decide_eq_true_eq])]
      exact ⟨_, rfl, List.forall_mem_cons.mpr ⟨List.cons_ne_nil _ _, hreasons⟩⟩
    · obtain ⟨reasons, hcodes, hnone, hsome⟩ := exclusionReasonCodes_spec headSha h.1
      rw [if_neg hduplicate, hcodes]
      cases reasons with
      | none =>
        have hr : IsRepairable duplicates headSha r := ⟨hduplicate, hnone.mp rfl⟩
        rw [hrest, if_pos (decide_eq_true hr)]
        exact ⟨_, rfl, hreasons⟩
      | some codes =>
        have hnot : ¬ IsRepairable duplicates headSha r := fun hr =>
          Option.some_ne_none _ (hnone.mpr hr.2)
        rw [hrest, if_neg (by rwa [decide_eq_true_eq])]
        exact ⟨_, rfl, List.forall_mem_cons.mpr ⟨hsome codes rfl, hreasons⟩⟩

theorem partitionRecords_core (duplicates : Finset ℕ) (headSha : String) (records : List IssueRecord) :
    partitionRecords duplicates headSha (records.map core) =
      (partitionRecords duplicates headSha records).map fun parts => (parts.1.map core, parts.2) := by
  induction records with
  | nil => rfl
  | cons r records ih =>
    rw [List.map_cons, partitionRecords, partitionRecords, ih]
    change (if r.issue.number ∈ duplicates then _ else exclusionReasonCodes r.issue headSha >>= _) = _
    split_ifs with hduplicate
    · cases partitionRecords duplicates headSha records <;> rfl
    · cases exclusionReasonCodes r.issue headSha with
      | error message => rfl
      | ok reasons =>
        cases reasons <;> cases partitionRecords duplicates headSha records <;> rfl

end Discovery

end Issues

end Ao2
