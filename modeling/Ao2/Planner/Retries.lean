import Ao2.Interaction.Pool
import Ao2.Planner.Fields

/-!
# Drafting again

A candidate that does not pass is drafted again, and the provider is told why it did not. The
provider, the clock and the files answer anything, which may depend on all that was asked before.
What a run did is read off its history: what was drafted, what the validator said of it, which files
were written.

## Main results

* `attemptOnce_traced` — the events of one attempt
-/

namespace Ao2

namespace Planner

open Interaction

abbrev PlannerEvent := Event PlannerSignature

/-! ### What is read off a history -/

def draftOf : PlannerEvent → Option (ProviderRequest × Except ProviderError ProviderResponse)
  | ⟨.draft request, answer⟩ => some (request, answer)
  | _ => none

def nowOf : PlannerEvent → Option String
  | ⟨.now, now⟩ => some now
  | _ => none

def headOf : PlannerEvent → Option String
  | ⟨.headSubject _, head⟩ => some head
  | _ => none

/-- Something was done to a file, and whether it failed. -/
def fileResult : PlannerEvent → Option (Except String Unit)
  | ⟨.createDirAll _, made⟩ => some made
  | ⟨.write .., written⟩ => some written
  | _ => none

def textAt (path : String) : PlannerEvent → Option String
  | ⟨.write path' text, .ok _⟩ => if path' = path then some text else none
  | _ => none

/-- The text of a file: the one that was written last. -/
def fileText (path : String) (h : List PlannerEvent) : Option String := lastSome (textAt path) h

/-- What was asked of the provider and what it answered. -/
def drafts (h : List PlannerEvent) :
    List (ProviderRequest × Except ProviderError ProviderResponse) :=
  h.filterMap draftOf

def candidateOf : ProviderRequest × Except ProviderError ProviderResponse → Option Json
  | (_, .ok response) => some response.candidate
  | (_, .error _) => none

def candidates (h : List PlannerEvent) : List Json := (drafts h).filterMap candidateOf

section

variable [Platform] [PlannerBuild] [PlannerLibrary] (r : PlanRequest)

/-- What the validator says of the candidate of an attempt. -/
def reportAt (attempt : ℕ) (stamped : Json × String × String) : ValidationReport :=
  validate (promoteCandidateToPlan r attempt stamped.2.1 stamped.2.2 stamped.1) (some r.surfaceMap)

/-- The candidates with the time and the head at which they were promoted. -/
def stamped (h : List PlannerEvent) : List (Json × String × String) :=
  (candidates h).zip ((h.filterMap nowOf).zip (h.filterMap headOf))

/-- What the validator said, in order. -/
def reports (h : List PlannerEvent) : List ValidationReport :=
  (stamped h).mapIdx fun i x => reportAt r (i + 1) x

/-- **What every run does.** -/
structure Retries (result : Except OrchestrateError PlanOutcome) (h : List PlannerEvent) :
    Prop where
  asked : ∀ d ∈ drafts h, d.1.prompt = r.prompt ∧ d.1.surfaceMap = r.surfaceMap
  bounded : (drafts h).length ≤ attemptBudget
  /-- The first draft comes without errors, each other one with those of the candidate before. -/
  informed : (drafts h).map (·.1.priorErrors) <+:
    [] :: (reports r h).map (·.errorsForProviderFeedback)
  /-- A candidate that passes is the last one and is returned. -/
  accepted : ∀ (i : ℕ) (report : ValidationReport), (reports r h)[i]? = some report →
    report.isPass = true → (drafts h).length = i + 1 ∧
      ∃ outcome, result = .ok outcome ∧ report.plan = some outcome.plan ∧
        outcome.attemptsUsed = i + 1
  /-- An error of the provider is the last answer and is returned. -/
  stopped : ∀ (i : ℕ) (d : ProviderRequest × Except ProviderError ProviderResponse)
    (e : ProviderError), (drafts h)[i]? = some d → d.2 = .error e →
      (drafts h).length = i + 1 ∧ result = .error (.provider e)
  /-- A file that cannot be written ends the run. -/
  broken : ∀ event ∈ h, ∀ source, fileResult event = some (.error source) →
    result = .error (.io source)
  /-- Otherwise the attempts are used up, and there are the last candidate and its report. -/
  exhausted : (∀ report ∈ reports r h, report.isPass = false) → (∀ d ∈ drafts h, ∃ a, d.2 = .ok a) →
    (∀ event ∈ h, ∀ source, fileResult event ≠ some (.error source)) →
      (drafts h).length = attemptBudget ∧
        ∃ (dir : String) (candidate : Json) (report : ValidationReport),
        result = .error (.planExhausted attemptBudget dir) ∧
        (candidates h)[attemptBudget - 1]? = some candidate ∧
        (reports r h)[attemptBudget - 1]? = some report ∧
        fileText (joinPath dir "candidate.fail.json") h = some candidate.compact ∧
        fileText (joinPath dir "validation-errors.txt") h = some report.render

end

/-! ### Histories that go on -/

theorem getElem?_concat {α : Type} {l : List α} {a b : α} {i : ℕ} (h : (l ++ [a])[i]? = some b) :
    b ∈ l ∨ i = l.length ∧ b = a := by
  rcases Nat.lt_or_ge i l.length with hlt | hge
  · rw [List.getElem?_append_left hlt] at h
    exact .inl (List.mem_of_getElem? h)
  · rw [List.getElem?_append_right hge, List.getElem?_singleton] at h
    split_ifs at h with hzero
    exact .inr ⟨by omega, (Option.some.inj h).symm⟩

theorem drafts_append (h h' : List PlannerEvent) : drafts (h ++ h') = drafts h ++ drafts h' :=
  List.filterMap_append

theorem candidates_append (h h' : List PlannerEvent) :
    candidates (h ++ h') = candidates h ++ candidates h' := by
  rw [candidates, drafts_append, List.filterMap_append, candidates, candidates]

/-- Nothing was drafted or promoted. -/
def OnlyFiles (h : List PlannerEvent) : Prop := ∀ event ∈ h, (fileResult event).isSome = true

theorem draftOf_eq_none {event : PlannerEvent} (h : (fileResult event).isSome = true) :
    draftOf event = none ∧ nowOf event = none ∧ headOf event = none := by
  obtain ⟨o, a⟩ := event
  cases o <;> first | exact ⟨rfl, rfl, rfl⟩ | cases h

theorem OnlyFiles.drafts_eq {h : List PlannerEvent} (hfiles : OnlyFiles h) : drafts h = [] :=
  List.filterMap_eq_nil_iff.mpr fun event hevent => (draftOf_eq_none (hfiles event hevent)).1

theorem OnlyFiles.nows_eq {h : List PlannerEvent} (hfiles : OnlyFiles h) : h.filterMap nowOf = [] :=
  List.filterMap_eq_nil_iff.mpr fun event hevent => (draftOf_eq_none (hfiles event hevent)).2.1

theorem OnlyFiles.heads_eq {h : List PlannerEvent} (hfiles : OnlyFiles h) :
    h.filterMap headOf = [] :=
  List.filterMap_eq_nil_iff.mpr fun event hevent => (draftOf_eq_none (hfiles event hevent)).2.2

/-- No file failed. -/
def Unbroken (h : List PlannerEvent) : Prop :=
  ∀ event ∈ h, ∀ source, fileResult event ≠ some (.error source)

theorem joinPath_ne (dir : String) :
    joinPath dir "candidate.fail.json" ≠ joinPath dir "validation-errors.txt" := by
  intro h
  have hcandidate : ¬ "candidate.fail.json".toList.head? = some '/' := by decide
  have herrors : ¬ "validation-errors.txt".toList.head? = some '/' := by decide
  have hlength := congrArg String.length h
  rw [joinPath, joinPath] at hlength
  simp only [hcandidate, herrors, false_or] at hlength
  split_ifs at hlength
  · exact absurd hlength (by decide)
  · rw [String.length_append, String.length_append, Nat.add_left_cancel_iff] at hlength
    exact absurd hlength (by decide)
  · rw [String.length_append, String.length_append (t := "validation-errors.txt"),
      Nat.add_left_cancel_iff] at hlength
    exact absurd hlength (by decide)

/-! ### One attempt -/

/-- The events of an attempt up to the answer of the provider. -/
def asking (r : PlanRequest) (requestId : String) (priorErrors : List String)
    (answer : Except ProviderError ProviderResponse) : List PlannerEvent :=
  [⟨.requestId, requestId⟩, ⟨.draft ⟨requestId, r.prompt, r.surfaceMap, priorErrors⟩, answer⟩]

/-- The events with which a candidate is promoted. -/
def promoting (r : PlanRequest) (now head : String) : List PlannerEvent :=
  [⟨.now, now⟩, ⟨.headSubject r.repoPath, head⟩]

/-- An attempt that comes to a report. -/
def attempting (r : PlanRequest) (requestId : String) (priorErrors : List String)
    (response : ProviderResponse) (files : List PlannerEvent) (now head : String) :
    List PlannerEvent :=
  asking r requestId priorErrors (.ok response) ++ files ++ promoting r now head

/-- An attempt that a file puts an end to. -/
def breaking (r : PlanRequest) (requestId : String) (priorErrors : List String)
    (response : ProviderResponse) (files : List PlannerEvent) (broken : PlannerEvent) :
    List PlannerEvent :=
  asking r requestId priorErrors (.ok response) ++ (files ++ [broken])

/-- How an attempt ends that comes to nothing. -/
inductive Failed (r : PlanRequest) (priorErrors : List String) (h : List PlannerEvent) :
    List PlannerEvent → OrchestrateError → Prop
  | provider (requestId : String) (e : ProviderError) :
      Failed r priorErrors h (h ++ asking r requestId priorErrors (.error e)) (.provider e)
  | file (requestId : String) (response : ProviderResponse) (files : List PlannerEvent)
      (broken : PlannerEvent) (source : String) (hfiles : OnlyFiles files)
      (hunbroken : Unbroken files) (hbroken : fileResult broken = some (.error source)) :
      Failed r priorErrors h (h ++ breaking r requestId priorErrors response files broken)
        (.io source)

section

variable {E : List PlannerEvent → OrchestrateError → Prop}
  {h : List PlannerEvent}

theorem createDirAll_traced {path : String} {Q : List PlannerEvent → Unit → Prop}
    (hok : Q (h ++ [⟨.createDirAll path, .ok ()⟩]) ())
    (herror : ∀ source, E (h ++ [⟨.createDirAll path, .error source⟩]) (.io source)) :
    (createDirAll path).Traced (fun _ _ => True) Q E h := by
  refine Prog.traced_bind.mpr ⟨trivial, fun made => ?_⟩
  cases made with
  | ok _ => exact hok
  | error source => exact herror source

theorem writeText_traced {path text : String} {Q : List PlannerEvent → Unit → Prop}
    (hok : Q (h ++ [⟨.write path text, .ok ()⟩]) ())
    (herror : ∀ source, E (h ++ [⟨.write path text, .error source⟩]) (.io source)) :
    (writeText path text).Traced (fun _ _ => True) Q E h := by
  refine Prog.traced_bind.mpr ⟨trivial, fun written => ?_⟩
  cases written with
  | ok _ => exact hok
  | error source => exact herror source

end

/-- The directory is made at most once. -/
theorem resolveDir_traced (r : PlanRequest) (dir : Option String) (planId : String)
    (h : List PlannerEvent) :
    (resolveDir r dir planId).Traced (fun _ _ => True)
      (fun h' _ => ∃ files, h' = h ++ files ∧ OnlyFiles files ∧ Unbroken files)
      (fun h' e => ∃ last source, h' = h ++ [last] ∧ fileResult last = some (.error source) ∧
        e = .io source) h := by
  cases dir with
  | some dir => exact ⟨[], (List.append_nil h).symm, List.forall_mem_nil _, List.forall_mem_nil _⟩
  | none =>
    refine Prog.traced_bind.mpr (createDirAll_traced ⟨_, rfl, ?_, ?_⟩ fun source =>
      ⟨_, source, rfl, rfl, rfl⟩)
    · exact List.forall_mem_singleton.mpr rfl
    · exact List.forall_mem_singleton.mpr fun source hsource => by cases hsource

section

variable [Platform] [PlannerBuild] [PlannerLibrary] {r : PlanRequest}

/-- How an attempt ends that comes to a report. -/
structure Attempted (r : PlanRequest) (attempt : ℕ) (priorErrors : List String)
    (h h' : List PlannerEvent) (x : Json × String × ValidationReport) (requestId : String)
    (response : ProviderResponse) (files : List PlannerEvent) (now head : String) : Prop where
  history : h' = h ++ attempting r requestId priorErrors response files now head
  onlyFiles : OnlyFiles files
  unbroken : Unbroken files
  candidate : x.1 = response.candidate
  report : x.2.2 = reportAt r attempt (response.candidate, now, head)

theorem attemptOnce_traced (r : PlanRequest) (attempt : ℕ) (priorErrors : List String)
    (dir : Option String) (h : List PlannerEvent) :
    (attemptOnce r attempt priorErrors dir).Traced (fun _ _ => True)
      (fun h' x => ∃ requestId response files now head,
        Attempted r attempt priorErrors h h' x requestId response files now head)
      (Failed r priorErrors h) h := by
  refine Prog.traced_bind.mpr ⟨trivial, fun requestId => ?_⟩
  refine Prog.traced_bind.mpr ⟨trivial, fun answer => ?_⟩
  have hasked : ∀ rest, h ++ [⟨.requestId, requestId⟩] ++
      [⟨.draft ⟨requestId, r.prompt, r.surfaceMap, priorErrors⟩, answer⟩] ++ rest =
        h ++ (asking r requestId priorErrors answer ++ rest) := fun rest => by
    rw [asking, List.append_assoc, List.append_assoc]
    rfl
  refine Prog.traced_bind.mpr (Prog.traced_ofExcept (fun response hresponse => ?_) fun e he => ?_)
  · obtain ⟨response, rfl, rfl⟩ : ∃ a, answer = .ok a ∧ response = a := by
      cases answer with
      | ok a => exact ⟨a, rfl, (Except.ok.inj hresponse).symm⟩
      | error e => cases hresponse
    refine Prog.traced_bind.mpr ((resolveDir_traced r dir _ _).mono (fun _ _ => id) ?_ ?_)
    · rintro h' dir ⟨files, rfl, hfiles, hunbroken⟩
      refine Prog.traced_bind.mpr (writeText_traced ?_ fun source => ?_)
      · refine Prog.traced_bind.mpr ⟨trivial, fun now => ?_⟩
        refine Prog.traced_bind.mpr ⟨trivial, fun head => ?_⟩
        refine ⟨requestId, response, files ++ [⟨.write (joinPath dir (attemptFile attempt))
          (attemptLog response).compact, .ok ()⟩], now, head, ?_, ?_, ?_, rfl, rfl⟩
        · rw [List.append_assoc, List.append_assoc, List.append_assoc, hasked, attempting,
            List.append_assoc, List.append_assoc]
          rfl
        · exact List.forall_mem_append.mpr ⟨hfiles, List.forall_mem_singleton.mpr rfl⟩
        · refine List.forall_mem_append.mpr ⟨hunbroken, List.forall_mem_singleton.mpr ?_⟩
          intro source hsource
          cases hsource
      · rw [List.append_assoc, hasked]
        exact .file requestId response files ⟨.write _ _, .error source⟩ source hfiles hunbroken rfl
    · rintro h' e ⟨last, source, rfl, hlast, rfl⟩
      have hfailed := @Failed.file r priorErrors h requestId response [] last source
        (List.forall_mem_nil _) (List.forall_mem_nil _) hlast
      rw [hasked]
      exact hfailed
  · obtain ⟨e, rfl, rfl⟩ : ∃ a, answer = .error a ∧ e = .provider a := by
      cases answer with
      | ok a => cases he
      | error a => exact ⟨a, rfl, (Except.error.inj he).symm⟩
    have hfailed := @Failed.provider r priorErrors h requestId e
    rw [← List.append_nil (asking _ _ _ _), ← hasked, List.append_nil] at hfailed
    exact hfailed

/-! ### The attempts so far -/

/-- So many candidates were drafted and did not pass. -/
structure Drafted (r : PlanRequest) (n : ℕ) (priorErrors : List String)
    (last : Option (String × ValidationReport)) (h : List PlannerEvent) : Prop where
  asked : ∀ d ∈ drafts h, d.1.prompt = r.prompt ∧ d.1.surfaceMap = r.surfaceMap
  informed : (drafts h).map (·.1.priorErrors) ++ [priorErrors] =
    [] :: (reports r h).map (·.errorsForProviderFeedback)
  answered : ∀ d ∈ drafts h, ∃ a, d.2 = .ok a
  candidates_length : (candidates h).length = n
  nows_length : (h.filterMap nowOf).length = n
  heads_length : (h.filterMap headOf).length = n
  rejected : ∀ report ∈ reports r h, report.isPass = false
  last_eq : last = ((candidates h).zip (reports r h)).getLast?.map fun x => (x.1.compact, x.2)
  unbroken : Unbroken h

variable {n : ℕ} {priorErrors : List String} {last : Option (String × ValidationReport)}
  {h : List PlannerEvent}

theorem drafted_nil (r : PlanRequest) : Drafted r 0 [] none [] where
  asked := List.forall_mem_nil _
  informed := rfl
  answered := List.forall_mem_nil _
  candidates_length := rfl
  nows_length := rfl
  heads_length := rfl
  rejected := List.forall_mem_nil _
  last_eq := rfl
  unbroken := List.forall_mem_nil _

namespace Drafted

theorem stamped_append (hd : Drafted r n priorErrors last h) (h' : List PlannerEvent) :
    stamped (h ++ h') = stamped h ++ stamped h' := by
  have hzip : (h.filterMap nowOf).length = (h.filterMap headOf).length :=
    hd.nows_length.trans hd.heads_length.symm
  rw [stamped, candidates_append, List.filterMap_append, List.filterMap_append,
    List.zip_append hzip, List.zip_append, stamped, stamped]
  rw [List.length_zip, hd.candidates_length, hd.nows_length, hd.heads_length, Nat.min_self]

theorem stamped_length (hd : Drafted r n priorErrors last h) : (stamped h).length = n := by
  rw [stamped, List.length_zip, List.length_zip, hd.candidates_length, hd.nows_length,
    hd.heads_length, Nat.min_self, Nat.min_self]

theorem reports_length (hd : Drafted r n priorErrors last h) : (reports r h).length = n := by
  rw [reports, List.length_mapIdx, hd.stamped_length]

theorem drafts_length (hd : Drafted r n priorErrors last h) : (drafts h).length = n := by
  have hlength := congrArg List.length hd.informed
  rw [List.length_append, List.length_map, List.length_singleton, List.length_cons, List.length_map,
    hd.reports_length] at hlength
  exact Nat.add_right_cancel hlength

theorem reports_append (hd : Drafted r n priorErrors last h) (h' : List PlannerEvent) :
    reports r (h ++ h') = reports r h ++
      (stamped h').mapIdx fun i x => reportAt r (i + n + 1) x := by
  rw [reports, hd.stamped_append, List.mapIdx_append, hd.stamped_length, reports]

end Drafted

/-- What is read off the events of an attempt. -/
theorem Attempted.reads {x : Json × String × ValidationReport} {requestId now head : String}
    {response : ProviderResponse} {files h' : List PlannerEvent}
    (ha : Attempted r (n + 1) priorErrors h h' x requestId response files now head)
    (hd : Drafted r n priorErrors last h) :
    drafts h' = drafts h ++ [(⟨requestId, r.prompt, r.surfaceMap, priorErrors⟩, .ok response)] ∧
      candidates h' = candidates h ++ [x.1] ∧ h'.filterMap nowOf = h.filterMap nowOf ++ [now] ∧
      h'.filterMap headOf = h.filterMap headOf ++ [head] ∧ reports r h' = reports r h ++ [x.2.2] ∧
      Unbroken h' := by
  have hdrafts : drafts (attempting r requestId priorErrors response files now head) =
      [(⟨requestId, r.prompt, r.surfaceMap, priorErrors⟩, .ok response)] := by
    rw [attempting, drafts_append, drafts_append, ha.onlyFiles.drafts_eq]
    rfl
  have hcandidates : candidates (attempting r requestId priorErrors response files now head) =
      [response.candidate] := by
    rw [candidates, hdrafts]
    rfl
  have hnows :
      (attempting r requestId priorErrors response files now head).filterMap nowOf = [now] := by
    rw [attempting, List.filterMap_append, List.filterMap_append, ha.onlyFiles.nows_eq]
    rfl
  have hheads :
      (attempting r requestId priorErrors response files now head).filterMap headOf = [head] := by
    rw [attempting, List.filterMap_append, List.filterMap_append, ha.onlyFiles.heads_eq]
    rfl
  have hfiles : Unbroken (attempting r requestId priorErrors response files now head) := by
    refine List.forall_mem_append.mpr ⟨List.forall_mem_append.mpr ⟨?_, ha.unbroken⟩, ?_⟩
    · simp [asking, fileResult]
    · simp [promoting, fileResult]
  rw [ha.history]
  refine ⟨by rw [drafts_append, hdrafts], by rw [candidates_append, hcandidates, ha.candidate],
    by rw [List.filterMap_append, hnows], by rw [List.filterMap_append, hheads], ?_,
    List.forall_mem_append.mpr ⟨hd.unbroken, hfiles⟩⟩
  rw [hd.reports_append, stamped, hcandidates, hnows, hheads, ha.report]
  change _ ++ [reportAt r (0 + n + 1) (response.candidate, now, head)] = _
  rw [Nat.zero_add]

/-- A candidate that did not pass. -/
theorem Attempted.drafted {x : Json × String × ValidationReport} {requestId now head : String}
    {response : ProviderResponse} {files h' : List PlannerEvent}
    (ha : Attempted r (n + 1) priorErrors h h' x requestId response files now head)
    (hd : Drafted r n priorErrors last h) (hpass : x.2.2.isPass = false) :
    Drafted r (n + 1) x.2.2.errorsForProviderFeedback (some (x.1.compact, x.2.2)) h' := by
  obtain ⟨hdrafts, hcandidates, hnows, hheads, hreports, hunbroken⟩ := ha.reads hd
  constructor
  · rw [hdrafts]
    exact List.forall_mem_append.mpr ⟨hd.asked, List.forall_mem_singleton.mpr ⟨rfl, rfl⟩⟩
  · rw [hdrafts, hreports, List.map_append, List.map_append, ← List.cons_append, ← hd.informed]
    rfl
  · rw [hdrafts]
    exact List.forall_mem_append.mpr ⟨hd.answered, List.forall_mem_singleton.mpr ⟨_, rfl⟩⟩
  · rw [hcandidates, List.length_append, hd.candidates_length, List.length_singleton]
  · rw [hnows, List.length_append, hd.nows_length, List.length_singleton]
  · rw [hheads, List.length_append, hd.heads_length, List.length_singleton]
  · rw [hreports]
    exact List.forall_mem_append.mpr ⟨hd.rejected, List.forall_mem_singleton.mpr hpass⟩
  · rw [hcandidates, hreports, List.zip_append (hd.candidates_length.trans hd.reports_length.symm),
      List.zip_cons_cons, List.zip_nil_left, List.getLast?_concat]
    rfl
  · exact hunbroken

/-- A candidate that passed. -/
theorem Attempted.retries {x : Json × String × ValidationReport} {requestId now head : String}
    {response : ProviderResponse} {files h' : List PlannerEvent} {outcome : PlanOutcome}
    (ha : Attempted r (n + 1) priorErrors h h' x requestId response files now head)
    (hd : Drafted r n priorErrors last h) (hn : n < attemptBudget) (hpass : x.2.2.isPass = true)
    (hplan : x.2.2.plan = some outcome.plan) (hused : outcome.attemptsUsed = n + 1) :
    Retries r (.ok outcome) h' := by
  obtain ⟨hdrafts, hcandidates, hnows, hheads, hreports, hunbroken⟩ := ha.reads hd
  have hlength : (drafts h').length = n + 1 := by
    rw [hdrafts, List.length_append, hd.drafts_length, List.length_singleton]
  constructor
  · rw [hdrafts]
    exact List.forall_mem_append.mpr ⟨hd.asked, List.forall_mem_singleton.mpr ⟨rfl, rfl⟩⟩
  · exact hlength.trans_le hn
  · rw [hdrafts, hreports, List.map_append, List.map_append, ← List.cons_append, ← hd.informed]
    exact List.prefix_append _ _
  · intro i report hi hreport
    rw [hreports] at hi
    rcases getElem?_concat hi with hmem | ⟨rfl, rfl⟩
    · exact absurd ((hd.rejected _ hmem).symm.trans hreport) (by decide)
    · rw [hd.reports_length]
      exact ⟨hlength, outcome, rfl, hplan, hused⟩
  · intro i d e hi he
    rw [hdrafts] at hi
    rcases getElem?_concat hi with hmem | ⟨-, rfl⟩
    · obtain ⟨a, ha⟩ := hd.answered d hmem
      cases he.symm.trans ha
    · cases he
  · exact fun event hevent source hsource => absurd hsource (hunbroken event hevent source)
  · intro hrejected
    rw [hreports] at hrejected
    have hlast := hrejected x.2.2 (List.mem_append_right _ (List.mem_singleton_self _))
    exact absurd (hlast.symm.trans hpass) (by decide)

/-- An attempt that came to nothing. -/
theorem Failed.retries {h' : List PlannerEvent} {e : OrchestrateError}
    (hf : Failed r priorErrors h h' e)
    (hd : Drafted r n priorErrors last h) (hn : n < attemptBudget) : Retries r (.error e) h' := by
  cases hf with
  | provider requestId e =>
    have hdrafts : drafts (h ++ asking r requestId priorErrors (.error e)) =
        drafts h ++ [(⟨requestId, r.prompt, r.surfaceMap, priorErrors⟩, .error e)] :=
      drafts_append _ _
    have hreports : reports r (h ++ asking r requestId priorErrors (.error e)) = reports r h := by
      rw [hd.reports_append]
      exact List.append_nil _
    have hlength : (drafts (h ++ asking r requestId priorErrors (.error e))).length = n + 1 := by
      rw [hdrafts, List.length_append, hd.drafts_length, List.length_singleton]
    have hunbroken : Unbroken (h ++ asking r requestId priorErrors (.error e)) :=
      List.forall_mem_append.mpr ⟨hd.unbroken, by simp [asking, fileResult]⟩
    constructor
    · rw [hdrafts]
      exact List.forall_mem_append.mpr ⟨hd.asked, List.forall_mem_singleton.mpr ⟨rfl, rfl⟩⟩
    · exact hlength.trans_le hn
    · rw [hdrafts, hreports, List.map_append, ← hd.informed]
      exact List.prefix_rfl
    · intro i report hi hreport
      rw [hreports] at hi
      exact absurd ((hd.rejected _ (List.mem_of_getElem? hi)).symm.trans hreport) (by decide)
    · intro i d e' hi he'
      rw [hdrafts] at hi
      rcases getElem?_concat hi with hmem | ⟨rfl, rfl⟩
      · obtain ⟨a, ha⟩ := hd.answered d hmem
        cases he'.symm.trans ha
      · cases he'
        rw [hd.drafts_length]
        exact ⟨hlength, rfl⟩
    · exact fun event hevent source hsource => absurd hsource (hunbroken event hevent source)
    · intro _ hanswered
      rw [hdrafts] at hanswered
      obtain ⟨a, ha⟩ := hanswered _ (List.mem_append_right _ (List.mem_singleton_self _))
      cases ha
  | file requestId response files broken source hfiles hunbroken hbroken =>
    have hall : OnlyFiles (files ++ [broken]) :=
      List.forall_mem_append.mpr ⟨hfiles, List.forall_mem_singleton.mpr (hbroken ▸ rfl)⟩
    have hdrafts : drafts (h ++ breaking r requestId priorErrors response files broken) =
        drafts h ++ [(⟨requestId, r.prompt, r.surfaceMap, priorErrors⟩, .ok response)] := by
      rw [drafts_append, breaking, drafts_append, hall.drafts_eq, List.append_nil]
      rfl
    have hnows :
        (breaking r requestId priorErrors response files broken).filterMap nowOf = [] := by
      rw [breaking, List.filterMap_append, hall.nows_eq]
      rfl
    have hreports : reports r (h ++ breaking r requestId priorErrors response files broken) =
        reports r h := by
      rw [hd.reports_append, stamped, hnows, List.zip_nil_left, List.zip_nil_right,
        List.mapIdx_nil, List.append_nil]
    have hends : ∀ event ∈ h ++ breaking r requestId priorErrors response files broken,
        ∀ source', fileResult event = some (.error source') → source' = source := by
      intro event hevent source' hsource
      rw [breaking] at hevent
      simp only [List.mem_append, List.mem_singleton] at hevent
      rcases hevent with hmem | hmem | hmem | rfl
      · exact absurd hsource (hd.unbroken event hmem source')
      · rcases List.mem_cons.mp hmem with rfl | hmem
        · cases hsource
        · obtain rfl := List.mem_singleton.mp hmem
          cases hsource
      · exact absurd hsource (hunbroken event hmem source')
      · rw [hbroken] at hsource
        exact (Except.error.inj (Option.some.inj hsource)).symm
    constructor
    · rw [hdrafts]
      exact List.forall_mem_append.mpr ⟨hd.asked, List.forall_mem_singleton.mpr ⟨rfl, rfl⟩⟩
    · rw [hdrafts, List.length_append, hd.drafts_length]
      exact hn
    · rw [hdrafts, hreports, List.map_append, ← hd.informed]
      exact List.prefix_rfl
    · intro i report hi hreport
      rw [hreports] at hi
      exact absurd ((hd.rejected _ (List.mem_of_getElem? hi)).symm.trans hreport) (by decide)
    · intro i d e' hi he'
      rw [hdrafts] at hi
      rcases getElem?_concat hi with hmem | ⟨-, rfl⟩
      · obtain ⟨a, ha⟩ := hd.answered d hmem
        cases he'.symm.trans ha
      · cases he'
    · exact fun event hevent source' hsource => by rw [hends event hevent source' hsource]
    · intro _ _ hnone
      refine absurd hbroken (hnone broken ?_ source)
      simp [breaking]

/-! ### Giving up -/

/-- Only files were written after the last attempt. -/
theorem Drafted.retries {files : List PlannerEvent} {e : OrchestrateError}
    (hd : Drafted r attemptBudget priorErrors last h) (hfiles : OnlyFiles files)
    (hbroken : ∀ event ∈ files, ∀ source, fileResult event = some (.error source) → e = .io source)
    (hexhausted : Unbroken files → ∃ dir candidate report, e = .planExhausted attemptBudget dir ∧
      (candidates h)[attemptBudget - 1]? = some candidate ∧
      (reports r h)[attemptBudget - 1]? = some report ∧
      fileText (joinPath dir "candidate.fail.json") (h ++ files) = some candidate.compact ∧
      fileText (joinPath dir "validation-errors.txt") (h ++ files) = some report.render) :
    Retries r (.error e) (h ++ files) := by
  have hdrafts : drafts (h ++ files) = drafts h := by
    rw [drafts_append, hfiles.drafts_eq, List.append_nil]
  have hcandidates : candidates (h ++ files) = candidates h :=
    by rw [candidates, hdrafts, candidates]
  have hreports : reports r (h ++ files) = reports r h := by
    rw [hd.reports_append, stamped, hfiles.nows_eq, List.zip_nil_left, List.zip_nil_right,
      List.mapIdx_nil, List.append_nil]
  constructor
  · rw [hdrafts]
    exact hd.asked
  · rw [hdrafts]
    exact hd.drafts_length.le
  · rw [hdrafts, hreports, ← hd.informed]
    exact List.prefix_append _ _
  · intro i report hi hreport
    rw [hreports] at hi
    exact absurd ((hd.rejected _ (List.mem_of_getElem? hi)).symm.trans hreport) (by decide)
  · intro i d e' hi he'
    rw [hdrafts] at hi
    obtain ⟨a, ha⟩ := hd.answered d (List.mem_of_getElem? hi)
    cases he'.symm.trans ha
  · intro event hevent source hsource
    rcases List.mem_append.mp hevent with hmem | hmem
    · exact absurd hsource (hd.unbroken event hmem source)
    · rw [hbroken event hmem source hsource]
  · intro _ _ hunbroken
    obtain ⟨dir, candidate, report, rfl, hends⟩ :=
      hexhausted fun event hevent => hunbroken event (List.mem_append_right _ hevent)
    rw [hdrafts, hcandidates, hreports]
    exact ⟨hd.drafts_length, dir, candidate, report, rfl, hends⟩

/-- No attempt is left. -/
theorem giveUp_traced {dir : Option String} (hd : Drafted r attemptBudget priorErrors last h) :
    (giveUp dir last).Traced (fun _ _ => True) (fun h' outcome => Retries r (.ok outcome) h')
      (fun h' e => Retries r (.error e) h') h := by
  obtain ⟨candidate, hcandidate⟩ : ∃ c, (candidates h)[attemptBudget - 1]? = some c :=
    ⟨_, List.getElem?_eq_getElem (by rw [hd.candidates_length]; decide)⟩
  obtain ⟨report, hreport⟩ : ∃ c, (reports r h)[attemptBudget - 1]? = some c :=
    ⟨_, List.getElem?_eq_getElem (by rw [hd.reports_length]; decide)⟩
  have hlast : last = some (candidate.compact, report) := by
    have hzip := List.getElem?_zip_eq_some (z := (candidate, report)).mpr ⟨hcandidate, hreport⟩
    rw [hd.last_eq, List.getLast?_eq_getElem?, List.length_zip, hd.candidates_length,
      hd.reports_length, Nat.min_self, hzip]
    rfl
  subst hlast
  refine Prog.traced_bind.mpr (Prog.traced_bind.mpr (writeText_traced (Prog.traced_bind.mpr
    (writeText_traced ?_ fun source => ?_)) fun source => ?_))
  · rw [List.append_assoc]
    refine hd.retries ?_ ?_ fun _ => ⟨_, candidate, report, rfl, hcandidate, hreport, ?_, ?_⟩
    · simp [OnlyFiles, fileResult]
    · simp [fileResult]
    · -- the report is written to another file
      rw [← List.append_assoc, fileText, lastSome_concat, lastSome_concat, textAt,
        if_neg (joinPath_ne _).symm, textAt, if_pos rfl]
      rfl
    · rw [← List.append_assoc, fileText, lastSome_concat, textAt, if_pos rfl]
      rfl
  · rw [List.append_assoc]
    refine hd.retries ?_ ?_ fun hunbroken => ?_
    · simp [OnlyFiles, fileResult]
    · simp [fileResult]
    · simp [Unbroken, fileResult] at hunbroken
  · refine hd.retries ?_ ?_ fun hunbroken => ?_
    · simp [OnlyFiles, fileResult]
    · simp [fileResult]
    · simp [Unbroken, fileResult] at hunbroken

/-! ### All attempts -/

/-- A candidate that passes is read as a plan. -/
theorem exists_plan {attempt : ℕ} {x : Json × String × String}
    (h : (reportAt r attempt x).isPass = true) :
    ∃ p, reportAt r attempt x = ⟨[], some p⟩ ∧
      Plan.fromJson (promoteCandidateToPlan r attempt x.2.1 x.2.2 x.1) = some p := by
  rw [reportAt, validate] at h ⊢
  cases hplan : Plan.fromJson (promoteCandidateToPlan r attempt x.2.1 x.2.2 x.1) with
  | none =>
    rw [hplan] at h
    cases h
  | some p =>
    rw [hplan] at h
    have herrors : planErrors p (some r.surfaceMap) = [] := List.isEmpty_iff.mp h
    exact ⟨p, by dsimp only; rw [herrors], rfl⟩

/-- **The attempts that are left**, by induction on their number. -/
theorem attemptsFrom_traced {left : ℕ} {dir : Option String} (hleft : n + left = attemptBudget)
    (hd : Drafted r n priorErrors last h) :
    (attemptsFrom r left (n + 1) priorErrors dir last).Traced (fun _ _ => True)
      (fun h' outcome => Retries r (.ok outcome) h') (fun h' e => Retries r (.error e) h') h := by
  induction left generalizing n priorErrors dir last h with
  | zero =>
    obtain rfl : n = attemptBudget := hleft
    exact giveUp_traced hd
  | succ left ih =>
    have hn : n < attemptBudget := by omega
    refine Prog.traced_bind.mpr ((attemptOnce_traced r (n + 1) priorErrors dir h).mono
      (fun _ _ => id) ?_ fun h' e hfailed => hfailed.retries hd hn)
    rintro h' ⟨candidate, dir, report⟩ ⟨requestId, response, files, now, head, ha⟩
    cases hpass : report.isPass with
    | false =>
      dsimp only
      rw [hpass]
      exact ih (by omega) (ha.drafted hd hpass)
    | true =>
      obtain rfl : report = reportAt r (n + 1) (response.candidate, now, head) := ha.report
      obtain ⟨p, hplan, -⟩ := exists_plan hpass
      have hreport := congrArg ValidationReport.plan hplan
      dsimp only
      rw [hpass, hreport]
      exact ha.retries hd hn hpass hreport rfl

/-- **Every run** drafts again as long as candidates do not pass. -/
theorem retries_run (f : Oracle PlannerSignature) (r : PlanRequest) :
    Retries r (f.machine.run (orchestrate r) []).1 (f.machine.run (orchestrate r) []).2 := by
  have htraced : (orchestrate r).Traced (fun _ _ => True)
      (fun h' outcome => Retries r (.ok outcome) h') (fun h' e => Retries r (.error e) h') [] :=
    attemptsFrom_traced (Nat.zero_add attemptBudget) (drafted_nil r)
  have hrun := (htraced.wp f).run
  rcases hr : f.machine.run (orchestrate r) [] with ⟨e | outcome, h'⟩
  · rw [hr] at hrun
    exact hrun
  · rw [hr] at hrun
    exact hrun

end

end Planner

end Ao2
