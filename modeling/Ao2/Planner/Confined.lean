import Ao2.Files.Tree
import Ao2.Interaction.Machine
import Ao2.Json.Encoding
import Ao2.Planner.Fields
import Ao2.Texts.Lines

/-!
# Where the planner writes

The logs of a run belong in one directory below the build log root, which is named by a candidate.
The name is put together with the root as paths are, and the directory that it leads to is made with
every directory on the way.

A run meets a tree of directories, which nobody else changes, and the answers of a provider.

## Main results

* `not_confined_upward` — a candidate that calls itself `..`
-/

namespace Ao2

namespace Planner

open Files Interaction

/-! ### Runs -/

/-- What is given to a run from outside: a response and an identifier for each attempt. -/
structure PlannerEnv where
  cwd : Place
  responses : ℕ → Except ProviderError ProviderResponse
  requestIds : ℕ → String
  clock : ℕ → String
  heads : ℕ → String

structure PlannerWorld where
  tree : Files.Tree
  /-- The files that were written. -/
  written : List Place
  drafts : ℕ

def errnoText : Errno → String
  | .notFound => "No such file or directory (os error 2)"
  | .exists => "File exists (os error 17)"
  | .notADirectory => "Not a directory (os error 20)"
  | .isADirectory => "Is a directory (os error 21)"
  | .invalidInput => "file name contained an unexpected NUL byte"

def plannerStep (env : PlannerEnv) (w : PlannerWorld) : (o : PlannerOp) → o.Ans × PlannerWorld
  | .requestId => (env.requestIds w.drafts, w)
  | .draft _ => (env.responses w.drafts, { w with drafts := w.drafts + 1 })
  | .createDirAll path =>
    ((w.tree.createDirAll env.cwd path).1.mapError errnoText,
      { w with tree := (w.tree.createDirAll env.cwd path).2 })
  | .write path _ =>
    match w.tree.writeFile env.cwd path with
    | .ok (place, tree) => (.ok (), { w with tree := tree, written := w.written ++ [place] })
    | .error e => (.error (errnoText e), w)
  | .now => (env.clock w.drafts, w)
  | .headSubject _ => (env.heads w.drafts, w)

def plannerMachine (env : PlannerEnv) : Machine PlannerSignature PlannerWorld where
  step o w := plannerStep env w o

section

variable [Platform] [PlannerBuild] [PlannerLibrary]

/-- How a run ends that starts in a tree. -/
def plannerRun (env : PlannerEnv) (r : PlanRequest) (t : Files.Tree) :
    Except OrchestrateError PlanOutcome × PlannerWorld :=
  (plannerMachine env).run (orchestrate r) ⟨t, [], 0⟩

end

/-! ### In one directory -/

/-- What was made and written is in the directory `name` of the log root. The log root itself, and
what it is in, may have been made. -/
structure StaysIn (logRoot : Place) (name : String) (t : Files.Tree) (w : PlannerWorld) : Prop where
  made : ∀ q, w.tree.entry q ≠ t.entry q → q <+: logRoot ∨ logRoot ++ [name] <+: q
  written : ∀ q ∈ w.written, ∃ dir file, q = dir ++ [file] ∧ logRoot ++ [name] <+: dir

/-- **The planner writes only below its build log.** -/
def Confined [Platform] [PlannerBuild] [PlannerLibrary] (env : PlannerEnv) (r : PlanRequest) : Prop :=
  ∀ t : Files.Tree, t.entry env.cwd = some .dir →
    ∃ name, StaysIn (placeOf env.cwd r.buildLogRoot) name t (plannerRun env r t).2

/-- The name that the first candidate gives the directory. -/
def firstPlanId (env : PlannerEnv) : Option String :=
  match env.responses 0 with
  | .ok response => some (planIdOf response.candidate (env.requestIds 0))
  | .error _ => none

/-- The path passes nothing but the log root, what it is in, what the working directory is in, and
one directory of the log root, and it leads into that, or to where the first log cannot be written. -/
def KeepsBelow (cwd : Place) (buildLogRoot planId : String) : Prop :=
  let path := joinPath buildLogRoot planId
  let logRoot := placeOf cwd buildLogRoot
  let places := passed (startOf cwd path) (pathNames path)
  '\x00' ∈ path.toList ∨
    ∃ name, (∀ q ∈ places, q <+: cwd ∨ q <+: logRoot ∨ logRoot ++ [name] <+: q) ∧
      (logRoot ++ [name] <+: placeOf cwd path ∨ placeOf cwd path ++ [attemptFile 1] ∈ places ∨
        placeOf cwd path ++ [attemptFile 1] <+: cwd)

/-! ### The files of a run -/

theorem isName_attemptFile (attempt : ℕ) : IsName (attemptFile attempt) := by
  have hlist : (attemptFile attempt).toList =
      "attempt-".toList ++ (toString attempt).toList ++ ".json".toList := by
    rw [attemptFile, String.toList_append, String.toList_append]
  have hlong : 9 < (attemptFile attempt).toList.length := by
    rw [hlist, List.length_append, List.length_append]
    simp
    omega
  have hdigits : ∀ c ∈ (toString attempt).toList, c.isDigit = true := by
    intro c hc
    rw [Nat.toString_eq_repr, Nat.toList_repr] at hc
    exact Nat.isDigit_of_mem_toDigits (by decide) (by decide) hc
  have hno {c : Char} (hdigit : c.isDigit = false) (hleft : c ∉ "attempt-".toList)
      (hright : c ∉ ".json".toList) : c ∉ (attemptFile attempt).toList := by
    rw [hlist, List.mem_append, List.mem_append, not_or, not_or]
    refine ⟨⟨hleft, fun hmem => ?_⟩, hright⟩
    rw [hdigits c hmem] at hdigit
    cases hdigit
  have hne {s : String} (hs : s.toList.length ≤ 9) : attemptFile attempt ≠ s := by
    rintro rfl
    omega
  exact ⟨hne (by decide), hno (by decide) (by decide) (by decide), hne (by decide), hne (by decide),
    hno (by decide) (by decide) (by decide)⟩

theorem isName_candidateFail : IsName "candidate.fail.json" := by constructor <;> decide

theorem isName_validationErrors : IsName "validation-errors.txt" := by constructor <;> decide

/-! ### The logs -/

/-- Nothing but files in a directory was written. -/
structure Logs (dir : Place) (w w' : PlannerWorld) : Prop where
  dirs : ∀ q, w.tree.entry q = some .dir → w'.tree.entry q = some .dir
  made : ∀ q, w'.tree.entry q ≠ w.tree.entry q → ∃ file, q = dir ++ [file]
  kept : w.written ⊆ w'.written
  written : ∀ q ∈ w'.written, q ∈ w.written ∨ ∃ file, q = dir ++ [file]

theorem Logs.refl (dir : Place) (w : PlannerWorld) : Logs dir w w where
  dirs _ h := h
  made _ h := absurd rfl h
  kept := List.Subset.refl _
  written _ h := .inl h

theorem Logs.trans {dir : Place} {w w' w'' : PlannerWorld} (h : Logs dir w w') (h' : Logs dir w' w'') :
    Logs dir w w'' where
  dirs q hq := h'.dirs q (h.dirs q hq)
  made q hq := by
    by_cases heq : w'.tree.entry q = w.tree.entry q
    · exact h'.made q fun heq' => hq (heq'.trans heq)
    · exact h.made q heq
  kept := List.Subset.trans h.kept h'.kept
  written q hq := (h'.written q hq).elim (h.written q) .inr

theorem logs_drafts (dir : Place) (w : PlannerWorld) : Logs dir w { w with drafts := w.drafts + 1 } where
  dirs _ h := h
  made _ h := absurd rfl h
  kept := List.Subset.refl _
  written _ h := .inl h

/-- From here the program comes to a world in any case. -/
def Leads (env : PlannerEnv) {α : Type} (p : PlannerProg α) (Q : α → PlannerWorld → Prop)
    (E : PlannerWorld → Prop) (w : PlannerWorld) : Prop :=
  (plannerMachine env).wp (fun _ _ => True) p Q (fun _ => E) w

section

variable {env : PlannerEnv} {α β : Type} {E : PlannerWorld → Prop} {w : PlannerWorld}

theorem Leads.bind {p : PlannerProg α} {g : α → PlannerProg β} {Q : β → PlannerWorld → Prop}
    (hp : Leads env p (fun a w' => Leads env (g a) Q E w') E w) : Leads env (p.bind g) Q E w :=
  Machine.wp_bind.mpr hp

theorem leads_performPlanner {o : PlannerOp} {Q : o.Ans → PlannerWorld → Prop}
    (hQ : Q (plannerStep env w o).1 (plannerStep env w o).2) : Leads env (performPlanner o) Q E w :=
  ⟨trivial, hQ⟩

theorem leads_ofExcept {x : Except OrchestrateError α} {Q : α → PlannerWorld → Prop}
    (hok : ∀ a, x = .ok a → Q a w) (herror : ∀ e, x = .error e → E w) :
    Leads env (.ofExcept x) Q E w := Machine.wp_ofExcept hok herror

theorem leads_resolveDir_some {r : PlanRequest} {dir planId : String}
    {Q : String → PlannerWorld → Prop} (hQ : Q dir w) :
    Leads env (resolveDir r (some dir) planId) Q E w := hQ

theorem leads_createDirAll {path : String} {Q : Unit → PlannerWorld → Prop}
    (hok : ∀ t', w.tree.createDirAll env.cwd path = (.ok (), t') → Q () { w with tree := t' })
    (herror : ∀ e t', w.tree.createDirAll env.cwd path = (.error e, t') → E { w with tree := t' }) :
    Leads env (createDirAll path) Q E w := by
  refine (leads_performPlanner ?_).bind
  rw [plannerStep]
  cases hmake : w.tree.createDirAll env.cwd path with
  | mk x t' =>
    cases x with
    | ok u => exact leads_ofExcept (fun _ _ => hok t' hmake) fun _ h => by cases h
    | error e => exact leads_ofExcept (fun _ h => by cases h) fun _ _ => herror e t' hmake

/-- A text that is written to a file in a directory, or is not. -/
theorem leads_writeText {Q : Unit → PlannerWorld → Prop} {dir name : String} (text : String)
    (hcwd : w.tree.entry env.cwd = some .dir) (hname : IsName name)
    (hQ : ∀ w', Logs (placeOf env.cwd dir) w w' →
      (∃ t', w.tree.writeFile env.cwd (joinPath dir name) =
        .ok (placeOf env.cwd dir ++ [name], t')) →
      placeOf env.cwd dir ++ [name] ∈ w'.written → Q () w')
    (hE : (∀ x, w.tree.writeFile env.cwd (joinPath dir name) ≠ .ok x) → E w) :
    Leads env (writeText (joinPath dir name) text) Q E w := by
  refine (leads_performPlanner ?_).bind
  rw [plannerStep]
  cases hwrite : w.tree.writeFile env.cwd (joinPath dir name) with
  | error e => exact leads_ofExcept (fun _ h => by cases h) fun _ _ => hE (by rw [hwrite]; exact nofun)
  | ok x =>
    obtain ⟨q, t'⟩ := x
    obtain ⟨hq, hfree, hentry⟩ := Files.Tree.writeFile_eq_ok hcwd hwrite
    rw [hname.placeOf_joinPath] at hq
    subst hq
    refine leads_ofExcept (fun _ _ => hQ _ ⟨?_, ?_, ?_, ?_⟩ ⟨t', hwrite⟩ ?_) fun _ h => by cases h
    · intro q' hq'
      dsimp only
      rw [hentry, if_neg, hq']
      rintro rfl
      exact hfree hq'
    · intro q' hq'
      dsimp only at hq'
      rw [hentry] at hq'
      split_ifs at hq' with heq
      · exact ⟨name, heq⟩
      · exact absurd rfl hq'
    · exact List.subset_append_left _ _
    · intro q' hq'
      exact (List.mem_append.mp hq').imp_right fun h => ⟨name, List.mem_singleton.mp h⟩
    · exact List.mem_append_right _ (List.mem_singleton_self _)

end

section

variable [PlannerLibrary] {env : PlannerEnv}

theorem leads_giveUp (dir : String) (last : Option (String × ValidationReport)) (w : PlannerWorld)
    (hcwd : w.tree.entry env.cwd = some .dir) :
    Leads env (giveUp (some dir) last) (fun _ => Logs (placeOf env.cwd dir) w)
      (Logs (placeOf env.cwd dir) w) w := by
  cases last with
  | none => exact Logs.refl _ w
  | some x =>
    obtain ⟨text, report⟩ := x
    refine Leads.bind (leads_writeText _ hcwd isName_candidateFail (fun w₁ h₁ _ _ => ?_)
      fun _ => .refl _ w)
    refine Leads.bind (leads_writeText _ (h₁.dirs _ hcwd) isName_validationErrors
      (fun w₂ h₂ _ _ => ?_) fun _ => h₁)
    exact h₁.trans h₂

variable [Platform] [PlannerBuild]

/-- What is done once the log of a candidate is written, with no further change. -/
theorem leads_attemptOnce (r : PlanRequest) (dir : String) (attempt : ℕ) (priorErrors : List String)
    (w : PlannerWorld) (hcwd : w.tree.entry env.cwd = some .dir) :
    Leads env (attemptOnce r attempt priorErrors (some dir))
      (fun x w' => x.2.1 = dir ∧ Logs (placeOf env.cwd dir) w w') (Logs (placeOf env.cwd dir) w) w := by
  refine Leads.bind (leads_performPlanner ?_)
  refine Leads.bind (leads_performPlanner ?_)
  have h₁ := logs_drafts (placeOf env.cwd dir) w
  refine Leads.bind (leads_ofExcept (fun response _ => ?_) fun _ _ => h₁)
  refine Leads.bind (leads_resolveDir_some ?_)
  refine Leads.bind (leads_writeText _ hcwd (isName_attemptFile attempt)
    (fun w₂ h₂ _ _ => ?_) fun _ => h₁)
  refine Leads.bind (leads_performPlanner ?_)
  refine Leads.bind (leads_performPlanner ?_)
  exact ⟨rfl, h₁.trans h₂⟩

/-- The attempts after the first write to its directory only. -/
theorem leads_attemptsFrom (r : PlanRequest) (dir : String) (left attempt : ℕ)
    (priorErrors : List String) (last : Option (String × ValidationReport)) (w : PlannerWorld)
    (hcwd : w.tree.entry env.cwd = some .dir) :
    Leads env (attemptsFrom r left attempt priorErrors (some dir) last)
      (fun _ => Logs (placeOf env.cwd dir) w) (Logs (placeOf env.cwd dir) w) w := by
  induction left generalizing attempt priorErrors last w with
  | zero => exact leads_giveUp dir last w hcwd
  | succ left ih =>
    refine Leads.bind (Machine.wp_mono (leads_attemptOnce r dir attempt priorErrors w hcwd)
      (fun _ _ h => h) ?_ fun _ _ h => h)
    rintro ⟨candidate, dir', report⟩ w₁ ⟨rfl, h₁⟩
    dsimp only
    split
    · exact h₁
    · exact Machine.wp_mono (ih (attempt + 1) _ _ w₁ (h₁.dirs _ hcwd)) (fun _ _ h => h)
        (fun _ _ h => h₁.trans h) fun _ _ h => h₁.trans h

/-- **A run**: the directory is made for the first candidate, the first log is written, and what
follows is written to the same directory. -/
theorem leads_orchestrate (r : PlanRequest) {Q : PlannerWorld → Prop} {t : Files.Tree}
    (hcwd : t.entry env.cwd = some .dir)
    (hnone : firstPlanId env = none → ∀ w, w.tree = t → w.written = [] → Q w)
    (hmade : ∀ planId e t', firstPlanId env = some planId →
      t.createDirAll env.cwd (joinPath r.buildLogRoot planId) = (.error e, t') →
      ∀ w, w.tree = t' → w.written = [] → Q w)
    (hfirst : ∀ planId t', firstPlanId env = some planId →
      t.createDirAll env.cwd (joinPath r.buildLogRoot planId) = (.ok (), t') →
      (∀ x, t'.writeFile env.cwd (joinPath (joinPath r.buildLogRoot planId) (attemptFile 1)) ≠ .ok x) →
      ∀ w, w.tree = t' → w.written = [] → Q w)
    (hlogs : ∀ planId t' t'' w₀ w, firstPlanId env = some planId →
      t.createDirAll env.cwd (joinPath r.buildLogRoot planId) = (.ok (), t') →
      t'.writeFile env.cwd (joinPath (joinPath r.buildLogRoot planId) (attemptFile 1)) =
        .ok (placeOf env.cwd (joinPath r.buildLogRoot planId) ++ [attemptFile 1], t'') →
      w₀.tree = t' → w₀.written = [] →
      placeOf env.cwd (joinPath r.buildLogRoot planId) ++ [attemptFile 1] ∈ w.written →
      Logs (placeOf env.cwd (joinPath r.buildLogRoot planId)) w₀ w → Q w) :
    Q (plannerRun env r t).2 := by
  have hleads : Leads env (orchestrate r) (fun _ => Q) Q ⟨t, [], 0⟩ := by
    rw [orchestrate, attemptBudget, attemptsFrom]
    refine Leads.bind (Leads.bind (leads_performPlanner ?_))
    refine Leads.bind (leads_performPlanner ?_)
    dsimp only [plannerStep]
    cases hresponse : env.responses 0 with
    | error e =>
      refine Leads.bind (leads_ofExcept (fun _ h => by cases h) fun _ _ => ?_)
      exact hnone (by rw [firstPlanId, hresponse]) _ rfl rfl
    | ok response =>
      have hid : firstPlanId env = some (planIdOf response.candidate (env.requestIds 0)) := by
        rw [firstPlanId, hresponse]
      refine Leads.bind (leads_ofExcept (fun response' h => ?_) fun _ h => by cases h)
      obtain rfl : response = response' := Except.ok.inj h
      refine Leads.bind (Leads.bind (leads_createDirAll (fun t' hmake => ?_) fun e t' hmake => ?_))
      · have hcwd' : t'.entry env.cwd = some .dir := by
          have hgrows := Files.Tree.createDirAll_grows hcwd
            (joinPath r.buildLogRoot (planIdOf response.candidate (env.requestIds 0)))
          rw [hmake] at hgrows
          exact hgrows.dir hcwd
        refine Leads.bind (leads_writeText _ hcwd' (isName_attemptFile 1)
          (fun w₁ h₁ hwrite hmem => ?_) fun hno => ?_)
        · obtain ⟨t'', hwrite⟩ := hwrite
          refine Leads.bind (leads_performPlanner ?_)
          refine Leads.bind (leads_performPlanner ?_)
          have hQ {w} (hw : Logs _ w₁ w) : Q w := hlogs _ t' t'' ⟨t', [], 1⟩ w hid hmake hwrite rfl rfl
            (hw.kept hmem) (h₁.trans hw)
          refine Machine.wp_done _ |>.mpr ?_
          dsimp only
          split
          · exact hQ (.refl _ _)
          · exact Machine.wp_mono (leads_attemptsFrom r _ 2 2 _ _ w₁ (h₁.dirs _ hcwd'))
              (fun _ _ h => h) (fun _ _ h => hQ h) fun _ _ h => hQ h
        · exact hfirst _ t' hid hmake hno _ rfl rfl
      · exact hmade _ e t' hid hmake _ rfl rfl
  rcases hleads.run_world with ⟨_, h⟩ | ⟨_, h⟩
  · exact h
  · exact h

/-! ### When the planner is confined -/

omit [PlannerLibrary] [Platform] [PlannerBuild] in
/-- What a path may pass, if nothing that it passes is made elsewhere. -/
theorem made_of_keeps {t t' : Files.Tree} {logRoot : Place} {name : String} {places : List Place}
    (hcwd : t.entry env.cwd = some .dir) (hgrows : Files.Tree.Grows t t' places)
    (hplaces : ∀ q ∈ places, q <+: env.cwd ∨ q <+: logRoot ∨ logRoot ++ [name] <+: q) (q : Place)
    (hq : t'.entry q ≠ t.entry q) : q <+: logRoot ∨ logRoot ++ [name] <+: q := by
  rcases hgrows q with heq | ⟨hnone, -, hmem⟩
  · exact absurd heq hq
  · refine (hplaces q hmem).resolve_left fun hpre => ?_
    rw [Files.Tree.entry_of_prefix_dir hcwd hpre] at hnone
    cases hnone

theorem confined_of_keepsBelow {r : PlanRequest}
    (h : ∀ planId, firstPlanId env = some planId → KeepsBelow env.cwd r.buildLogRoot planId) :
    Confined env r := by
  intro t hcwd
  cases hid : firstPlanId env with
  | none =>
    refine ⟨"", leads_orchestrate r hcwd (fun _ w htree hwritten => ⟨fun q hq => ?_, fun q hq => ?_⟩)
      ?_ ?_ ?_⟩
    · rw [htree] at hq
      exact absurd rfl hq
    · rw [hwritten] at hq
      exact absurd hq List.not_mem_nil
    · intro planId _ _ hsome
      rw [hid] at hsome
      cases hsome
    · intro planId _ hsome
      rw [hid] at hsome
      cases hsome
    · intro planId _ _ _ _ hsome
      rw [hid] at hsome
      cases hsome
  | some planId =>
    have hgrows := Files.Tree.createDirAll_grows hcwd (joinPath r.buildLogRoot planId)
    rcases h planId hid with hnul | ⟨name, hplaces, hfinal⟩
    · have hmade : t.createDirAll env.cwd (joinPath r.buildLogRoot planId) = (.error .invalidInput, t) := by
        rw [Files.Tree.createDirAll, if_pos hnul]
      refine ⟨"", leads_orchestrate r hcwd ?_ ?_ ?_ ?_⟩
      · intro hno
        rw [hid] at hno
        cases hno
      · intro planId' e t' hid' hmade' w htree hwritten
        obtain rfl := Option.some.inj (hid.symm.trans hid')
        rw [hmade] at hmade'
        obtain ⟨-, rfl⟩ := Prod.mk.inj hmade'
        refine ⟨fun q hq => ?_, fun q hq => ?_⟩
        · rw [htree] at hq
          exact absurd rfl hq
        · rw [hwritten] at hq
          exact absurd hq List.not_mem_nil
      · intro planId' t' hid' hmade'
        obtain rfl := Option.some.inj (hid.symm.trans hid')
        rw [hmade] at hmade'
        cases (Prod.mk.inj hmade').1
      · intro planId' t' _ _ _ hid' hmade'
        obtain rfl := Option.some.inj (hid.symm.trans hid')
        rw [hmade] at hmade'
        cases (Prod.mk.inj hmade').1
    · -- what is made before the first log is written
      have hstays {x : Except Errno Unit} {t' : Files.Tree}
          (hmade : t.createDirAll env.cwd (joinPath r.buildLogRoot planId) = (x, t'))
          (w : PlannerWorld) (htree : w.tree = t') (hwritten : w.written = []) :
          StaysIn (placeOf env.cwd r.buildLogRoot) name t w := by
        rw [hmade] at hgrows
        refine ⟨fun q hq => ?_, fun q hq => ?_⟩
        · rw [htree] at hq
          exact made_of_keeps hcwd hgrows hplaces q hq
        · rw [hwritten] at hq
          exact absurd hq List.not_mem_nil
      refine ⟨name, leads_orchestrate r hcwd ?_ ?_ ?_ ?_⟩
      · intro hno
        rw [hid] at hno
        cases hno
      · intro planId' e t' hid' hmade
        obtain rfl := Option.some.inj (hid.symm.trans hid')
        exact hstays hmade
      · intro planId' t' hid' hmade _
        obtain rfl := Option.some.inj (hid.symm.trans hid')
        exact hstays hmade
      · intro planId' t' t'' w₀ w hid' hmade hwrite htree hwritten hmem hlogs
        obtain rfl := Option.some.inj (hid.symm.trans hid')
        have hbelow : placeOf env.cwd r.buildLogRoot ++ [name] <+:
            placeOf env.cwd (joinPath r.buildLogRoot planId) := by
          have hcwd' : t'.entry env.cwd = some .dir := by
            rw [hmade] at hgrows
            exact hgrows.dir hcwd
          refine hfinal.resolve_right fun hdir => (Files.Tree.writeFile_eq_ok hcwd' hwrite).2.1 ?_
          rcases hdir with hdir | hdir
          · exact (Files.Tree.passed_of_createDirAll hcwd hmade).2 _ hdir
          · exact Files.Tree.entry_of_prefix_dir hcwd' hdir
        refine ⟨fun q hq => ?_, fun q hq => ?_⟩
        · by_cases heq : w.tree.entry q = w₀.tree.entry q
          · rw [heq, htree] at hq
            rw [hmade] at hgrows
            exact made_of_keeps hcwd hgrows hplaces q hq
          · obtain ⟨file, rfl⟩ := hlogs.made q heq
            exact .inr (hbelow.trans (List.prefix_append _ _))
        · rcases hlogs.written q hq with hq | ⟨file, rfl⟩
          · rw [hwritten] at hq
            exact absurd hq List.not_mem_nil
          · exact ⟨_, file, rfl, hbelow⟩

omit [PlannerLibrary] [Platform] [PlannerBuild] in
/-- Two directories that the same place is in are in each other. -/
theorem prefix_cases {q logRoot p : Place} {name : String} (hq : q <+: p) (hp : logRoot ++ [name] <+: p) :
    q <+: logRoot ∨ logRoot ++ [name] <+: q := by
  rcases List.prefix_or_prefix_of_prefix hq hp with h | h
  · rcases List.prefix_concat_iff.mp h with rfl | h
    · exact .inr List.prefix_rfl
    · exact .inl h
  · exact .inr h

theorem keepsBelow_of_confined {r : PlanRequest} (h : Confined env r) {planId : String}
    (hid : firstPlanId env = some planId) : KeepsBelow env.cwd r.buildLogRoot planId := by
  by_cases hnul : '\x00' ∈ (joinPath r.buildLogRoot planId).toList
  · exact .inl hnul
  -- the place that the path leads to is there, and nothing else that it passes
  generalize hplace : placeOf env.cwd (joinPath r.buildLogRoot planId) = place at *
  have hentry (q : Place) : (Files.Tree.bare place env.cwd).entry q = none ∨
      (Files.Tree.bare place env.cwd).entry q = some .dir := by
    rw [Files.Tree.bare]
    dsimp only
    split_ifs
    · exact .inr rfl
    · exact .inl rfl
  have hcwd : (Files.Tree.bare place env.cwd).entry env.cwd = some .dir := if_pos (.inr List.prefix_rfl)
  obtain ⟨name, hstays⟩ := h (Files.Tree.bare place env.cwd) hcwd
  have hok := Files.Tree.createDirAll_ok hcwd hnul (fun q _ => hentry q)
    (by rw [hplace]; exact if_pos (.inl List.prefix_rfl))
  have hgrows := Files.Tree.createDirAll_grows hcwd (joinPath r.buildLogRoot planId)
  cases hmake : (Files.Tree.bare place env.cwd).createDirAll env.cwd (joinPath r.buildLogRoot planId) with
  | mk x t' =>
    rw [hmake] at hok hgrows
    dsimp only at hok
    subst hok
    have hpassed := (Files.Tree.passed_of_createDirAll hcwd hmake).2
    have hsame {planId' : String} (hid' : firstPlanId env = some planId') : planId' = planId :=
      Option.some.inj (hid'.symm.trans hid)
    have hrun := leads_orchestrate r (Q := fun w =>
      (∀ q, t'.entry q = some .dir → w.tree.entry q = some .dir) ∧
        (place ++ [attemptFile 1] ∈ w.written ∨ t'.entry (place ++ [attemptFile 1]) = some .dir)) hcwd
      (fun hno => by rw [hid] at hno; cases hno)
      (fun planId' e t₁ hid' hmake' => by
        rw [hsame hid', hmake] at hmake'
        cases (Prod.mk.inj hmake').1)
      (fun planId' t₁ hid' hmake' hno w htree hwritten => by
        rw [hsame hid', hmake] at hmake'
        obtain ⟨-, rfl⟩ := Prod.mk.inj hmake'
        refine ⟨fun q hq => by rw [htree, hq], .inr ?_⟩
        by_contra hfree
        have hopen : t'.entry (place ++ [attemptFile 1]) ≠ some .closed := by
          rcases hgrows (place ++ [attemptFile 1]) with heq | ⟨-, hdir, -⟩
          · rw [heq]
            rcases hentry (place ++ [attemptFile 1]) with hq | hq <;> rw [hq] <;> decide
          · exact absurd hdir hfree
        obtain ⟨t₂, hwrite⟩ := Files.Tree.writeFile_ok (hgrows.dir hcwd) (isName_attemptFile 1) hnul hpassed
          (by rw [hplace]; exact hfree) (by rw [hplace]; exact hopen)
        exact hno _ (hsame hid' ▸ hwrite))
      (fun planId' t₁ t₂ w₀ w hid' hmake' _ htree _ hmem hlogs => by
        rw [hsame hid', hmake] at hmake'
        obtain ⟨-, rfl⟩ := Prod.mk.inj hmake'
        rw [hsame hid', hplace] at hmem
        exact ⟨fun q hq => hlogs.dirs q (by rw [htree, hq]), .inl hmem⟩)
    obtain ⟨hdirs, hlog⟩ := hrun
    -- what is passed and was not there has been made
    have hmade : ∀ q ∈ passed (startOf env.cwd (joinPath r.buildLogRoot planId))
        (pathNames (joinPath r.buildLogRoot planId)), ¬ q <+: place → ¬ q <+: env.cwd →
        q <+: placeOf env.cwd r.buildLogRoot ∨ placeOf env.cwd r.buildLogRoot ++ [name] <+: q := by
      intro q hq hnot hnot'
      refine hstays.made q ?_
      rw [hdirs q (hpassed q hq), Files.Tree.bare]
      dsimp only
      rw [if_neg (not_or.mpr ⟨hnot, hnot'⟩)]
      decide
    have hlong : ¬ place ++ [attemptFile 1] <+: place := by
      intro hpre
      have hlen := hpre.length_le
      rw [List.length_append, List.length_singleton] at hlen
      omega
    have hlast : placeOf env.cwd r.buildLogRoot ++ [name] <+: place ∨
        place ++ [attemptFile 1] ∈ passed (startOf env.cwd (joinPath r.buildLogRoot planId))
          (pathNames (joinPath r.buildLogRoot planId)) ∨ place ++ [attemptFile 1] <+: env.cwd := by
      rcases hlog with hmem | hdir
      · obtain ⟨dir, file, heq, hbelow⟩ := hstays.written _ hmem
        rw [(List.append_inj' heq rfl).1]
        exact .inl hbelow
      · rcases hgrows (place ++ [attemptFile 1]) with heq | ⟨-, -, hmem⟩
        · rw [hdir, Files.Tree.bare] at heq
          dsimp only at heq
          split_ifs at heq with hbare
          exact .inr (.inr (hbare.resolve_left hlong))
        · exact .inr (.inl hmem)
    refine .inr ⟨name, fun q hq => ?_, by rw [hplace]; exact hlast⟩
    by_cases hcwd' : q <+: env.cwd
    · exact .inl hcwd'
    refine .inr ?_
    by_cases hq' : q <+: place
    · have habove : q <+: place ++ [attemptFile 1] := hq'.trans (List.prefix_append _ _)
      rcases hlast with hbelow | hmem | hbelow
      · exact prefix_cases hq' hbelow
      · rcases hmade _ hmem hlong fun hpre => hcwd' (habove.trans hpre) with hbelow | hbelow
        · exact .inl (habove.trans hbelow)
        · rcases List.prefix_concat_iff.mp hbelow with heq | hbelow
          · exact .inl ((List.append_inj' heq rfl).1 ▸ hq')
          · exact prefix_cases hq' hbelow
      · exact absurd (habove.trans hbelow) hcwd'
    · exact hmade q hq hq' hcwd'

/-- **The planner is confined if and only if the first name keeps below the log root.** -/
theorem confined_iff (env : PlannerEnv) (r : PlanRequest) : Confined env r ↔
    ∀ planId, firstPlanId env = some planId → KeepsBelow env.cwd r.buildLogRoot planId :=
  ⟨fun h _ hid => keepsBelow_of_confined h hid, confined_of_keepsBelow⟩

end

/-! ### A candidate that calls itself `..` -/

@[reducible] def plainBuild : PlannerBuild := ⟨"0000", "0.1.0"⟩

@[reducible] def plainLibrary : PlannerLibrary := ⟨fun _ => "invalid", fun s => s, fun l => l⟩

attribute [local instance] spellingPlatform plainBuild plainLibrary

def upwardEnv : PlannerEnv where
  cwd := []
  responses _ := .ok ⟨.obj [("plan_id", .str "..")], none⟩
  requestIds _ := "01ARZ3NDEKTSV4RRFFQ69G5FAV"
  clock _ := ""
  heads _ := ""

def upwardRequest : PlanRequest := ⟨"", ⟨[], ""⟩, "log", "", "codex"⟩

theorem not_confined_upward : ¬ Confined upwardEnv upwardRequest := by
  intro h
  have hkeeps : KeepsBelow [] "log" ".." := keepsBelow_of_confined h rfl
  have hplace : placeOf [] (joinPath "log" "..") = [] := by decide
  have hpassed : passed (startOf [] (joinPath "log" "..")) (pathNames (joinPath "log" "..")) =
      [["log"], []] := by decide
  rw [KeepsBelow, hplace, hpassed] at hkeeps
  rcases hkeeps with hnul | ⟨name, -, hbelow | hmem | hbelow⟩
  · exact absurd hnul (by decide)
  · rw [List.prefix_nil] at hbelow
    exact List.append_ne_nil_of_right_ne_nil _ (List.cons_ne_nil _ _) hbelow
  · exact absurd hmem (by decide)
  · exact absurd hbelow (by decide)

end Planner

end Ao2
