import Ao2.Worker.Qualification
import Mathlib.Tactic.NormNum

/-!
# The limits of a qualification

Every child process of a qualification is to be run within the time limit that the task names, and none
once the deadline for all of them has passed; a task whose limits are no numbers is to be refused before
anything is run. The limits are read with `float`, which takes texts and truth values for numbers, and
they are compared with bounds, which lets pass what is no number. The tools of the mode `toolchain` are run
whatever the deadline is.

## Main results

* `windowsStackQualification_running` — what is known where a child process is run
-/

namespace Ao2

open Python Interaction

namespace Qualification

/-! ### What limits are to do -/

/-- How long a child process took. -/
def childDuration : Event QualificationSignature → Option Double
  | ⟨.runBoundedChild _ _, some child⟩ => some child.durationSeconds
  | _ => none

section

variable [DoubleArithmetic]

/-- How long the child processes of a history took. -/
def totalDuration (h : List (Event QualificationSignature)) : Double :=
  (h.filterMap childDuration).foldl addDouble (.finite 0)

/-- A number of a JSON text, with its double. -/
def IsNumber (v : PyJson Double) (q : ℚ) : Prop :=
  (∃ n, v = .int n ∧ DoubleArithmetic.round n = .finite q) ∨ v = .float (.finite q)

/-- The time limit is a number within its bounds, if one is given. -/
def ProperTimeout (parameters : Members Double) : Prop :=
  ∀ v, parameters.lookup (ofString "timeout_seconds") = some v →
    ∃ q, IsNumber v q ∧ minStackQualificationTimeout ≤ q ∧ q ≤ maxStackQualificationTimeout

/-- The deadline is a positive number, if one is given. -/
def ProperDeadline (parameters : Members Double) : Prop :=
  ∀ v, parameters.lookup (ofString "global_deadline_seconds") = some v → ∃ q, IsNumber v q ∧ 0 < q

end

section

variable [FloatValue Double] [DoubleArithmetic]

/-- The limits of a task, where a child process is run after a history. -/
structure WithinLimits (parameters : Members Double) (h : List (Event QualificationSignature))
    (timeoutSeconds : Double) : Prop where
  timeout : ProperTimeout parameters
  deadline : ProperDeadline parameters
  bounds : ∃ q, timeoutSeconds = .finite q ∧ minStackQualificationTimeout ≤ q ∧
    q ≤ maxStackQualificationTimeout ∧ (readMode parameters = .ok .toolchain → q ≤ 30)
  notExceeded : ∀ v d, parameters.lookup (ofString "global_deadline_seconds") = some v →
    toFloat v = .ok d → d.lt (totalDuration h) = false

/-- The limits of a task bind in every run, however the environment answers. -/
def LimitsBind (profiles : RepositoryProfiles) (parameters : Members Double) : Prop :=
  ∀ (f : Oracle QualificationSignature) (pre post : List (Event QualificationSignature))
    (command : ChildCommand) (timeoutSeconds : Double) (answer : Option Child),
    (f.machine.run (windowsStackQualification profiles parameters) []).2 =
        pre ++ ⟨.runBoundedChild command timeoutSeconds, answer⟩ :: post →
      WithinLimits parameters pre timeoutSeconds

/-- There is a command to run. -/
def HasCommand (profiles : RepositoryProfiles) (parameters : Members Double) (mode : Mode) : Prop :=
  mode = .toolchain ∨ ∃ repositories, readRepositories parameters = .ok repositories ∧
    ∃ repo ∈ repositories, qualificationProfile profiles repo mode ≠ []

/-- A task comes to a child process in some environment: its parameters pass every check. -/
structure Comes (profiles : RepositoryProfiles) (parameters : Members Double) (mode : Mode)
    (timeoutSeconds : Double) (deadline : Option Double) : Prop where
  readsMode : readMode parameters = .ok mode
  encoded : hasParameter parameters "physical_host_lease_base64" = mode.isPhysical
  digest : hasParameter parameters "physical_host_lease_sha256" = mode.isPhysical
  readsTimeout : readTimeout parameters = .ok timeoutSeconds
  readsDeadline : readDeadline parameters = .ok deadline
  reuse : reuseInvalidated parameters = false
  command : HasCommand profiles parameters mode

omit [FloatValue Double] [DoubleArithmetic] in
/-- A limit that does not bind: a time limit that is no number or a text, a deadline that is no number,
infinite, a truth value or a text, and every deadline for tools. -/
def Loose (parameters : Members Double) (mode : Mode) : Prop :=
  (∃ v, parameters.lookup (ofString "timeout_seconds") = some v ∧ (v = .float .nan ∨ ∃ s, v = .str s)) ∨
    (∃ v, parameters.lookup (ofString "global_deadline_seconds") = some v ∧
      (mode = .toolchain ∨ v = .float .nan ∨ v = .float (.infinite false) ∨ v = .bool true ∨
        ∃ s, v = .str s))

/-! ### Where a child process is run -/

omit [FloatValue Double] in
theorem totalDuration_concat (h : List (Event QualificationSignature)) (e : Event QualificationSignature) :
    totalDuration (h ++ [e]) = match childDuration e with
      | some d => addDouble (totalDuration h) d
      | none => totalDuration h := by
  rw [totalDuration, List.filterMap_append, List.foldl_append]
  cases hd : childDuration e with
  | none => rw [List.filterMap_cons_none hd]; rfl
  | some d => rw [List.filterMap_cons_some hd]; rfl

/-- What is known of the operations of a profile: its child processes have the time limit, and the
deadline has not passed. -/
def Timed (timeoutSeconds : Double) (deadline : Option Double) (more : Prop)
    (h : List (Event QualificationSignature)) : QualificationOp → Prop
  | .runBoundedChild _ t => t = timeoutSeconds ∧ exceeds deadline (totalDuration h) = false ∧ more
  | _ => True

/-- The progress agrees with the history. -/
structure Agrees (deadline : Option Double) (h : List (Event QualificationSignature)) (p : Progress) :
    Prop where
  cumulative : p.cumulativeDurationSeconds = totalDuration h
  within : p.deadlineExceeded = false → exceeds deadline (totalDuration h) = false

omit [FloatValue Double] in
/-- **The commands of a profile.** -/
theorem runCommands_traced {timeoutSeconds : Double} {deadline : Option Double} {more : Prop}
    (repo head : PyStr) (commands : List ProfileCommand) (hmore : commands ≠ [] → more) {p : Progress}
    {h : List (Event QualificationSignature)} (hp : Agrees deadline h p) (hopen : p.deadlineExceeded = false) :
    (runCommands timeoutSeconds deadline repo head commands p).Traced (Timed timeoutSeconds deadline more)
      (Agrees deadline) (fun _ _ => True) h := by
  induction commands generalizing p h with
  | nil => exact hp
  | cons command commands ih =>
    refine ⟨⟨rfl, hp.within hopen, hmore (List.cons_ne_nil command commands)⟩, fun answer => ?_⟩
    cases answer with
    | none => trivial
    | some child =>
      have htotal : addDouble p.cumulativeDurationSeconds child.durationSeconds =
          totalDuration (h ++ [⟨.runBoundedChild (.profile repo command) timeoutSeconds, some child⟩]) := by
        rw [totalDuration_concat, hp.cumulative]
        rfl
      change Prog.Traced _ _ _ _ (if exceeds deadline _ then _ else if child.status ≠ "accepted" then _ else _)
      split_ifs with hexceeds hstatus
      · exact ⟨htotal, fun hfalse => by cases hfalse⟩
      · refine ⟨htotal, fun _ => ?_⟩
        rw [← htotal]
        exact Bool.eq_false_iff.mpr hexceeds
      · refine ih (fun _ => hmore (List.cons_ne_nil command commands)) ⟨htotal, fun _ => ?_⟩ hopen
        rw [← htotal]
        exact Bool.eq_false_iff.mpr hexceeds

omit [FloatValue Double] in
theorem Agrees.ask {deadline : Option Double} {h : List (Event QualificationSignature)} {p : Progress}
    (hp : Agrees deadline h p) {e : Event QualificationSignature} (he : childDuration e = none)
    {p' : Progress} (hcumulative : p'.cumulativeDurationSeconds = p.cumulativeDurationSeconds)
    (hopen : p'.deadlineExceeded = p.deadlineExceeded) : Agrees deadline (h ++ [e]) p' := by
  have htotal : totalDuration (h ++ [e]) = totalDuration h := by rw [totalDuration_concat, he]
  exact ⟨by rw [hcumulative, hp.cumulative, htotal], fun hfalse => by
    rw [htotal]
    exact hp.within (hopen ▸ hfalse)⟩

omit [FloatValue Double] in
/-- **The profiles of the repositories.** -/
theorem runRepositories_traced {timeoutSeconds : Double} {deadline : Option Double} {more : Prop}
    (profiles : RepositoryProfiles) (mode : Mode) (repos : List PyStr)
    (hmore : ∀ repo ∈ repos, qualificationProfile profiles repo mode ≠ [] → more) {p : Progress}
    {h : List (Event QualificationSignature)} (hp : Agrees deadline h p) (hopen : p.deadlineExceeded = false) :
    (runRepositories timeoutSeconds deadline profiles mode repos p).Traced
      (Timed timeoutSeconds deadline more) (fun _ _ => True) (fun _ _ => True) h := by
  induction repos generalizing p h with
  | nil => trivial
  | cons repo repos ih =>
    have hrest := fun r hr => hmore r (List.mem_cons_of_mem repo hr)
    refine ⟨trivial, fun beneath => ?_⟩
    cases beneath with
    | false => trivial
    | true =>
      refine ⟨trivial, fun head => ⟨trivial, fun present => ?_⟩⟩
      have hasked (p' : Progress) (hcumulative : p'.cumulativeDurationSeconds = p.cumulativeDurationSeconds)
          (hopen' : p'.deadlineExceeded = p.deadlineExceeded) : Agrees deadline
            (((h ++ [⟨.isBeneathFactory repo, true⟩]) ++ [⟨.repositoryHead repo, head⟩]) ++
              [⟨.hasGitDirectory repo, present⟩]) p' :=
        ((hp.ask rfl rfl rfl).ask rfl rfl rfl).ask rfl hcumulative hopen'
      change Prog.Traced _ _ _ _ (if present = false then _ else if _ then _ else _)
      split_ifs with hpresent hdelegated
      · exact ih hrest (hasked _ rfl rfl) hopen
      · exact ih hrest (hasked _ rfl rfl) hopen
      · rw [Prog.traced_bind]
        refine (runCommands_traced repo head _ (hmore repo List.mem_cons_self) (hasked p rfl rfl) hopen).mono
          (fun _ _ hC => hC) (fun h' p' hp' => ?_) (fun _ _ _ => trivial)
        split_ifs with hexceeded
        · trivial
        · exact ih hrest hp' (Bool.eq_false_iff.mpr hexceeded)

omit [FloatValue Double] [DoubleArithmetic] in
/-- **The tools.** -/
theorem runTools_traced (timeoutSeconds : Double) (tools : List String)
    {C : List (Event QualificationSignature) → QualificationOp → Prop}
    (hC : ∀ h command, C h (.runBoundedChild command timeoutSeconds))
    {h : List (Event QualificationSignature)} :
    (runTools timeoutSeconds tools).Traced C (fun _ _ => True) (fun _ _ => True) h := by
  induction tools generalizing h with
  | nil => trivial
  | cons tool tools ih =>
    refine ⟨hC h _, fun answer => ?_⟩
    cases answer with
    | none => trivial
    | some child =>
      change Prog.Traced _ _ _ _ ((runTools timeoutSeconds tools).bind _)
      rw [Prog.traced_bind]
      exact ih.mono (fun _ _ hC => hC) (fun _ _ _ => trivial) (fun _ _ _ => trivial)

/-- What is known where a child process is run. -/
structure Running (profiles : RepositoryProfiles) (parameters : Members Double)
    (h : List (Event QualificationSignature)) (t : Double) : Prop where
  exists_limits : ∃ mode timeoutSeconds deadline, Comes profiles parameters mode timeoutSeconds deadline ∧
    (mode = .toolchain → t = minDouble timeoutSeconds (.finite 30)) ∧
    (mode ≠ .toolchain → t = timeoutSeconds ∧ exceeds deadline (totalDuration h) = false)

/-- The operations of a qualification. -/
def Runs (profiles : RepositoryProfiles) (parameters : Members Double)
    (h : List (Event QualificationSignature)) : QualificationOp → Prop
  | .runBoundedChild _ t => Running profiles parameters h t
  | _ => True

omit [DoubleArithmetic] in
/-- A lease is required, and looked for, in the modes of a physical host. -/
theorem requireLease_traced [DoubleArithmetic] (profiles : RepositoryProfiles) (parameters : Members Double)
    (mode : Mode) : (requireLease mode parameters).Traced (Runs profiles parameters)
      (fun h _ => totalDuration h = .finite 0 ∧
        hasParameter parameters "physical_host_lease_base64" = mode.isPhysical ∧
        hasParameter parameters "physical_host_lease_sha256" = mode.isPhysical) (fun _ _ => True) [] := by
  simp only [requireLease, hasParameter]
  cases parameters.lookup (ofString "physical_host_lease_base64") with
  | none =>
    cases parameters.lookup (ofString "physical_host_lease_sha256") with
    | none =>
      cases hphysical : mode.isPhysical with
      | true => trivial
      | false => exact ⟨rfl, rfl, rfl⟩
    | some expectedSha256 => cases hphysical : mode.isPhysical <;> trivial
  | some encoded =>
    cases parameters.lookup (ofString "physical_host_lease_sha256") with
    | none => cases hphysical : mode.isPhysical <;> trivial
    | some expectedSha256 =>
      cases hphysical : mode.isPhysical with
      | false => trivial
      | true =>
        refine ⟨trivial, fun answer => ?_⟩
        cases answer with
        | ok accepted => exact ⟨rfl, rfl, rfl⟩
        | error failure => trivial

omit [FloatValue Double] in
/-- A deadline that is read has not passed at the start. -/
theorem exceeds_start {parameters : Members Double} {deadline : Option Double}
    (h : readDeadline parameters = .ok deadline) : exceeds deadline (.finite 0) = false := by
  rw [readDeadline] at h
  cases hv : parameters.lookup (ofString "global_deadline_seconds") with
  | none =>
    rw [hv] at h
    cases h
    rfl
  | some v =>
    simp only [hv, bind_eq_ok] at h
    obtain ⟨d, -, h⟩ := h
    split_ifs at h with hlow
    cases h
    rw [Bool.or_eq_true, not_or, Bool.not_eq_true, decide_eq_true_eq] at hlow
    change d.lt (.finite 0) = false
    exact hlow.1

/-- **What is known where a child process is run.** -/
theorem windowsStackQualification_running (profiles : RepositoryProfiles) (parameters : Members Double) :
    (windowsStackQualification profiles parameters).Traced (Runs profiles parameters) (fun _ _ => True)
      (fun _ _ => True) [] := by
  rw [windowsStackQualification, Prog.traced_bind]
  refine Prog.traced_ofExcept (fun mode hmode => ?_) fun _ _ => trivial
  rw [Prog.traced_bind]
  refine (requireLease_traced profiles parameters mode).mono (fun _ _ hC => hC) (fun h lease hlease => ?_)
    fun _ _ _ => trivial
  obtain ⟨htotal, hencoded, hdigest⟩ := hlease
  rw [Prog.traced_bind]
  refine Prog.traced_ofExcept (fun timeoutSeconds htimeout => ?_) fun _ _ => trivial
  rw [Prog.traced_bind]
  refine Prog.traced_ofExcept (fun deadline hdeadline => ?_) fun _ _ => trivial
  split_ifs with hreuse hmode'
  · trivial
  · refine ⟨trivial, fun workerHead => ?_⟩
    change Prog.Traced _ _ _ _ ((runTools _ _).bind _)
    rw [Prog.traced_bind]
    refine (runTools_traced _ _ fun h command => ?_).mono (fun _ _ hC => hC) (fun _ _ _ => trivial)
      fun _ _ _ => trivial
    exact ⟨mode, timeoutSeconds, deadline, ⟨hmode, hencoded, hdigest, htimeout, hdeadline,
      Bool.eq_false_iff.mpr hreuse, .inl hmode'⟩, fun _ => rfl, fun hne => absurd hmode' hne⟩
  · rw [Prog.traced_bind]
    refine Prog.traced_ofExcept (fun repositories hrepositories => ?_) fun _ _ => trivial
    refine ⟨trivial, fun workerHead => ?_⟩
    change Prog.Traced _ _ _ _ ((runRepositories _ _ _ _ _ _).bind _)
    rw [Prog.traced_bind]
    have htotal' : totalDuration (h ++ [⟨.repositoryHead (ofString "ao2"), workerHead⟩]) = .finite 0 := by
      rw [totalDuration_concat, htotal]
      rfl
    have hagrees : Agrees deadline (h ++ [⟨.repositoryHead (ofString "ao2"), workerHead⟩])
        ⟨[], .finite 0, false⟩ :=
      ⟨htotal'.symm, fun _ => by rw [htotal', exceeds_start hdeadline]⟩
    have hcommand : ∀ repo ∈ repositories, qualificationProfile profiles repo mode ≠ [] →
        HasCommand profiles parameters mode :=
      fun repo hrepo hne => .inr ⟨repositories, hrepositories, repo, hrepo, hne⟩
    refine (runRepositories_traced profiles mode repositories hcommand hagrees rfl).mono
      (fun h o ho => ?_) (fun _ _ _ => trivial) fun _ _ _ => trivial
    cases o with
    | runBoundedChild command t =>
      obtain ⟨rfl, hexceeds, hcommand⟩ := ho
      exact ⟨mode, t, deadline, ⟨hmode, hencoded, hdigest, htimeout, hdeadline,
        Bool.eq_false_iff.mpr hreuse, hcommand⟩, fun heq => absurd heq hmode', fun _ => ⟨rfl, hexceeds⟩⟩
    | _ => trivial

/-! ### Limits that are no numbers -/

omit [FloatValue Double] in
theorem readNumber_eq_ok {category : String} {v : PyJson Double} {x : Double} :
    readNumber category v = .ok x ↔ toFloat v = .ok x := by
  rw [readNumber]
  cases toFloat v with
  | ok y => simp
  | error e => cases e <;> simp

omit [FloatValue Double] in
/-- What `float` makes a number of. -/
theorem toFloat_finite {v : PyJson Double} {q : ℚ} (h : toFloat v = .ok (.finite q)) :
    IsNumber v q ∨ (∃ b, v = .bool b ∧ q = if b then 1 else 0) ∨ ∃ s, v = .str s := by
  cases v with
  | float x =>
    cases h
    exact .inl (.inr rfl)
  | int n =>
    obtain ⟨p, hp, hround⟩ := exists_of_doubleOfInt h
    cases hp
    exact .inl (.inl ⟨n, rfl, hround⟩)
  | bool b =>
    cases h
    exact .inr (.inl ⟨b, rfl, rfl⟩)
  | str s => exact .inr (.inr ⟨s, rfl⟩)
  | _ => cases h

omit [FloatValue Double] in
/-- What `float` makes something else of. -/
theorem toFloat_not_finite {v : PyJson Double} {x : Double} (h : toFloat v = .ok x)
    (hx : ∀ q, x ≠ .finite q) : v = .float x ∨ ∃ s, v = .str s := by
  cases v with
  | float y =>
    cases h
    exact .inl rfl
  | int n =>
    obtain ⟨q, hq, -⟩ := exists_of_doubleOfInt h
    exact absurd hq (hx q)
  | bool b =>
    cases h
    exact absurd rfl (hx _)
  | str s => exact .inr ⟨s, rfl⟩
  | _ => cases h

omit [FloatValue Double] in
/-- A time limit that is read is between its bounds, or no number. -/
theorem readTimeout_between {parameters : Members Double} {timeoutSeconds : Double}
    (h : readTimeout parameters = .ok timeoutSeconds) :
    timeoutSeconds = .nan ∨ ∃ q, timeoutSeconds = .finite q ∧ minStackQualificationTimeout ≤ q ∧
      q ≤ maxStackQualificationTimeout := by
  simp only [readTimeout, bind_eq_ok] at h
  obtain ⟨x, -, h⟩ := h
  split_ifs at h with hbounds
  cases h
  rw [Bool.or_eq_true, not_or, Bool.not_eq_true, Bool.not_eq_true] at hbounds
  exact between_of_not_lt hbounds.1 hbounds.2

omit [FloatValue Double] in
theorem toFloat_of_readTimeout {parameters : Members Double} {timeoutSeconds : Double}
    (h : readTimeout parameters = .ok timeoutSeconds) {v : PyJson Double}
    (hv : parameters.lookup (ofString "timeout_seconds") = some v) : toFloat v = .ok timeoutSeconds := by
  simp only [readTimeout, bind_eq_ok, getOr, hv, Option.getD_some] at h
  obtain ⟨x, hx, h⟩ := h
  split_ifs at h
  cases h
  exact readNumber_eq_ok.mp hx

omit [FloatValue Double] in
/-- **A time limit that is not loose** is a number between its bounds. -/
theorem timeout_of_not_loose {parameters : Members Double} {timeoutSeconds : Double}
    (h : readTimeout parameters = .ok timeoutSeconds)
    (hloose : ∀ v, parameters.lookup (ofString "timeout_seconds") = some v →
      v ≠ .float .nan ∧ ∀ s, v ≠ .str s) :
    ProperTimeout parameters ∧ ∃ q, timeoutSeconds = .finite q ∧ minStackQualificationTimeout ≤ q ∧
      q ≤ maxStackQualificationTimeout := by
  rcases readTimeout_between h with rfl | ⟨q, rfl, hlow, hhigh⟩
  · cases hv : parameters.lookup (ofString "timeout_seconds") with
    | none =>
      simp only [readTimeout, bind_eq_ok, getOr, hv, Option.getD_none, readNumber_eq_ok, toFloat] at h
      obtain ⟨x, hx, h⟩ := h
      cases hx
      split_ifs at h
      cases h
    | some v =>
      obtain ⟨hnan, htext⟩ := hloose v hv
      rcases toFloat_not_finite (toFloat_of_readTimeout h hv) (fun q hq => by cases hq) with heq | ⟨s, hs⟩
      · exact absurd heq hnan
      · exact absurd hs (htext s)
  · refine ⟨fun v hv => ?_, q, rfl, hlow, hhigh⟩
    obtain ⟨-, htext⟩ := hloose v hv
    rcases toFloat_finite (toFloat_of_readTimeout h hv) with hnumber | ⟨b, -, rfl⟩ | ⟨s, hs⟩
    · exact ⟨q, hnumber, hlow, hhigh⟩
    · exfalso
      cases b <;> norm_num [minStackQualificationTimeout] at hlow
    · exact absurd hs (htext s)

omit [FloatValue Double] in
theorem readDeadline_eq_some {parameters : Members Double} {deadline : Option Double}
    (h : readDeadline parameters = .ok deadline) {v : PyJson Double}
    (hv : parameters.lookup (ofString "global_deadline_seconds") = some v) :
    ∃ d, deadline = some d ∧ toFloat v = .ok d ∧ d.lt (.finite 0) = false ∧ d ≠ .finite 0 := by
  simp only [readDeadline, hv, bind_eq_ok] at h
  obtain ⟨d, hd, h⟩ := h
  split_ifs at h with hlow
  cases h
  rw [Bool.or_eq_true, not_or, Bool.not_eq_true, decide_eq_true_eq] at hlow
  exact ⟨d, rfl, readNumber_eq_ok.mp hd, hlow.1, hlow.2⟩

omit [FloatValue Double] in
/-- **A deadline that is not loose** is a positive number. -/
theorem deadline_of_not_loose {parameters : Members Double} {deadline : Option Double}
    (h : readDeadline parameters = .ok deadline)
    (hloose : ∀ v, parameters.lookup (ofString "global_deadline_seconds") = some v →
      v ≠ .float .nan ∧ v ≠ .float (.infinite false) ∧ v ≠ .bool true ∧ ∀ s, v ≠ .str s) :
    ProperDeadline parameters := by
  intro v hv
  obtain ⟨hnan, hinfinite, htrue, htext⟩ := hloose v hv
  obtain ⟨d, -, hd, hlow, hzero⟩ := readDeadline_eq_some h hv
  cases d with
  | finite q =>
    rcases toFloat_finite hd with hnumber | ⟨b, rfl, rfl⟩ | ⟨s, hs⟩
    · refine ⟨q, hnumber, lt_of_le_of_ne ?_ fun heq => hzero (by rw [← heq])⟩
      simpa [Double.lt] using hlow
    · cases b with
      | true => exact absurd rfl htrue
      | false => exact absurd rfl hzero
    · exact absurd hs (htext s)
  | nan =>
    rcases toFloat_not_finite hd (fun q hq => by cases hq) with heq | ⟨s, hs⟩
    · exact absurd heq hnan
    · exact absurd hs (htext s)
  | infinite negative =>
    cases negative with
    | true => cases hlow
    | false =>
      rcases toFloat_not_finite hd (fun q hq => by cases hq) with heq | ⟨s, hs⟩
      · exact absurd heq hinfinite
      · exact absurd hs (htext s)

/-- Where no limit is loose the limits of the task bind. -/
theorem withinLimits_of_running {profiles : RepositoryProfiles} {parameters : Members Double}
    {h : List (Event QualificationSignature)} {t : Double} (hrunning : Running profiles parameters h t)
    (hnot : ¬ ∃ mode timeoutSeconds deadline, Comes profiles parameters mode timeoutSeconds deadline ∧
      Loose parameters mode) : WithinLimits parameters h t := by
  obtain ⟨mode, timeoutSeconds, deadline, hcomes, htools, hprofile⟩ := hrunning
  have hloose : ¬ Loose parameters mode := fun hl => hnot ⟨mode, timeoutSeconds, deadline, hcomes, hl⟩
  simp only [Loose, not_or, not_exists, not_and] at hloose
  obtain ⟨htimeout, hdeadline⟩ := hloose
  obtain ⟨hproper, q, hq, hlow, hhigh⟩ := timeout_of_not_loose hcomes.readsTimeout htimeout
  refine ⟨hproper, deadline_of_not_loose hcomes.readsDeadline fun v hv => (hdeadline v hv).2, ?_,
    fun v d hv hd => ?_⟩
  · by_cases hmode : mode = .toolchain
    · rw [htools hmode, hq, minDouble_finite]
      have hthirty : minStackQualificationTimeout ≤ 30 := by norm_num [minStackQualificationTimeout]
      exact ⟨_, rfl, le_min hlow hthirty, (min_le_left q 30).trans hhigh, fun _ => min_le_right q 30⟩
    · rw [(hprofile hmode).1, hq]
      refine ⟨q, rfl, hlow, hhigh, fun htoolchain => ?_⟩
      rw [hcomes.readsMode] at htoolchain
      exact absurd (Except.ok.inj htoolchain) hmode
  · obtain ⟨d', hd', hd'', -⟩ := readDeadline_eq_some hcomes.readsDeadline hv
    have hmode : mode ≠ .toolchain := (hdeadline v hv).1
    have hexceeds := (hprofile hmode).2
    rw [hd] at hd''
    cases hd''
    rw [hd'] at hexceeds
    exact hexceeds

/-! ### An environment that starts everything -/

/-- A child process that takes forever, and succeeds. -/
def slowChild : Child where
  status := "accepted"
  exitCode := some 0
  timedOut := false
  durationSeconds := .infinite false
  output := []
  outputTruncated := false
  stderrCategory := "none"

/-- All repositories are there, every lease is accepted, and every child process takes forever. -/
def slowEnvironment : Oracle QualificationSignature := fun _ o =>
  match o with
  | .validateLease .. => .ok ⟨[], [], [], .null, none⟩
  | .repositoryHead _ => []
  | .isBeneathFactory _ | .hasGitDirectory _ => true
  | .runBoundedChild .. => some slowChild

def toolEvent (timeoutSeconds : Double) (tool : String) : Event QualificationSignature :=
  ⟨.runBoundedChild (.toolVersion tool) timeoutSeconds, some slowChild⟩

omit [FloatValue Double] [DoubleArithmetic] in
theorem run_runTools (timeoutSeconds : Double) (tools : List String)
    (h : List (Event QualificationSignature)) :
    slowEnvironment.machine.run (runTools timeoutSeconds tools) h =
      (.ok (tools.map fun tool => (tool, slowChild)), h ++ tools.map (toolEvent timeoutSeconds)) := by
  induction tools generalizing h with
  | nil => rw [List.map_nil, List.map_nil, List.append_nil]; rfl
  | cons tool tools ih =>
    have hrest := ih (h ++ [toolEvent timeoutSeconds tool])
    rw [List.append_assoc, List.singleton_append] at hrest
    change slowEnvironment.machine.run ((runTools timeoutSeconds tools).bind _)
      (h ++ [toolEvent timeoutSeconds tool]) = _
    rw [Machine.run_bind_of_ok hrest]
    rfl

omit [FloatValue Double] [DoubleArithmetic] in
theorem run_requireLease {parameters : Members Double} {mode : Mode}
    (hencoded : hasParameter parameters "physical_host_lease_base64" = mode.isPhysical)
    (hdigest : hasParameter parameters "physical_host_lease_sha256" = mode.isPhysical) :
    ∃ lease h, slowEnvironment.machine.run (requireLease mode parameters) [] = (.ok lease, h) ∧
      (mode.isPhysical = false → h = []) := by
  rw [hasParameter] at hencoded hdigest
  rw [requireLease]
  cases hbase64 : parameters.lookup (ofString "physical_host_lease_base64") with
  | none =>
    cases hsha256 : parameters.lookup (ofString "physical_host_lease_sha256") with
    | none =>
      rw [hbase64] at hencoded
      rw [← hencoded]
      exact ⟨none, [], rfl, fun _ => rfl⟩
    | some expectedSha256 =>
      rw [hbase64] at hencoded
      rw [hsha256, ← hencoded] at hdigest
      cases hdigest
  | some encoded =>
    rw [hbase64] at hencoded
    cases hsha256 : parameters.lookup (ofString "physical_host_lease_sha256") with
    | none =>
      rw [hsha256, ← hencoded] at hdigest
      cases hdigest
    | some expectedSha256 =>
      rw [← hencoded]
      exact ⟨_, _, rfl, fun hfalse => by cases hfalse⟩

omit [FloatValue Double] in
/-- A repository with a profile is come to. -/
theorem reaches_runRepositories {timeoutSeconds : Double} {deadline : Option Double}
    {profiles : RepositoryProfiles} {mode : Mode} {repos : List PyStr}
    (hrepos : ∃ repo ∈ repos, qualificationProfile profiles repo mode ≠ []) {p : Progress}
    (hopen : p.deadlineExceeded = false) (h : List (Event QualificationSignature)) :
    ∃ command t answer, Oracle.Reaches slowEnvironment
      (runRepositories timeoutSeconds deadline profiles mode repos p) h
        ⟨.runBoundedChild command t, answer⟩ := by
  induction repos generalizing p h with
  | nil => simp at hrepos
  | cons repo repos ih =>
    cases hprofile : qualificationProfile profiles repo mode with
    | nil =>
      have hrest : ∃ repo ∈ repos, qualificationProfile profiles repo mode ≠ [] := by
        obtain ⟨r, hr, hne⟩ := hrepos
        rcases List.mem_cons.mp hr with rfl | hr
        · exact absurd hprofile hne
        · exact ⟨r, hr, hne⟩
      cases hphysical : mode.isPhysical with
      | true =>
        obtain ⟨command, t, answer, hreaches⟩ := @ih hrest (p.add (delegatedRow repo [])) hopen
          (((h ++ [⟨.isBeneathFactory repo, true⟩]) ++ [⟨.repositoryHead repo, []⟩]) ++
            [⟨.hasGitDirectory repo, true⟩])
        refine ⟨command, t, answer, ?_⟩
        rw [runRepositories, hprofile, hphysical]
        exact hreaches
      | false =>
        obtain ⟨command, t, answer, hreaches⟩ := @ih hrest p hopen
          (((h ++ [⟨.isBeneathFactory repo, true⟩]) ++ [⟨.repositoryHead repo, []⟩]) ++
            [⟨.hasGitDirectory repo, true⟩])
        refine ⟨command, t, answer, ?_⟩
        rw [runRepositories, hprofile, hphysical]
        change Oracle.Reaches slowEnvironment (if p.deadlineExceeded then _ else _) _ _
        rw [hopen]
        exact hreaches
    | cons command commands =>
      refine ⟨.profile repo command, timeoutSeconds, some slowChild, ?_⟩
      rw [runRepositories, hprofile, Bool.and_comm]
      exact Oracle.Reaches.ask (Oracle.Reaches.ask (Oracle.Reaches.ask Oracle.Reaches.here))

omit [FloatValue Double] [DoubleArithmetic] in
/-- What a program comes to it comes to when something follows it. -/
theorem reaches_bind {α β : Type} {f : Oracle QualificationSignature} {p : QualificationProg α}
    {g : α → QualificationProg β} {h : List (Event QualificationSignature)}
    {e : Event QualificationSignature} (hp : f.Reaches p h e) : f.Reaches (p.bind g) h e := by
  rw [Oracle.Reaches, Machine.run_bind]
  rw [Oracle.Reaches] at hp
  cases hrun : f.machine.run p h with
  | mk result h' =>
    rw [hrun] at hp
    cases result with
    | ok a => exact (Oracle.run_extends (g a) h').subset hp
    | error stop => exact hp

/-- A task that comes to a child process starts one, in a mode other than `toolchain`. -/
theorem reaches_stack {profiles : RepositoryProfiles} {parameters : Members Double} {mode : Mode}
    {timeoutSeconds : Double} {deadline : Option Double}
    (hcomes : Comes profiles parameters mode timeoutSeconds deadline) (hmode : mode ≠ .toolchain) :
    ∃ command t answer, Oracle.Reaches slowEnvironment (windowsStackQualification profiles parameters) []
      ⟨.runBoundedChild command t, answer⟩ := by
  obtain ⟨lease, h, hlease, -⟩ := run_requireLease hcomes.encoded hcomes.digest
  obtain ⟨repositories, hrepositories, hprofile⟩ := hcomes.command.resolve_left hmode
  obtain ⟨command, t, answer, hreaches⟩ :=
    @reaches_runRepositories _ timeoutSeconds deadline _ _ _ hprofile ⟨[], .finite 0, false⟩ rfl
    (h ++ [⟨.repositoryHead (ofString "ao2"), []⟩])
  refine ⟨command, t, answer, ?_⟩
  rw [Oracle.Reaches, windowsStackQualification, hcomes.readsMode]
  change _ ∈ (slowEnvironment.machine.run ((requireLease mode parameters).bind _) []).2
  rw [Machine.run_bind_of_ok hlease, hcomes.readsTimeout, hcomes.readsDeadline]
  change _ ∈ (slowEnvironment.machine.run
    (if reuseInvalidated parameters then _ else if mode = .toolchain then _ else _) h).2
  rw [hcomes.reuse, if_neg Bool.false_ne_true, if_neg hmode, hrepositories]
  change slowEnvironment.Reaches ((runRepositories timeoutSeconds deadline profiles mode repositories _).bind _)
    (h ++ [⟨.repositoryHead (ofString "ao2"), []⟩]) _
  exact reaches_bind hreaches

/-- The run of a qualification in the mode `toolchain`. -/
theorem run_toolchain {profiles : RepositoryProfiles} {parameters : Members Double}
    {timeoutSeconds : Double} {deadline : Option Double}
    (hcomes : Comes profiles parameters .toolchain timeoutSeconds deadline) :
    (slowEnvironment.machine.run (windowsStackQualification profiles parameters) []).2 =
      ⟨.repositoryHead (ofString "ao2"), []⟩ ::
        toolchainCapabilityTools.map (toolEvent (minDouble timeoutSeconds (.finite 30))) := by
  obtain ⟨lease, h, hlease, hnil⟩ := run_requireLease hcomes.encoded hcomes.digest
  obtain rfl := hnil rfl
  have htools := run_runTools (minDouble timeoutSeconds (.finite 30)) toolchainCapabilityTools
    [⟨.repositoryHead (ofString "ao2"), []⟩]
  rw [windowsStackQualification, hcomes.readsMode]
  change (slowEnvironment.machine.run ((requireLease .toolchain parameters).bind _) []).2 = _
  rw [Machine.run_bind_of_ok hlease, hcomes.readsTimeout, hcomes.readsDeadline]
  change (slowEnvironment.machine.run (if reuseInvalidated parameters then _ else _) []).2 = _
  rw [hcomes.reuse]
  change (slowEnvironment.machine.run ((runTools _ _).bind _) [⟨.repositoryHead (ofString "ao2"), []⟩]).2 = _
  rw [Machine.run_bind_of_ok htools]
  rfl

/-! ### When the limits bind -/

omit [FloatValue Double] in
theorem isNumber_iff {v : PyJson Double} {q : ℚ} : IsNumber v q →
    v ≠ .float .nan ∧ v ≠ .float (.infinite false) ∧ v ≠ .bool true ∧ ∀ s, v ≠ .str s := by
  rintro (⟨n, rfl, -⟩ | rfl) <;> simp

omit [FloatValue Double] in
theorem toFloat_of_isNumber {v : PyJson Double} {q : ℚ} (h : IsNumber v q) :
    toFloat v = .ok (.finite q) := by
  rcases h with ⟨n, rfl, hround⟩ | rfl
  · rw [toFloat, doubleOfInt, hround]
  · rfl

/-- A task with a loose limit starts a child process that it does not bind. -/
theorem not_limitsBind_of_loose {profiles : RepositoryProfiles} {parameters : Members Double} {mode : Mode}
    {timeoutSeconds : Double} {deadline : Option Double}
    (hcomes : Comes profiles parameters mode timeoutSeconds deadline) (hloose : Loose parameters mode) :
    ¬ LimitsBind profiles parameters := by
  intro hbind
  have hproper : ProperTimeout parameters ∧ ProperDeadline parameters := by
    by_cases hmode : mode = .toolchain
    · subst hmode
      have hrun := run_toolchain hcomes
      have hwithin := hbind slowEnvironment [_] _ _ _ _ hrun
      exact ⟨hwithin.timeout, hwithin.deadline⟩
    · obtain ⟨command, t, answer, hreaches⟩ := reaches_stack hcomes hmode
      obtain ⟨pre, post, hrun⟩ := List.append_of_mem hreaches
      have hwithin := hbind slowEnvironment pre post command t answer hrun
      exact ⟨hwithin.timeout, hwithin.deadline⟩
  rcases hloose with ⟨v, hv, htimeout⟩ | ⟨v, hv, hdeadline⟩
  · obtain ⟨q, hq, -⟩ := hproper.1 v hv
    obtain ⟨hnan, -, -, htext⟩ := isNumber_iff hq
    rcases htimeout with heq | ⟨s, hs⟩
    · exact hnan heq
    · exact htext s hs
  · obtain ⟨q, hq, -⟩ := hproper.2 v hv
    obtain ⟨hnan, hinfinite, htrue, htext⟩ := isNumber_iff hq
    rcases hdeadline with rfl | heq | heq | heq | ⟨s, hs⟩
    · -- the second tool is started although the first one took forever
      have hrun := run_toolchain hcomes
      have hwithin := hbind slowEnvironment [_, _] _ _ _ _ hrun
      have hexceeded := hwithin.notExceeded v (.finite q) hv (toFloat_of_isNumber hq)
      cases hexceeded
    · exact hnan heq
    · exact hinfinite heq
    · exact htrue heq
    · exact htext s hs

/-- **When the limits of a task bind**: exactly if it does not come to a child process, or its time limit
and its deadline are numbers and it does not ask for tools before a deadline. -/
theorem limitsBind_iff (profiles : RepositoryProfiles) (parameters : Members Double) :
    LimitsBind profiles parameters ↔ ¬ ∃ mode timeoutSeconds deadline,
      Comes profiles parameters mode timeoutSeconds deadline ∧ Loose parameters mode := by
  constructor
  · rintro hbind ⟨mode, timeoutSeconds, deadline, hcomes, hloose⟩
    exact not_limitsBind_of_loose hcomes hloose hbind
  · intro hnot f pre post command t answer hrun
    have hrunning := Oracle.wp.event ((windowsStackQualification_running profiles parameters).wp f) hrun
      (Nat.zero_le _)
    exact withinLimits_of_running hrunning hnot

end

/-! ### A time limit that is no number -/

section

/-- Numbers that are not rounded, and no text that stands for one. -/
@[reducible] def exactArithmetic : DoubleArithmetic where
  round := .finite
  doubleOfText _ := none

/-- The texts of numbers do not matter here. -/
@[reducible] def untoldDoubles : FloatValue Double where
  parseFloat _ := .nan
  floatRepr _ := []
  floatTruthy x := x ≠ .finite 0
  floatFinite x := x ≠ .nan
  floatStr _ := []
  floatEq x y := x = y
  floatSame x y := x = y
  floatEqInt _ _ := false
  reprStr s := s

attribute [local instance] exactArithmetic untoldDoubles

/-- One repository, and a time limit that is no number. -/
def nanParameters : Members Double :=
  [(ofString "repositories", .list [.str (ofString "ao2")]), (ofString "timeout_seconds", .float .nan)]

theorem comes_nanParameters : Comes (fun _ _ => []) nanParameters .diagnostic .nan none where
  readsMode := by rfl
  encoded := by rfl
  digest := by rfl
  readsTimeout := by rfl
  readsDeadline := by rfl
  reuse := by rfl
  command := .inr ⟨[ofString "ao2"], by rfl, ofString "ao2", List.mem_singleton_self _, by decide⟩

/-- A time limit that is no number is handed to the child processes. -/
theorem not_limitsBind_nanParameters : ¬ LimitsBind (fun _ _ => []) nanParameters :=
  not_limitsBind_of_loose comes_nanParameters (.inl ⟨.float .nan, by rfl, .inl rfl⟩)

end

end Qualification

end Ao2
