import Ao2.Git.Named
import Ao2.Json.Objects
import Ao2.Texts.Bytes

/-!
# The release handoff checklist

A handoff is ready for the evaluator if all its checks have passed. The head of the repository `ao2`
may differ from the expected one where nothing but metadata was changed between them: the names that
git lists all begin with the directory of the metadata.

A file that was moved into that directory is listed under its new name only, and the names are trimmed
before they are looked at.
-/

namespace Ao2

namespace Release

open Git

/-! ### Reading the handoff -/

def handoffChecklistSchema : String := "factory-v3/ao2-release-handoff-checklist/v1"

def handoffSourceSchema : String := "ao2.cp-release-candidate-handoff.v1"

def handoffNested (value : Json) (keys : List String) : Option Json :=
  keys.foldlM (fun current key => current.get? key) value

def handoffNestedStr (value : Json) (keys : List String) : String :=
  (((handoffNested value keys).bind Json.str?).filter (· ≠ "")).getD "missing"

def handoffNestedBool (value : Json) (keys : List String) (default : Bool) : Bool :=
  ((handoffNested value keys).bind Json.bool?).getD default

def handoffCheck (checkId label observed expected : String) : Json :=
  let status := if observed = expected then "passed" else "blocked"
  .object [("id", .str checkId), ("label", .str label), ("observed", .str observed),
    ("expected", .str expected), ("status", .str status)]

def handoffProviderAcceptanceState (handoff : Json) (provider : String) : String :=
  let status := handoffNestedStr handoff ["acceptance", provider, "status"]
  let source := handoffNestedStr handoff ["acceptance", provider, "source_class"]
  if status = "passed" ∧ source = "live" then "passed/live" else status ++ "/" ++ source

/-! ### The heads -/

/-- What a child of git answered. -/
structure GitOutput where
  success : Bool
  stdout : String

/-- Git, by its arguments; nothing where it could not be started. -/
abbrev RunGit := List String → Option GitOutput

def metadataPrefix : String := "docs/status/release-candidates/"

def mergeBaseArgs (root observed expected : String) : List String :=
  ["-C", root, "merge-base", "--is-ancestor", observed, expected]

def diffArgs (root observed expected : String) : List String :=
  ["-C", root, "diff", "--name-only", observed ++ ".." ++ expected]

/-- The names in a report, if all of them are in the directory of the metadata. -/
def metadataPaths (report : String) : Option (List String) :=
  let changedPaths := filledLines report.toList
  if changedPaths = [] then none
  else if changedPaths.any fun p => !(metadataPrefix.toList <+: p.toList : Bool) then none
  else some changedPaths

structure Refresh where
  status : String
  paths : List String
  reason : String

def handoffReleasePublicationMetadataRefresh (git : RunGit) (handoff : Json)
    (repo observed expected : String) : Option Refresh :=
  if repo ≠ "ao2" ∨ observed = expected then none
  else
    let root := handoffNestedStr handoff ["release", "repositories", repo, "path"]
    if root = "missing" then none
    else if ((git (mergeBaseArgs root observed expected)).map GitOutput.success).getD false = false then
      none
    else
      ((git (diffArgs root observed expected)).filter GitOutput.success).bind fun diff =>
        (metadataPaths diff.stdout).map fun paths =>
          ⟨"passed_with_metadata_refresh", paths,
            "ao2 HEAD advanced only by release-candidate metadata refresh files"⟩

def handoffRepoHeadCheck (git : RunGit) (handoff : Json) (repo expectedHead : String) : Json :=
  let observed := handoffNestedStr handoff ["release", "repositories", repo, "head"]
  let item := handoffCheck ("repo_head_" ++ repo) ("Repo head " ++ repo) observed expectedHead
  match handoffReleasePublicationMetadataRefresh git handoff repo observed expectedHead with
  | some refresh =>
    item.putAll [("status", .str refresh.status), ("metadata_refresh_paths", .strs refresh.paths),
      ("metadata_refresh_reason", .str refresh.reason)]
  | none => item

/-- The checks of the heads that are expected, by the order of the repositories. -/
def handoffRepoHeadChecks (git : RunGit) (handoff : Json)
    (expectedRepoHeads : List (String × String)) : List Json :=
  expectedRepoHeads.map fun (repo, expectedHead) => handoffRepoHeadCheck git handoff repo expectedHead

/-! ### The checklist -/

def handoffTrustState (handoff : Json) : String :=
  let mutates := handoffNestedBool handoff ["operator_handoff", "mutates_ao_artifacts"] true
  let controlPlaneRole := handoffNestedStr handoff ["operator_handoff", "control_plane_role"]
  let releaseAcceptanceOwner :=
    handoffNestedStr handoff ["operator_handoff", "release_acceptance_owner"]
  if controlPlaneRole = "read_only_observer" ∧ mutates = false ∧
      releaseAcceptanceOwner = "factory-v3 evaluator-closer" then
    "read_only_evaluator_owned"
  else "attention"

def handoffOwnChecks (handoff : Json) : List Json :=
  [handoffCheck "handoff_schema" "Handoff schema" (handoffNestedStr handoff ["schema_version"])
      handoffSourceSchema,
    handoffCheck "handoff_status" "Handoff status" (handoffNestedStr handoff ["status"]) "ready",
    handoffCheck "release_cockpit" "Release cockpit"
      (handoffNestedStr handoff ["gates", "release_cockpit"]) "ready",
    handoffCheck "phase1_promotion" "Phase 1 promotion"
      (handoffNestedStr handoff ["gates", "phase1_promotion"]) "observed",
    handoffCheck "decision_signature" "Decision signature"
      (handoffNestedStr handoff ["gates", "decision_signature"]) "present",
    handoffCheck "provider_acceptance" "Provider acceptance"
      (handoffNestedStr handoff ["gates", "provider_acceptance"]) "live_complete",
    handoffCheck "codex_acceptance" "Codex acceptance"
      (handoffProviderAcceptanceState handoff "codex") "passed/live",
    handoffCheck "claude_acceptance" "Claude acceptance"
      (handoffProviderAcceptanceState handoff "claude") "passed/live",
    handoffCheck "trust_boundary" "Trust boundary" (handoffTrustState handoff)
      "read_only_evaluator_owned"]

def checkText (item : Json) (key : String) : String := ((item.get? key).bind Json.str?).getD ""

/-- A check has passed, in whatever way. -/
def checkPassed (item : Json) : Bool := "passed".toList <+: (checkText item "status").toList

def handoffBuildChecklist (git : RunGit) (handoff : Json)
    (expectedRepoHeads : List (String × String)) : Json :=
  let checks := handoffOwnChecks handoff ++ handoffRepoHeadChecks git handoff expectedRepoHeads
  let blockers := (checks.filter fun item => !checkPassed item).map fun item =>
    checkText item "id" ++ ": expected " ++ checkText item "expected" ++ ", observed " ++
      checkText item "observed"
  let status := if blockers = [] then "ready_for_evaluator_closer" else "blocked"
  let nextAction :=
    if blockers = [] then
      "factory-v3 evaluator-closer may review and accept or reject the release-line decision"
    else "resolve blockers before evaluator-closer release-line review"
  .object [("schema", .str handoffChecklistSchema), ("status", .str status),
    ("release", (handoff.get? "release").getD (.obj [])), ("checks", .arr checks),
    ("blockers", .strs blockers),
    ("operator_decision", .object [("factory_v3_evaluator_closer_required", .bool true),
      ("control_plane_approves_release", .bool false), ("next_action", .str nextAction)]),
    ("trust_boundary", .object
      [("frontend", .str "Hermes front end / queue / memory surface"),
        ("governed_backend", .str "factory-v3 / AO Operator evaluator-closer"),
        ("trusted_execution", .str "ao2 signed evidence boundary"),
        ("control_plane_role", .str "read_only_observer"), ("mutates_ao_artifacts", .bool false),
        ("release_acceptance_owner", .str "factory-v3 evaluator-closer")]),
    ("links", (handoff.get? "links").getD (.obj []))]

/-! ### Git -/

/-- Git does what its documentation says: it tells ancestors, and it lists the names of what differs
between two commits, without the old names of the files that it takes for renamed. -/
structure Follows (git : RunGit) (root observed expected : String) {base head : Git.Tree}
    (isAncestor : Bool) (renames : Renames base head) : Prop where
  ancestor : ((git (mergeBaseArgs root observed expected)).map GitOutput.success).getD false =
    isAncestor
  diff : isAncestor = true → ∃ paths, Lists renames paths ∧
    git (diffArgs root observed expected) = some ⟨true, .ofList (listing paths)⟩

/-- The directory of the metadata, as bytes. -/
def metadataDir : Bytes := metadataPrefix.toList.map fun c => .ofNat c.toNat

/-- **A head that differs is excused only for metadata**, whatever the handoff and the other heads
are. -/
def ExcusesOnlyMetadata (git : RunGit) (root observed expected : String) (base head : Git.Tree)
    (isAncestor : Bool) : Prop :=
  ∀ (handoff : Json) (expectedRepoHeads : List (String × String)),
    handoffNestedStr handoff ["release", "repositories", "ao2", "path"] = root →
    handoffNestedStr handoff ["release", "repositories", "ao2", "head"] = observed →
    ("ao2", expected) ∈ expectedRepoHeads → observed ≠ expected →
    checkText (handoffBuildChecklist git handoff expectedRepoHeads) "status" =
      "ready_for_evaluator_closer" →
    isAncestor = true ∧ ∀ path, Changed base head path → metadataDir <+: path

/-- The heads differ, and the repository is known. -/
structure Drift (root observed expected : String) : Prop where
  root_ne : root ≠ "" ∧ root ≠ "missing"
  observed_ne : observed ≠ ""
  differ : observed ≠ expected

/-- Names are listed, and all of them are in the directory of the metadata once they are trimmed. -/
def ListedInside {base head : Git.Tree} (renames : Renames base head) : Prop :=
  (∃ path, (Changed base head path ∧ path ∉ renames.sources) ∧ readName path ≠ "") ∧
    ∀ path, Changed base head path ∧ path ∉ renames.sources → readName path ≠ "" →
      metadataPrefix.toList <+: (readName path).toList

/-! ### The checks -/

variable {git : RunGit} {handoff : Json} {root observed expected : String}

theorem checkPassed_handoffCheck {checkId label : String} :
    checkPassed (handoffCheck checkId label observed expected) = true ↔ observed = expected := by
  have hstatus : checkText (handoffCheck checkId label observed expected) "status" =
      if observed = expected then "passed" else "blocked" := by
    rw [checkText, handoffCheck, Json.get?_object]
    rfl
  rw [checkPassed, hstatus, decide_eq_true_eq]
  split_ifs with h
  · exact iff_of_true (by decide) h
  · exact iff_of_false (by decide) h

theorem isObject_handoffCheck {checkId label : String} :
    (handoffCheck checkId label observed expected).isObject = true :=
  Json.isObject_putAll rfl

theorem status_of_refresh {repo : String} {refresh : Refresh}
    (h : handoffReleasePublicationMetadataRefresh git handoff repo observed expected =
      some refresh) : refresh.status = "passed_with_metadata_refresh" := by
  rw [handoffReleasePublicationMetadataRefresh] at h
  dsimp only at h
  split_ifs at h
  obtain ⟨diff, -, h⟩ := Option.bind_eq_some_iff.mp h
  obtain ⟨paths, -, rfl⟩ := Option.map_eq_some_iff.mp h
  rfl

theorem lookup_status (status paths reason : Json) :
    [("status", status), ("metadata_refresh_paths", paths),
      ("metadata_refresh_reason", reason)].reverse.lookup "status" = some status :=
  rfl

theorem checkPassed_repoHead {repo : String} :
    checkPassed (handoffRepoHeadCheck git handoff repo expected) = true ↔
      handoffNestedStr handoff ["release", "repositories", repo, "head"] = expected ∨
      (handoffReleasePublicationMetadataRefresh git handoff repo
        (handoffNestedStr handoff ["release", "repositories", repo, "head"]) expected).isSome := by
  rw [handoffRepoHeadCheck]
  cases hrefresh : handoffReleasePublicationMetadataRefresh git handoff repo
    (handoffNestedStr handoff ["release", "repositories", repo, "head"]) expected with
  | none => simp [checkPassed_handoffCheck]
  | some refresh =>
    refine iff_of_true ?_ (.inr rfl)
    dsimp only
    rw [checkPassed, checkText, Json.get?_putAll isObject_handoffCheck, status_of_refresh hrefresh,
      lookup_status, Option.some_or, Option.bind_some, Json.str?, Option.getD_some]
    decide

theorem lookup_checklist (schema status release checks blockers decision boundary links : Json) :
    [("schema", schema), ("status", status), ("release", release), ("checks", checks),
      ("blockers", blockers), ("operator_decision", decision), ("trust_boundary", boundary),
      ("links", links)].reverse.lookup "status" = some status :=
  rfl

/-- A handoff is ready if and only if all its checks have passed. -/
theorem ready_iff {expectedRepoHeads : List (String × String)} :
    checkText (handoffBuildChecklist git handoff expectedRepoHeads) "status" =
      "ready_for_evaluator_closer" ↔
    ∀ item ∈ handoffOwnChecks handoff ++ handoffRepoHeadChecks git handoff expectedRepoHeads,
      checkPassed item = true := by
  have hstatus (l : List Json) (f : Json → String) :
      (if (l.filter fun item => !checkPassed item).map f = [] then "ready_for_evaluator_closer"
        else "blocked") = "ready_for_evaluator_closer" ↔ ∀ item ∈ l, checkPassed item = true := by
    have hnil : (l.filter fun item => !checkPassed item).map f = [] ↔
        ∀ item ∈ l, checkPassed item = true := by
      rw [List.map_eq_nil_iff, List.filter_eq_nil_iff]
      simp only [Bool.not_eq_true, Bool.not_eq_false']
    split_ifs with h
    · exact iff_of_true rfl (hnil.mp h)
    · exact iff_of_false (by decide) fun hall => h (hnil.mpr hall)
  rw [checkText, handoffBuildChecklist, Json.get?_object, lookup_checklist, Option.bind_some,
    Json.str?, Option.getD_some]
  exact hstatus _ _

/-- When a head that differs is excused. -/
theorem refresh_isSome_iff :
    (handoffReleasePublicationMetadataRefresh git handoff "ao2" observed expected).isSome ↔
      observed ≠ expected ∧
      handoffNestedStr handoff ["release", "repositories", "ao2", "path"] ≠ "missing" ∧
      ((git (mergeBaseArgs (handoffNestedStr handoff ["release", "repositories", "ao2", "path"])
        observed expected)).map GitOutput.success).getD false = true ∧
      ∃ diff, git (diffArgs (handoffNestedStr handoff ["release", "repositories", "ao2", "path"])
        observed expected) = some diff ∧ diff.success = true ∧
          (metadataPaths diff.stdout).isSome := by
  rw [handoffReleasePublicationMetadataRefresh]
  dsimp only
  split_ifs with hsame hroot hancestor
  · refine iff_of_false (by decide) fun h => ?_
    exact hsame.elim (fun hne => hne rfl) h.1
  · exact iff_of_false (by decide) fun h => h.2.1 hroot
  · refine iff_of_false (by decide) fun h => ?_
    exact Bool.false_ne_true (hancestor.symm.trans h.2.2.1)
  · rw [not_or] at hsame
    rw [Bool.not_eq_false] at hancestor
    rw [and_iff_right hsame.2, and_iff_right hroot, and_iff_right hancestor]
    constructor
    · intro h
      obtain ⟨refresh, h⟩ := Option.isSome_iff_exists.mp h
      obtain ⟨diff, hdiff, h⟩ := Option.bind_eq_some_iff.mp h
      obtain ⟨paths, hpaths, -⟩ := Option.map_eq_some_iff.mp h
      obtain ⟨hgit, hsuccess⟩ := Option.filter_eq_some_iff.mp hdiff
      exact ⟨diff, hgit, hsuccess, Option.isSome_iff_exists.mpr ⟨paths, hpaths⟩⟩
    · rintro ⟨diff, hgit, hsuccess, hpaths⟩
      rw [hgit, Option.filter_some, if_pos hsuccess, Option.bind_some, Option.isSome_map]
      exact hpaths

/-! ### The names -/

section

variable {base head : Git.Tree} {renames : Renames base head} {paths : List Bytes}

/-- The report is excused if and only if names are listed and are all in the directory. -/
theorem metadataPaths_isSome_iff (h : Lists renames paths) :
    (metadataPaths (.ofList (listing paths))).isSome ↔ ListedInside renames := by
  have hread : filledLines (String.ofList (listing paths)).toList =
      (paths.map readName).filter (· ≠ "") := by
    rw [String.toList_ofList, filledLines_listing]
  have hnone : (paths.map readName).filter (· ≠ "") = [] ↔
      ¬ ∃ path, (Changed base head path ∧ path ∉ renames.sources) ∧ readName path ≠ "" := by
    rw [List.filter_eq_nil_iff, List.forall_mem_map, not_exists]
    refine forall_congr' fun path => ?_
    rw [h.2, not_and, decide_eq_true_eq]
  have hall : (((paths.map readName).filter (· ≠ "")).any fun p =>
      !(metadataPrefix.toList <+: p.toList : Bool)) = false ↔
        ∀ path, Changed base head path ∧ path ∉ renames.sources → readName path ≠ "" →
          metadataPrefix.toList <+: (readName path).toList := by
    rw [List.any_eq_false]
    constructor
    · intro hnot path hpath hne
      have hmem : readName path ∈ (paths.map readName).filter (· ≠ "") :=
        List.mem_filter.mpr ⟨List.mem_map_of_mem ((h.2 path).mpr hpath), decide_eq_true hne⟩
      have hinside := hnot _ hmem
      rwa [Bool.not_eq_true, Bool.not_eq_false', decide_eq_true_eq] at hinside
    · intro hinside p hp
      obtain ⟨hp, hne⟩ := List.mem_filter.mp hp
      obtain ⟨path, hpath, rfl⟩ := List.mem_map.mp hp
      rw [Bool.not_eq_true, Bool.not_eq_false', decide_eq_true_eq]
      exact hinside path ((h.2 path).mp hpath) (of_decide_eq_true hne)
  rw [metadataPaths, hread, ListedInside]
  split_ifs with hnil hany
  · exact iff_of_false (by decide) fun hlisted => hnone.mp hnil hlisted.1
  · exact iff_of_false (by decide) fun hlisted =>
      Bool.false_ne_true ((hall.mpr hlisted.2).symm.trans hany)
  · refine iff_of_true rfl ⟨by_contra fun hnot => hnil (hnone.mpr hnot), ?_⟩
    exact hall.mp (Bool.eq_false_iff.mpr hany)

theorem isWhitespace_byteChar {b : UInt8} (h : isUsual b = true) (hspace : b ≠ 32) :
    isWhitespace (byteChar b) = false := by
  have hb : ∀ n < 127, 32 ≤ n → n ≠ 32 → isWhitespace (Char.ofNat n) = false := by decide
  rw [isUsual, Bool.and_eq_true, Bool.and_eq_true, Bool.and_eq_true, decide_eq_true_eq,
    decide_eq_true_eq] at h
  exact hb b.toNat h.1.1.2 h.1.1.1 fun heq => hspace (UInt8.toNat_inj.mp heq)

/-- A name that does not begin with a space is printed without white space at its start. -/
theorem head_printedName {path : Bytes} (hne : path ≠ []) (hspace : path.head? ≠ some 32) :
    printedName path ≠ [] ∧ ∀ c ∈ (printedName path).head?, isWhitespace c = false := by
  obtain ⟨b, rest, rfl⟩ := List.exists_cons_of_ne_nil hne
  rw [printedName]
  split
  · rename_i hall
    refine ⟨List.cons_ne_nil _ _, ?_⟩
    rintro c ⟨⟩
    exact isWhitespace_byteChar (List.all_eq_true.mp hall b List.mem_cons_self) fun heq =>
      hspace (congrArg some heq)
  · refine ⟨List.cons_ne_nil _ _, ?_⟩
    rintro c ⟨⟩
    decide

theorem byteChar_injective : Function.Injective byteChar := by
  intro a b h
  have hround (n : ℕ) (hn : n < 256) : (Char.ofNat n).toNat = n :=
    toNat_ofNat_of_isValidChar (.inl (by omega))
  have htoNat := congrArg Char.toNat h
  rw [byteChar, byteChar, hround _ a.toNat_lt, hround _ b.toNat_lt] at htoNat
  exact UInt8.toNat_inj.mp htoNat

theorem metadataPrefix_eq : metadataPrefix.toList = metadataDir.map byteChar := by decide

/-- A name that is printed below the directory is below it. -/
theorem inside_of_prefix {path : Bytes} (h : metadataPrefix.toList <+: printedName path) :
    metadataDir <+: path := by
  rw [printedName] at h
  split at h
  · rw [metadataPrefix_eq, List.prefix_map_iff] at h
    obtain ⟨l, hl, hmap⟩ := h
    rwa [List.map_injective_iff.mpr byteChar_injective hmap]
  · obtain ⟨rest, hrest⟩ := h
    have hhead := congrArg List.head? hrest
    have hfirst : metadataPrefix.toList.head? = some 'd' := by decide
    rw [List.head?_append, hfirst, Option.some_or, List.head?_cons] at hhead
    exact absurd (Option.some.inj hhead) (by decide)

end

/-- A handoff whose checks have all passed, but for the head. -/
def readyHandoff (root observed : String) : Json :=
  let live := Json.obj [("source_class", .str "live"), ("status", .str "passed")]
  .obj [("acceptance", .obj [("claude", live), ("codex", live)]),
    ("gates", .obj [("decision_signature", .str "present"), ("phase1_promotion", .str "observed"),
      ("provider_acceptance", .str "live_complete"), ("release_cockpit", .str "ready")]),
    ("operator_handoff", .obj [("control_plane_role", .str "read_only_observer"),
      ("mutates_ao_artifacts", .bool false),
      ("release_acceptance_owner", .str "factory-v3 evaluator-closer")]),
    ("release", .obj [("repositories", .obj [("ao2", .obj [("head", .str observed),
      ("path", .str root)])])]),
    ("schema_version", .str handoffSourceSchema), ("status", .str "ready")]

theorem ownChecks_ready (root observed : String) :
    ∀ item ∈ handoffOwnChecks (readyHandoff root observed), checkPassed item = true := by
  rw [handoffOwnChecks]
  simp only [List.forall_mem_cons, checkPassed_handoffCheck]
  refine ⟨rfl, rfl, rfl, rfl, rfl, rfl, rfl, rfl, rfl, List.forall_mem_nil _⟩

theorem nestedStr_ready {root observed : String} (hroot : root ≠ "") (hobserved : observed ≠ "") :
    handoffNestedStr (readyHandoff root observed) ["release", "repositories", "ao2", "path"] = root ∧
      handoffNestedStr (readyHandoff root observed) ["release", "repositories", "ao2", "head"] =
        observed := by
  have hread (text : String) (h : text ≠ "") :
      ((some text).filter (· ≠ "")).getD "missing" = text := by
    rw [Option.filter_some, if_pos (decide_eq_true h), Option.getD_some]
  exact ⟨hread root hroot, hread observed hobserved⟩

theorem nestedStr_ne_empty (value : Json) (keys : List String) : handoffNestedStr value keys ≠ "" := by
  rw [handoffNestedStr]
  cases htext : ((handoffNested value keys).bind Json.str?).filter (· ≠ "") with
  | none => decide
  | some text => exact of_decide_eq_true (Option.filter_eq_some_iff.mp htext).2

/-! ### What is excused -/

section

variable {base head : Git.Tree} {isAncestor : Bool} {renames : Renames base head}
  (hgit : Follows git root observed expected isAncestor renames)

include hgit

/-- When a head that differs is excused, in terms of what git did. -/
theorem refresh_iff (hroot : handoffNestedStr handoff ["release", "repositories", "ao2", "path"] = root) :
    (handoffReleasePublicationMetadataRefresh git handoff "ao2" observed expected).isSome ↔
      observed ≠ expected ∧ root ≠ "missing" ∧ isAncestor = true ∧ ListedInside renames := by
  rw [refresh_isSome_iff, hroot, hgit.ancestor]
  refine and_congr_right fun _ => and_congr_right fun _ => and_congr_right fun hancestor => ?_
  obtain ⟨paths, hlists, hdiff⟩ := hgit.diff hancestor
  rw [hdiff]
  constructor
  · rintro ⟨diff, heq, -, hpaths⟩
    cases heq
    exact (metadataPaths_isSome_iff hlists).mp hpaths
  · intro hlisted
    exact ⟨_, rfl, rfl, (metadataPaths_isSome_iff hlists).mpr hlisted⟩

/-- What is listed for a head that is excused is in the directory, as far as it does not begin with a
space. -/
theorem excusesOnlyMetadata_of (h : Drift root observed expected → isAncestor = true →
    ListedInside renames → (∀ path ∈ renames.sources, metadataDir <+: path) ∧
      ∀ path, Changed base head path ∧ path ∉ renames.sources → path.head? ≠ some 32) :
    ExcusesOnlyMetadata git root observed expected base head isAncestor := by
  intro handoff expectedRepoHeads hroot hobserved hexpected hne hready
  have hcheck := ready_iff.mp hready _
    (List.mem_append_right _ (List.mem_map.mpr ⟨_, hexpected, rfl⟩))
  rw [checkPassed_repoHead, hobserved, or_iff_right hne, refresh_iff hgit hroot] at hcheck
  obtain ⟨-, hmissing, hancestor, hlisted⟩ := hcheck
  have hrootne : root ≠ "" := hroot ▸ nestedStr_ne_empty _ _
  have hobservedne : observed ≠ "" := hobserved ▸ nestedStr_ne_empty _ _
  obtain ⟨hsources, hspaces⟩ := h ⟨⟨hrootne, hmissing⟩, hobservedne, hne⟩ hancestor hlisted
  refine ⟨hancestor, fun path hpath => ?_⟩
  by_cases hsource : path ∈ renames.sources
  · exact hsources path hsource
  · obtain ⟨hprinted, hhead⟩ := head_printedName hpath.named.1 (hspaces path ⟨hpath, hsource⟩)
    exact inside_of_prefix ((hlisted.2 path ⟨hpath, hsource⟩ (trim_ne_empty hprinted hhead)).trans
      (prefix_trim hhead))

/-- A handoff that is ready but for the head is ready with one that is excused. -/
theorem changed_inside (h : ExcusesOnlyMetadata git root observed expected base head isAncestor)
    (hdrift : Drift root observed expected) (hancestor : isAncestor = true)
    (hlisted : ListedInside renames) : ∀ path, Changed base head path → metadataDir <+: path := by
  obtain ⟨hroot, hobserved⟩ := nestedStr_ready hdrift.root_ne.1 hdrift.observed_ne
  refine (h (readyHandoff root observed) [("ao2", expected)] hroot hobserved List.mem_cons_self
    hdrift.differ (ready_iff.mpr fun item hitem => ?_)).2
  rcases List.mem_append.mp hitem with hitem | hitem
  · exact ownChecks_ready root observed item hitem
  · obtain ⟨entry, hentry, rfl⟩ := List.mem_map.mp hitem
    cases List.mem_singleton.mp hentry
    rw [checkPassed_repoHead, hobserved, refresh_iff hgit hroot]
    exact .inr ⟨hdrift.differ, hdrift.root_ne.2, hancestor, hlisted⟩

/-- **A head is excused only for metadata** if and only if, where it is excused, no file outside the
directory is taken for renamed and no listed name begins with a space. -/
theorem excusesOnlyMetadata_iff :
    ExcusesOnlyMetadata git root observed expected base head isAncestor ↔
      (Drift root observed expected → isAncestor = true → ListedInside renames →
        (∀ path ∈ renames.sources, metadataDir <+: path) ∧
        ∀ path, Changed base head path ∧ path ∉ renames.sources → path.head? ≠ some 32) := by
  refine ⟨fun h hdrift hancestor hlisted => ?_, excusesOnlyMetadata_of hgit⟩
  have hinside := changed_inside hgit h hdrift hancestor hlisted
  refine ⟨fun path hpath => hinside path (Renames.changed hpath), fun path hpath hspace => ?_⟩
  obtain ⟨rest, hrest⟩ := hinside path hpath.1
  have hfirst : metadataDir.head? = some 100 := by decide
  rw [← hrest, List.head?_append, hfirst, Option.some_or] at hspace
  exact absurd (Option.some.inj hspace) (by decide)

end

/-! ### A file that was moved -/

def sourcePath : Bytes := [108, 105, 98]

def movedPath : Bytes := metadataDir ++ sourcePath

def fileAt (path : Bytes) (hne : path ≠ [] ∧ 0 ∉ path) : Git.Tree where
  entries := [(path, ⟨33188, [49]⟩)]
  nodup := List.nodup_singleton _
  named _ hpath := List.mem_singleton.mp hpath ▸ hne

def movedBase : Git.Tree := fileAt sourcePath (by decide)

def movedHead : Git.Tree := fileAt movedPath (by decide)

/-- The file `lib` was moved into the directory. -/
def moved : Renames movedBase movedHead where
  pairs := [(sourcePath, movedPath)]
  source := by decide
  target := by decide
  nodupSources := by decide
  nodupTargets := by decide

def movedGit : RunGit := fun args =>
  if args = mergeBaseArgs "/ao2" "a" "b" then some ⟨true, ""⟩
  else if args = diffArgs "/ao2" "a" "b" then some ⟨true, .ofList (listing [movedPath])⟩
  else none

theorem changed_moved {path : Bytes} : Changed movedBase movedHead path ↔
    path = sourcePath ∨ path = movedPath := by
  have hentry (name : Bytes) (hne : name ≠ [] ∧ 0 ∉ name) : (fileAt name hne).entryAt path =
      if path = name then some ⟨33188, [49]⟩ else none := by
    change [(name, _)].lookup path = _
    rw [List.lookup_cons, List.lookup_nil]
    split_ifs with h
    · rw [h, beq_self_eq_true]
    · rw [beq_eq_false_iff_ne.mpr h]
  rw [Changed, movedBase, movedHead, hentry, hentry]
  split_ifs with hsource hmoved hmoved
  · exact absurd (hsource.symm.trans hmoved) (by decide)
  · exact iff_of_true (Option.some_ne_none _) (.inl hsource)
  · exact iff_of_true (Option.some_ne_none _).symm (.inr hmoved)
  · exact iff_of_false (fun h => h rfl) fun h => h.elim hsource hmoved

theorem lists_moved : Lists moved [movedPath] := by
  refine ⟨List.nodup_singleton _, fun path => ?_⟩
  rw [List.mem_singleton, changed_moved]
  constructor
  · rintro rfl
    exact ⟨.inr rfl, by decide⟩
  · rintro ⟨rfl | rfl, hnot⟩
    · exact absurd (by decide) hnot
    · rfl

theorem follows_moved : Follows movedGit "/ao2" "a" "b" true moved where
  ancestor := by
    rw [movedGit, if_pos rfl]
    rfl
  diff _ := by
    have hne : diffArgs "/ao2" "a" "b" ≠ mergeBaseArgs "/ao2" "a" "b" := by decide
    refine ⟨[movedPath], lists_moved, ?_⟩
    rw [movedGit, if_neg hne, if_pos rfl]

theorem listedInside_moved : ListedInside moved := by
  have honly {path : Bytes} (h : Changed movedBase movedHead path ∧ path ∉ moved.sources) :
      path = movedPath :=
    List.mem_singleton.mp ((lists_moved.2 path).mpr h)
  refine ⟨⟨movedPath, (lists_moved.2 _).mp List.mem_cons_self, by decide⟩, fun path hpath _ => ?_⟩
  rw [honly hpath]
  decide

theorem excusesOnlyMetadata_moved :
    ExcusesOnlyMetadata movedGit "/ao2" "a" "b" movedBase movedHead true ↔
      (Drift "/ao2" "a" "b" → true = true → ListedInside moved →
        (∀ path ∈ moved.sources, metadataDir <+: path) ∧
        ∀ path, Changed movedBase movedHead path ∧ path ∉ moved.sources → path.head? ≠ some 32) :=
  excusesOnlyMetadata_iff follows_moved

/-- A file that was moved into the directory is excused. -/
theorem not_excusesOnlyMetadata_moved :
    Follows movedGit "/ao2" "a" "b" true moved ∧
      ¬ ExcusesOnlyMetadata movedGit "/ao2" "a" "b" movedBase movedHead true := by
  refine ⟨follows_moved, fun h => ?_⟩
  have hinside := changed_inside follows_moved h ⟨by decide, by decide, by decide⟩ rfl
    listedInside_moved sourcePath (changed_moved.mpr (.inl rfl))
  exact absurd hinside (by decide)

end Release

end Ao2
