import Ao2.Factory.Workflow
import Ao2.Json.Objects
import Ao2.Texts.Ascii

/-!
# The parity comparison

The verdict of a factory decision is the first that is recognised in a search: the texts under four
keys, what is nested under them, and the flag `accepted`. It is compared with the verdict of the native
decision.

A text that holds the word `accept` is read as an acceptance whatever else it holds, and so is the
flag of a nested document whatever the texts after it say.
-/

namespace Ao2

namespace Factory

open Json

/-! ### The search -/

/-- A text in small letters, with one kind of dash. -/
def normalizedText (value : String) : String :=
  .ofList ((toAsciiLowercase (trim value)).toList.map fun c => if c = '_' then '-' else c)

def normalizeFactoryVerdict (value : String) : Option String :=
  let normalized := normalizedText value
  if containsText normalized "accept" ∨ normalized = "passed" ∨ normalized = "pass" then
    some "accepted"
  else if containsText normalized "reject" ∨ normalized = "failed" ∨ normalized = "fail" then
    some "rejected"
  else if containsText normalized "block" then some "blocked"
  else none

def verdictKeys : List String := ["verdict", "decision", "status", "outcome"]

theorem sizeOf_lt_of_get? {value candidate : Json} {key : String} (h : value.get? key = some candidate) :
    sizeOf candidate < sizeOf value := by
  cases value with
  | obj members =>
    have hmem : (key, candidate) ∈ members := by
      obtain ⟨before, after, rfl, -⟩ := List.lookup_eq_some_iff.mp h
      exact List.mem_append_right before List.mem_cons_self
    have hlt := List.sizeOf_lt_of_mem hmem
    rw [Prod.mk.sizeOf_spec] at hlt
    rw [obj.sizeOf_spec]
    omega
  | _ => cases h

/-- The flag of a document. -/
def acceptedFlag (value : Json) : Option Bool := (value.get? "accepted").bind bool?

def factoryExtractVerdict (value : Json) : Option String :=
  (verdictKeys.findSome? fun key =>
    match h : value.get? key with
    | none => none
    | some candidate =>
      have := sizeOf_lt_of_get? h
      (candidate.str?.bind normalizeFactoryVerdict).or (factoryExtractVerdict candidate)).or
    ((acceptedFlag value).map fun accepted => if accepted then "accepted" else "rejected")
termination_by sizeOf value

/-- The comparison of a decision that was read. -/
def parityReport (factoryDecisionPath : String) (factoryDecision nativeDecision : Json) : Json :=
  let factoryVerdict := (factoryExtractVerdict factoryDecision).getD "unknown"
  let ao2Verdict := (textAt "verdict" nativeDecision).getD ""
  let status :=
    if factoryVerdict = "unknown" then "factory_verdict_unavailable"
    else if factoryVerdict = ao2Verdict then "matched"
    else "mismatched"
  .object [("schema_version", .str "ao2.factory-v3-evaluator-parity-comparison.v1"),
    ("status", .str status), ("factory_decision_path", .str factoryDecisionPath),
    ("factory_verdict", .str factoryVerdict), ("ao2_verdict", .str ao2Verdict),
    ("verdict_matches", .bool (factoryVerdict = ao2Verdict)),
    ("factory_v3_role", .str "parity_oracle_only"),
    ("ao2_decision_owner", .str "ao2-native-evaluator-closer")]

/-- The comparison, of a file that could be read or not. -/
def factoryEvaluatorParityComparison (factoryDecisionPath : String)
    (factoryDecision : Except String Json) (nativeDecision : Json) : Except String Json := do
  let decision ← factoryDecision.mapError fun _ =>
    "read factory-v3 evaluator decision " ++ factoryDecisionPath
  return parityReport factoryDecisionPath decision nativeDecision

/-! ### What a decision holds -/

/-- A text under the keys. -/
inductive TextUnder : Json → String → Prop where
  | here {value : Json} {key t : String} : key ∈ verdictKeys → value.get? key = some (.str t) →
      TextUnder value t
  | nested {value candidate : Json} {key t : String} : key ∈ verdictKeys →
      value.get? key = some candidate → TextUnder candidate t → TextUnder value t

/-- A flag of a decision or of what is nested in it. -/
inductive FlagUnder : Json → Bool → Prop where
  | here {value : Json} {b : Bool} : acceptedFlag value = some b → FlagUnder value b
  | nested {value candidate : Json} {key : String} {b : Bool} : key ∈ verdictKeys →
      value.get? key = some candidate → FlagUnder candidate b → FlagUnder value b

def Accepts (t : String) : Prop :=
  containsText (normalizedText t) "accept" ∨ normalizedText t = "passed" ∨ normalizedText t = "pass"

/-- A text is read as something else than an acceptance. -/
def Opposes (t : String) : Prop :=
  ¬ Accepts t ∧ ((containsText (normalizedText t) "reject" ∨ normalizedText t = "failed" ∨
    normalizedText t = "fail") ∨ containsText (normalizedText t) "block")

/-- A text in small letters, with dashes for underscores and spaces. -/
def dashedText (value : String) : String :=
  .ofList ((toAsciiLowercase value).toList.map fun c => if c = '_' ∨ c = ' ' then '-' else c)

def refusals : List String := ["reject", "block", "fail", "unaccept", "not-accept"]

def Refuses (t : String) : Prop := ∃ word ∈ refusals, containsText (dashedText t) word

/-- A text accepts and does not refuse. -/
def AcceptsPlainly (value : Json) : Prop := ∃ t, TextUnder value t ∧ Accepts t ∧ ¬ Refuses t

/-- No text is recognised. -/
def Unrecognised (value : Json) : Prop :=
  ∀ t, TextUnder value t → normalizeFactoryVerdict t = none

def AllRefuse (value : Json) : Prop :=
  (∃ t, TextUnder value t) ∧ ∀ t, TextUnder value t → Refuses t

/-- **No refusal is turned into an acceptance** by any comparison of a decision. -/
structure NeverTurned (decision : Json) : Prop where
  accepted : ∀ path native report,
    factoryEvaluatorParityComparison path (.ok decision) native = .ok report →
      textAt "factory_verdict" report = some "accepted" →
        AcceptsPlainly decision ∨ Unrecognised decision ∧ FlagUnder decision true
  refused : AllRefuse decision → ∀ path native report,
    factoryEvaluatorParityComparison path (.ok decision) native = .ok report →
      textAt "factory_verdict" report ≠ some "accepted" ∧
        (textAt "verdict" native = some "accepted" → textAt "status" report ≠ some "matched" ∧
          report.get? "verdict_matches" = some (.bool false))

/-! ### The order of the search -/

inductive Leaf where
  | text (t : String)
  | flag (accepted : Bool)

namespace Leaf

def verdict : Leaf → Option String
  | text t => normalizeFactoryVerdict t
  | flag accepted => some (if accepted then "accepted" else "rejected")

def Accepts : Leaf → Prop
  | text t => Factory.Accepts t
  | flag accepted => accepted = true

def Opposes : Leaf → Prop
  | text t => Factory.Opposes t
  | flag accepted => accepted = false

end Leaf

/-- The texts and flags of a decision, in the order in which they are looked at. -/
def leaves (value : Json) : List Leaf :=
  (verdictKeys.flatMap fun key =>
    match h : value.get? key with
    | none => []
    | some candidate =>
      have := sizeOf_lt_of_get? h
      (candidate.str?.map Leaf.text).toList ++ leaves candidate) ++
    ((acceptedFlag value).map Leaf.flag).toList
termination_by sizeOf value

/-- Whatever reads like an acceptance comes after something that opposes it. -/
def Opposed (decision : Json) : Prop :=
  ∀ before leaf after, leaves decision = before ++ leaf :: after → leaf.Accepts →
    ∃ l ∈ before, l.Opposes

section

variable {accept reject block : Prop} [Decidable accept] [Decidable reject] [Decidable block]

theorem chosen_eq_accepted :
    (if accept then some "accepted" else if reject then some "rejected"
      else if block then some "blocked" else none) = some "accepted" ↔ accept := by
  split_ifs with haccept hreject hblock
  · exact iff_of_true rfl haccept
  · exact iff_of_false (by decide) haccept
  · exact iff_of_false (by decide) haccept
  · exact iff_of_false (by decide) haccept

theorem chosen_eq_none :
    (if accept then some "accepted" else if reject then some "rejected"
      else if block then some "blocked" else none) = none ↔
      ¬ accept ∧ ¬ (¬ accept ∧ (reject ∨ block)) := by
  split_ifs with haccept hreject hblock
  · exact iff_of_false (by decide) fun h => h.1 haccept
  · exact iff_of_false (by decide) fun h => h.2 ⟨haccept, .inl hreject⟩
  · exact iff_of_false (by decide) fun h => h.2 ⟨haccept, .inr hblock⟩
  · exact iff_of_true rfl ⟨haccept, fun h => h.2.elim hreject hblock⟩

end

theorem normalizeFactoryVerdict_eq_accepted {t : String} :
    normalizeFactoryVerdict t = some "accepted" ↔ Accepts t := by
  unfold normalizeFactoryVerdict Accepts
  exact chosen_eq_accepted

theorem normalizeFactoryVerdict_eq_none {t : String} :
    normalizeFactoryVerdict t = none ↔ ¬ Accepts t ∧ ¬ Opposes t := by
  unfold normalizeFactoryVerdict Opposes Accepts
  exact chosen_eq_none

namespace Leaf

theorem verdict_eq_accepted {l : Leaf} : l.verdict = some "accepted" ↔ l.Accepts := by
  cases l with
  | text t =>
    rw [verdict, Leaf.Accepts]
    exact normalizeFactoryVerdict_eq_accepted
  | flag accepted =>
    rw [verdict, Leaf.Accepts]
    cases accepted <;> decide

theorem verdict_eq_none {l : Leaf} : l.verdict = none ↔ ¬ l.Accepts ∧ ¬ l.Opposes := by
  cases l with
  | text t =>
    rw [verdict, Leaf.Accepts, Leaf.Opposes]
    exact normalizeFactoryVerdict_eq_none
  | flag accepted =>
    refine iff_of_false (by rw [verdict]; exact Option.some_ne_none _) fun h => ?_
    cases accepted with
    | false => exact h.2 rfl
    | true => exact h.1 rfl

end Leaf

/-! ### The verdict of the search -/

theorem findSome?_flatMap {α β γ : Type} (f : α → List β) (g : β → Option γ) (l : List α) :
    (l.flatMap f).findSome? g = l.findSome? fun a => (f a).findSome? g := by
  induction l with
  | nil => rfl
  | cons a l ih =>
    rw [List.flatMap_cons, List.findSome?_append, ih, List.findSome?_cons]
    cases (f a).findSome? g <;> rfl

theorem findSome?_congr {α β : Type} {f g : α → Option β} {l : List α} (h : ∀ a ∈ l, f a = g a) :
    l.findSome? f = l.findSome? g := by
  induction l with
  | nil => rfl
  | cons a l ih =>
    rw [List.findSome?_cons, List.findSome?_cons, h a List.mem_cons_self,
      ih fun b hb => h b (List.mem_cons_of_mem a hb)]

/-- What is looked at under a key, in the order of the search. -/
def leavesUnder (candidate : Json) : List Leaf :=
  (candidate.str?.map Leaf.text).toList ++ leaves candidate

theorem leaves_eq (value : Json) : leaves value =
    (verdictKeys.flatMap fun key => ((value.get? key).map leavesUnder).getD []) ++
      ((acceptedFlag value).map Leaf.flag).toList := by
  rw [leaves]
  congr 2
  funext key
  split
  · rename_i hnone
    rw [hnone]
    rfl
  · rename_i candidate hsome
    dsimp only
    rw [hsome]
    rfl

theorem findSome?_text (s : Option String) :
    (s.map Leaf.text).toList.findSome? Leaf.verdict = s.bind normalizeFactoryVerdict := by
  cases s with
  | none => rfl
  | some t =>
    rw [Option.map_some, Option.toList_some, List.findSome?_singleton, Leaf.verdict,
      Option.bind_some]

/-- What the search finds is the first leaf that is recognised. -/
theorem factoryExtractVerdict_eq (value : Json) :
    factoryExtractVerdict value = (leaves value).findSome? Leaf.verdict := by
  rw [factoryExtractVerdict, leaves_eq, List.findSome?_append, findSome?_flatMap]
  congr 1
  · refine findSome?_congr fun key _ => ?_
    split
    · rename_i hnone
      rw [hnone]
      rfl
    · rename_i candidate hsome
      have := sizeOf_lt_of_get? hsome
      dsimp only
      rw [hsome, Option.map_some, Option.getD_some, leavesUnder, List.findSome?_append,
        findSome?_text, ← factoryExtractVerdict_eq candidate]
  · cases acceptedFlag value <;> rfl
termination_by sizeOf value

theorem mem_leavesUnder {candidate : Json} {l : Leaf} : l ∈ leavesUnder candidate ↔
    (∃ t, candidate = .str t ∧ l = .text t) ∨ l ∈ leaves candidate := by
  rw [leavesUnder, List.mem_append]
  refine or_congr_left ?_
  cases candidate with
  | str t => simp [str?]
  | _ => simp [str?]

theorem mem_leaves {value : Json} {l : Leaf} : l ∈ leaves value ↔
    (∃ key ∈ verdictKeys, ∃ candidate, value.get? key = some candidate ∧
      l ∈ leavesUnder candidate) ∨ ∃ b, acceptedFlag value = some b ∧ l = .flag b := by
  rw [leaves_eq, List.mem_append, List.mem_flatMap]
  refine or_congr (exists_congr fun key => and_congr_right fun _ => ?_) ?_
  · cases value.get? key with
    | none => simp
    | some candidate => simp
  · cases acceptedFlag value with
    | none => simp
    | some b => simp

theorem textUnder_of_mem {value : Json} {t : String} (h : .text t ∈ leaves value) :
    TextUnder value t := by
  rcases mem_leaves.mp h with ⟨key, hkey, candidate, hget, hmem⟩ | ⟨b, -, h⟩
  · rcases mem_leavesUnder.mp hmem with ⟨t', rfl, h⟩ | hmem
    · cases h
      exact .here hkey hget
    · have := sizeOf_lt_of_get? hget
      exact .nested hkey hget (textUnder_of_mem hmem)
  · cases h
termination_by sizeOf value

theorem mem_leaves_text {value : Json} {t : String} : .text t ∈ leaves value ↔ TextUnder value t := by
  refine ⟨textUnder_of_mem, fun h => ?_⟩
  induction h with
  | here hkey hget =>
    exact mem_leaves.mpr (.inl ⟨_, hkey, _, hget, mem_leavesUnder.mpr (.inl ⟨_, rfl, rfl⟩)⟩)
  | nested hkey hget _ ih =>
    exact mem_leaves.mpr (.inl ⟨_, hkey, _, hget, mem_leavesUnder.mpr (.inr ih)⟩)

theorem flagUnder_of_mem {value : Json} {b : Bool} (h : .flag b ∈ leaves value) :
    FlagUnder value b := by
  rcases mem_leaves.mp h with ⟨key, hkey, candidate, hget, hmem⟩ | ⟨b', hflag, h⟩
  · rcases mem_leavesUnder.mp hmem with ⟨t', -, h⟩ | hmem
    · cases h
    · have := sizeOf_lt_of_get? hget
      exact .nested hkey hget (flagUnder_of_mem hmem)
  · cases h
    exact .here hflag
termination_by sizeOf value

/-- An acceptance is found if and only if something that reads like one comes before all that opposes
it. -/
theorem verdict_accepted_iff {decision : Json} :
    factoryExtractVerdict decision = some "accepted" ↔ ¬ Opposed decision := by
  rw [factoryExtractVerdict_eq, Opposed]
  simp only [not_forall, not_exists, not_and]
  constructor
  · intro h
    obtain ⟨before, leaf, after, heq, hleaf, hbefore⟩ := List.findSome?_eq_some_iff.mp h
    exact ⟨before, leaf, after, heq, Leaf.verdict_eq_accepted.mp hleaf, fun l hl =>
      (Leaf.verdict_eq_none.mp (hbefore l hl)).2⟩
  · rintro ⟨before, leaf, after, heq, hleaf, hbefore⟩
    rw [heq, List.findSome?_append, List.findSome?_cons, Leaf.verdict_eq_accepted.mpr hleaf]
    cases hfound : before.findSome? Leaf.verdict with
    | none => rfl
    | some verdict =>
      obtain ⟨l, hl, hverdict⟩ := List.exists_of_findSome?_eq_some hfound
      have haccepts : l.Accepts := by
        by_contra hnot
        have hnone := Leaf.verdict_eq_none.mpr ⟨hnot, hbefore l hl⟩
        rw [hnone] at hverdict
        cases hverdict
      rw [Option.some_or, ← hverdict]
      exact Leaf.verdict_eq_accepted.mpr haccepts

/-! ### The report -/

section

variable {path : String} {decision native report : Json}

theorem eq_parityReport
    (h : factoryEvaluatorParityComparison path (.ok decision) native = .ok report) :
    report = parityReport path decision native :=
  (Except.ok.inj h).symm

theorem textAt_factoryVerdict : textAt "factory_verdict" (parityReport path decision native) =
    some ((factoryExtractVerdict decision).getD "unknown") := by
  rw [textAt, parityReport, get?_object]
  rfl

/-- An acceptance is reported if and only if it was found. -/
theorem reports_accepted_iff :
    textAt "factory_verdict" (parityReport path decision native) = some "accepted" ↔
      factoryExtractVerdict decision = some "accepted" := by
  rw [textAt_factoryVerdict, Option.some_inj]
  cases factoryExtractVerdict decision with
  | none => exact iff_of_false (by decide) (Option.some_ne_none _).symm
  | some verdict => exact Option.some_inj.symm

/-- What is not an acceptance does not match one. -/
theorem not_matched (h : factoryExtractVerdict decision ≠ some "accepted")
    (hnative : textAt "verdict" native = some "accepted") :
    textAt "status" (parityReport path decision native) ≠ some "matched" ∧
      (parityReport path decision native).get? "verdict_matches" = some (.bool false) := by
  have hne : (factoryExtractVerdict decision).getD "unknown" ≠ "accepted" := by
    cases hverdict : factoryExtractVerdict decision with
    | none => decide
    | some verdict =>
      rw [hverdict] at h
      exact fun heq => h (congrArg some heq)
  rw [textAt, parityReport, hnative, Option.getD_some, get?_object, get?_object, if_neg hne,
    decide_eq_false hne]
  refine ⟨?_, rfl⟩
  split
  · change some "factory_verdict_unavailable" ≠ some "matched"
    decide
  · change some "mismatched" ≠ some "matched"
    decide

end

def refusingDecision : Json := .obj [("verdict", .str "not-accepted")]

theorem textUnder_refusing {t : String} (h : TextUnder refusingDecision t) : t = "not-accepted" := by
  have honly {key : String} {candidate : Json} (hget : refusingDecision.get? key = some candidate) :
      candidate = .str "not-accepted" := by
    rw [refusingDecision, get?, List.lookup_cons] at hget
    split at hget
    · exact (Option.some.inj hget).symm
    · cases hget
  cases h with
  | here _ hget => exact str.inj (honly hget)
  | nested _ hget hunder =>
    cases honly hget
    cases hunder with
    | here _ hget => cases hget
    | nested _ hget _ => cases hget

end Factory

end Ao2
