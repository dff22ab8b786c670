import Ao2.Json.Printed
import Ao2.Provider.Report

/-!
# The parsers of the providers

There are three parsers for transcripts, one for each of two providers and one for the others. They
read a line in the same way, but the last one leaves out the concerns and blockers that say that
there is none. The values of JSON lines are read with their floats.

## Main results

* `Provider.parseTranscript_true` — what the last parser leaves out, and no more
-/

namespace Ao2

namespace Provider

section

variable {F : Type}

def mergeTranscriptIds (value : SerdeValue F) (ids : List (String × String)) :
    List (String × String) :=
  ["session_id", "conversation_id", "transcript_id", "response_id", "thread_id"].foldl
    (fun ids key =>
      match (value.get? key).bind SerdeValue.str? with
      | some text => if isBlank text then ids else insertTranscriptId ids key (trim text)
      | none => ids) ids

def jsonU64Like (value : SerdeValue F) (key : String) : Option ℕ :=
  match value.get? key with
  | some (.int n) => if 0 ≤ n then some n.toNat else none
  | some (.str text) => parseU64 text
  | _ => none

variable [CostNumber F]

def jsonF64Like (value : SerdeValue F) (key : String) : Option F :=
  match value.get? key with
  | some (.int n) => some (CostNumber.ofInt n)
  | some (.float x) => some x
  | some (.str text) => CostNumber.parseCost text
  | _ => none

/-- The usage that a value tells, if it tells any. -/
def mergeUsageMetadata (value : SerdeValue F) (s : ProviderTranscriptSummary F) :
    Option (ProviderTranscriptSummary F) :=
  let usageValue := (value.get? "usage").getD value
  let input := (jsonU64Like usageValue "input_tokens").or (jsonU64Like usageValue "input")
  let output := (jsonU64Like usageValue "output_tokens").or (jsonU64Like usageValue "output")
  let total := (jsonU64Like usageValue "total_tokens").or (jsonU64Like usageValue "total")
  let cost := (jsonF64Like usageValue "cost_usd").or (jsonF64Like usageValue "cost")
  if input.isNone ∧ output.isNone ∧ total.isNone ∧ cost.isNone then none
  else some { s with
    usage := ⟨input.or s.usage.inputTokens, output.or s.usage.outputTokens,
      total.or s.usage.totalTokens⟩
    costUsd := cost.or s.costUsd }

variable [FloatDigits F]

/-- One line of a report. -/
def parseLine (skipsNone : Bool) (s : ProviderTranscriptSummary F) (line : String) :
    ProviderTranscriptSummary F :=
  match SerdeValue.fromStr (F := F) line.toList with
  | some value =>
    let s := { s with transcriptIds := mergeTranscriptIds value s.transcriptIds }
    match mergeUsageMetadata value s with
    | some s => s
    | none => parseLabelledLine skipsNone s line
  | none => parseLabelledLine skipsNone s line

/-- What is read from a transcript. Where `skipsNone` is set, a concern or blocker that says that
there is none is not one. -/
def parseTranscript (skipsNone : Bool) (provider : ProviderKind) (transcript : String)
    (sandboxChangedFiles : List String) : ProviderTranscriptSummary F :=
  (filledLines (transcriptParseBody transcript).toList).foldl (parseLine skipsNone)
    (initialSummary provider sandboxChangedFiles)

/-- The parser of Codex, whose summary is turned into one for any provider. -/
def codexParseTranscript : String → List String → ProviderTranscriptSummary F :=
  parseTranscript false .codex

/-- The parser of Claude. -/
def claudeParseTranscript : String → List String → ProviderTranscriptSummary F :=
  parseTranscript false .claude

def parseScriptedProviderTranscript :
    ProviderKind → String → List String → ProviderTranscriptSummary F :=
  parseTranscript true

def parseProviderTranscript : ProviderKind → String → List String → ProviderTranscriptSummary F
  | .codex => codexParseTranscript
  | .claude => claudeParseTranscript
  | .antigravity => parseScriptedProviderTranscript .antigravity
  | .scripted => parseScriptedProviderTranscript .scripted

end

/-! ### The property -/

/-- Two summaries tell the same, of whichever provider they are. -/
structure SameReport {F : Type} (s s' : ProviderTranscriptSummary F) : Prop where
  changedFiles : s.changedFiles = s'.changedFiles
  concerns : s.concerns = s'.concerns
  blockers : s.blockers = s'.blockers
  usage : s.usage = s'.usage
  costUsd : s.costUsd = s'.costUsd
  transcriptIds : s.transcriptIds = s'.transcriptIds
  rawSummary : s.rawSummary = s'.rawSummary

/-- **The parsers agree** on a transcript. -/
def ParsersAgree (F : Type) [CostNumber F] [FloatDigits F] (transcript : String)
    (sandboxChangedFiles : List String) : Prop :=
  ∀ provider provider', SameReport (F := F)
    (parseProviderTranscript provider transcript sandboxChangedFiles)
    (parseProviderTranscript provider' transcript sandboxChangedFiles)

/-- The concern on a line. -/
def concernOn (line : String) : Option ProviderConcern :=
  (valueAfterLabel line ["concern"]).map parseConcern

/-- The blocker on a line. -/
def blockerOn (line : String) : Option String := valueAfterLabel line ["blocker"]

/-- No line says of the concerns or of the blockers that there is none, or nothing at all. -/
def NoLineSaysNone (transcript : String) : Prop :=
  ∀ line ∈ filledLines (transcriptParseBody transcript).toList,
    (∀ c ∈ concernOn line, tellsBlocker c.message = true) ∧
      ∀ message ∈ blockerOn line, tellsBlocker message = true

/-! ### What is left out -/

/-- The text is that of a concern or blocker, which is there unless it says that there is none. -/
theorem ite_saying {α : Sort*} (text : String) (a b : α) :
    (if true = true ∧ (saysNone text = true ∨ text = "") then a else b) =
      if tellsBlocker text = true then b else a := by
  by_cases hnone : saysNone text = true ∨ text = ""
  · have htells : ¬ tellsBlocker text = true := by
      rw [tellsBlocker, Bool.and_eq_true, decide_eq_true_iff, Bool.not_eq_true']
      exact fun h => hnone.elim (fun hsaid => absurd h.2 (by simp [hsaid])) h.1
    rw [if_pos ⟨rfl, hnone⟩, if_neg htells]
  · rw [not_or] at hnone
    rw [if_neg fun h => h.2.elim hnone.1 hnone.2, if_pos]
    rw [tellsBlocker, Bool.and_eq_true, decide_eq_true_iff, Bool.not_eq_true']
    exact ⟨hnone.2, Bool.eq_false_iff.mpr hnone.1⟩

theorem filter_concat {α : Type} (p : α → Bool) (l : List α) (a : α) :
    (l ++ [a]).filter p = if p a = true then l.filter p ++ [a] else l.filter p := by
  rw [List.filter_append, List.filter_cons, List.filter_nil]
  split
  · rfl
  · exact List.append_nil _

section

variable {F : Type} {s : ProviderTranscriptSummary F}

/-- A summary without the concerns and blockers that say that there is none. -/
def dropNone (s : ProviderTranscriptSummary F) : ProviderTranscriptSummary F :=
  { s with
    concerns := s.concerns.filter fun c => tellsBlocker c.message
    blockers := s.blockers.filter fun b => tellsBlocker b.message }

theorem dropNone_eq_self (hconcerns : (dropNone s).concerns = s.concerns)
    (hblockers : (dropNone s).blockers = s.blockers) : dropNone s = s := by
  have h : dropNone s =
      { s with concerns := (dropNone s).concerns, blockers := (dropNone s).blockers } := rfl
  rw [h, hconcerns, hblockers]

theorem dropNone_concern (c : ProviderConcern) :
    dropNone { s with concerns := s.concerns ++ [c] } =
      if tellsBlocker c.message = true then
        { dropNone s with concerns := (dropNone s).concerns ++ [c] }
      else dropNone s := by
  rw [dropNone, filter_concat]
  split <;> rfl

theorem dropNone_blocker (b : AdapterBlocker) :
    dropNone { s with blockers := s.blockers ++ [b] } =
      if tellsBlocker b.message = true then
        { dropNone s with blockers := (dropNone s).blockers ++ [b] }
      else dropNone s := by
  rw [dropNone, filter_concat]
  split <;> rfl

/-- A summary, told to be of a provider. -/
def named (provider : ProviderKind) (s : ProviderTranscriptSummary F) :
    ProviderTranscriptSummary F :=
  { s with provider := provider }

theorem SameReport.named (s : ProviderTranscriptSummary F) (provider provider' : ProviderKind) :
    SameReport (Provider.named provider s) (Provider.named provider' s) :=
  ⟨rfl, rfl, rfl, rfl, rfl, rfl, rfl⟩

/-- Nothing is left out if and only if no line says that there is none. -/
theorem dropNone_same_iff {lines : List String}
    (hconcerns : s.concerns = lines.filterMap concernOn)
    (hblockers : s.blockers.map (·.message) = lines.filterMap blockerOn) :
    (dropNone s).concerns = s.concerns ∧ (dropNone s).blockers = s.blockers ↔
      ∀ line ∈ lines, (∀ c ∈ concernOn line, tellsBlocker c.message = true) ∧
        ∀ message ∈ blockerOn line, tellsBlocker message = true := by
  have hc : (dropNone s).concerns = s.concerns ↔
      ∀ c ∈ lines.filterMap concernOn, tellsBlocker c.message = true := by
    rw [← hconcerns]
    exact List.filter_eq_self
  have hb : (dropNone s).blockers = s.blockers ↔
      ∀ message ∈ lines.filterMap blockerOn, tellsBlocker message = true := by
    rw [← hblockers, List.forall_mem_map]
    exact List.filter_eq_self
  rw [hc, hb]
  constructor
  · rintro ⟨hc, hb⟩ line hline
    exact ⟨fun c h => hc c (List.mem_filterMap.mpr ⟨line, hline, h⟩),
      fun message h => hb message (List.mem_filterMap.mpr ⟨line, hline, h⟩)⟩
  · intro h
    refine ⟨fun c hc => ?_, fun message hmessage => ?_⟩
    · obtain ⟨line, hline, hc⟩ := List.mem_filterMap.mp hc
      exact (h line hline).1 c hc
    · obtain ⟨line, hline, hmessage⟩ := List.mem_filterMap.mp hmessage
      exact (h line hline).2 message hmessage

variable [CostNumber F] {line transcript : String}

theorem parseLabelledLine_true :
    parseLabelledLine true (dropNone s) line = dropNone (parseLabelledLine false s line) := by
  rw [parseLabelledLine, parseLabelledLine]
  dsimp only
  cases valueAfterLabel line ["summary"] with
  | some value =>
    dsimp only
    rw [apply_ite dropNone]
    rfl
  | none =>
  cases valueAfterLabel line ["changed files", "changed_files", "files changed"] with
  | some value => rfl
  | none =>
  dsimp only
  split
  · split <;> rfl
  cases valueAfterLabel line ["concern"] with
  | some value =>
    dsimp only
    rw [ite_saying]
    exact (dropNone_concern (parseConcern value)).symm
  | none =>
  cases valueAfterLabel line ["blocker"] with
  | some value =>
    dsimp only
    rw [ite_saying]
    exact (dropNone_blocker ⟨"provider_reported_blocker", value⟩).symm
  | none =>
  -- no other line has to do with concerns or blockers
  dsimp only
  repeat' split
  all_goals rfl

theorem mergeUsageMetadata_dropNone (value : SerdeValue F) (s : ProviderTranscriptSummary F) :
    mergeUsageMetadata value (dropNone s) = (mergeUsageMetadata value s).map dropNone := by
  rw [mergeUsageMetadata, mergeUsageMetadata]
  split <;> rfl

theorem parseLabelledLine_named (skipsNone : Bool) (provider : ProviderKind)
    (s : ProviderTranscriptSummary F) (line : String) :
    parseLabelledLine skipsNone (named provider s) line =
      named provider (parseLabelledLine skipsNone s line) := by
  have hsummary : (named provider s).rawSummary = s.rawSummary := rfl
  rw [parseLabelledLine, parseLabelledLine]
  dsimp only
  rw [hsummary]
  -- no line is read in another way because of the provider
  repeat' split
  all_goals rfl

theorem mergeUsageMetadata_named (provider : ProviderKind) (value : SerdeValue F)
    (s : ProviderTranscriptSummary F) : mergeUsageMetadata value (named provider s) =
      (mergeUsageMetadata value s).map (named provider) := by
  rw [mergeUsageMetadata, mergeUsageMetadata]
  split <;> rfl

variable [FloatDigits F]

/-- A change of summaries that does not matter to labels, to usage and to ids does not matter to
lines. -/
theorem parseLine_hom {skipsNone skipsNone' : Bool}
    {f : ProviderTranscriptSummary F → ProviderTranscriptSummary F}
    (hids : ∀ s ids, { f s with transcriptIds := ids } = f { s with transcriptIds := ids })
    (hsame : ∀ s, (f s).transcriptIds = s.transcriptIds)
    (hmerge : ∀ value s, mergeUsageMetadata value (f s) = (mergeUsageMetadata value s).map f)
    (hlabelled : ∀ s line,
      parseLabelledLine skipsNone' (f s) line = f (parseLabelledLine skipsNone s line))
    (s : ProviderTranscriptSummary F) (line : String) :
    parseLine skipsNone' (f s) line = f (parseLine skipsNone s line) := by
  rw [parseLine, parseLine]
  cases SerdeValue.fromStr (F := F) line.toList with
  | none => exact hlabelled s line
  | some value =>
    dsimp only
    rw [hids, hsame, hmerge]
    cases mergeUsageMetadata value
        { s with transcriptIds := mergeTranscriptIds value s.transcriptIds } with
    | some merged => rfl
    | none => exact hlabelled _ line

/-- **What the parsers differ in**: the one that leaves out what says that there is none gives what
the others give without that. -/
theorem parseTranscript_true (provider : ProviderKind) (sandboxChangedFiles : List String) :
    parseTranscript (F := F) true provider transcript sandboxChangedFiles =
      dropNone (parseTranscript false provider transcript sandboxChangedFiles) := by
  rw [parseTranscript, parseTranscript,
    ← @List.foldl_hom _ _ _ dropNone (parseLine false) (parseLine true) _ _
      (parseLine_hom (fun _ _ => rfl) (fun _ => rfl) mergeUsageMetadata_dropNone
        fun _ _ => parseLabelledLine_true)]
  rfl

end

/-! ### Lines with a concern or a blocker -/

theorem prefix_of_valueAfterLabel {line label value : String}
    (h : valueAfterLabel line [label] = some value) :
    label.toList <+: (toAsciiLowercase line).toList := by
  rw [valueAfterLabel] at h
  split_ifs at h with hlabel
  · rw [String.toList_append, String.toList_append] at hlabel
    exact hlabel.elim (List.prefix_append _ _).trans (List.prefix_append _ _).trans
  · cases h

/-- Two texts of which neither begins with the other. -/
def apart (text other : List Char) : Bool := !text.isPrefixOf other && !other.isPrefixOf text

theorem not_prefix_of_apart {text other lower : List Char} (h : text <+: lower)
    (hapart : apart text other = true) : ¬ other <+: lower := by
  intro hother
  rw [apart, Bool.and_eq_true, Bool.not_eq_true', Bool.not_eq_true'] at hapart
  rcases List.prefix_or_prefix_of_prefix h hother with hpre | hpre
  · rw [List.isPrefixOf_iff_prefix.mpr hpre] at hapart
    cases hapart.1
  · rw [List.isPrefixOf_iff_prefix.mpr hpre] at hapart
    cases hapart.2

/-- A line that begins with a text begins with no label that is apart from it. -/
theorem valueAfterLabel_eq_of_isPrefix {line : String} {text : List Char} {labels : List String}
    (h : text <+: (toAsciiLowercase line).toList)
    (hlabels : labels.all (fun label => apart text (label ++ ":").toList &&
      apart text (label ++ "=").toList) = true) : valueAfterLabel line labels = none := by
  induction labels with
  | nil => rfl
  | cons label labels ih =>
    rw [List.all_cons, Bool.and_eq_true, Bool.and_eq_true] at hlabels
    rw [valueAfterLabel, if_neg, ih hlabels.2]
    exact not_or.mpr ⟨not_prefix_of_apart h hlabels.1.1, not_prefix_of_apart h hlabels.1.2⟩

section

variable {F : Type} [CostNumber F] {s : ProviderTranscriptSummary F} {line transcript : String}
  {lines : List String}

/-- A line with a concern adds it, and no other line adds one. -/
theorem concerns_labelled : (parseLabelledLine false s line).concerns =
    s.concerns ++ (concernOn line).toList := by
  cases hconcern : valueAfterLabel line ["concern"] with
  | some value =>
    have hpre := prefix_of_valueAfterLabel hconcern
    have hmodified : ¬ ("modified:".toList <+: (toAsciiLowercase line).toList ∨
        "added:".toList <+: (toAsciiLowercase line).toList ∨
        "deleted:".toList <+: (toAsciiLowercase line).toList) := by
      rw [not_or, not_or]
      exact ⟨not_prefix_of_apart hpre (by decide), not_prefix_of_apart hpre (by decide),
        not_prefix_of_apart hpre (by decide)⟩
    rw [parseLabelledLine]
    dsimp only
    rw [valueAfterLabel_eq_of_isPrefix hpre (by decide),
      valueAfterLabel_eq_of_isPrefix hpre (by decide), hconcern]
    dsimp only
    rw [if_neg hmodified, if_neg fun h => Bool.false_ne_true h.1, concernOn, hconcern]
    rfl
  | none =>
    rw [concernOn, hconcern, Option.map_none, Option.toList_none, List.append_nil,
      parseLabelledLine]
    dsimp only
    rw [hconcern]
    dsimp only
    -- every other line leaves the concerns as they are
    repeat' split
    all_goals rfl

theorem blockers_labelled : (parseLabelledLine false s line).blockers.map (·.message) =
    s.blockers.map (·.message) ++ (blockerOn line).toList := by
  rw [blockers_parseLabelledLine, List.map_append, blockerOf, blockerOn]
  cases valueAfterLabel line ["blocker"] <;> rfl

end

/-- A character that a line with a concern or a blocker can begin with. -/
theorem mem_of_toLower {c : Char} (h : c.toLower = 'b' ∨ c.toLower = 'c') :
    c ∈ ['b', 'B', 'c', 'C'] := by
  rcases toLower_cases c with heq | ⟨-, -, hval⟩
  · rw [heq] at h
    rcases h with rfl | rfl <;> decide
  · rcases h with h | h
    · have hc : c.toNat = 'B'.toNat :=
        Nat.add_right_cancel (hval.symm.trans (congrArg Char.toNat h))
      rw [Char.toNat_inj.mp hc]
      decide
    · have hc : c.toNat = 'C'.toNat :=
        Nat.add_right_cancel (hval.symm.trans (congrArg Char.toNat h))
      rw [Char.toNat_inj.mp hc]
      decide

section

variable {F : Type} [FloatDigits F] {line : String}

theorem fromStr_of_mem {c : Char} (hc : c ∈ ['b', 'B', 'c', 'C']) (rest : List Char) :
    SerdeValue.fromStr (F := F) (c :: rest) = none := by
  simp only [List.mem_cons, List.not_mem_nil, or_false] at hc
  rcases hc with rfl | rfl | rfl | rfl <;> rfl

/-- A line with a concern or a blocker is no value. -/
theorem fromStr_of_label {label value : String} (h : valueAfterLabel line [label] = some value)
    (hlabel : label.toList.head? = some 'b' ∨ label.toList.head? = some 'c') :
    SerdeValue.fromStr (F := F) line.toList = none := by
  obtain ⟨rest, hrest⟩ := prefix_of_valueAfterLabel h
  have hhead : (line.toList.map Char.toLower).head? = label.toList.head? := by
    rw [← String.toList_ofList (l := line.toList.map Char.toLower)]
    change (toAsciiLowercase line).toList.head? = _
    rw [← hrest, List.head?_append_of_ne_nil]
    rintro hnil
    rw [hnil] at hlabel
    rcases hlabel with hlabel | hlabel <;> cases hlabel
  cases hline : line.toList with
  | nil =>
    rw [hline] at hhead
    rw [← hhead] at hlabel
    rcases hlabel with hlabel | hlabel <;> cases hlabel
  | cons c tail =>
    rw [hline] at hhead
    rw [← hhead] at hlabel
    exact fromStr_of_mem (mem_of_toLower (hlabel.imp Option.some.inj Option.some.inj)) tail

/-! ### Whole transcripts -/

variable [CostNumber F] {s : ProviderTranscriptSummary F} {lines : List String}
  {transcript : String}

/-- A line that is a value is read as any other after that, if it tells no usage. -/
theorem parseLine_cases (s : ProviderTranscriptSummary F) (line : String) :
    ∃ s' : ProviderTranscriptSummary F, s'.concerns = s.concerns ∧ s'.blockers = s.blockers ∧
      (parseLine false s line = s' ∧ SerdeValue.fromStr (F := F) line.toList ≠ none ∨
        parseLine false s line = parseLabelledLine false s' line) := by
  rw [parseLine]
  cases SerdeValue.fromStr (F := F) line.toList with
  | none => exact ⟨s, rfl, rfl, .inr rfl⟩
  | some value =>
    dsimp only
    cases hmerge : mergeUsageMetadata value
        { s with transcriptIds := mergeTranscriptIds value s.transcriptIds } with
    | none =>
      exact ⟨{ s with transcriptIds := mergeTranscriptIds value s.transcriptIds }, rfl, rfl,
        .inr rfl⟩
    | some merged =>
      rw [mergeUsageMetadata] at hmerge
      split_ifs at hmerge
      exact ⟨merged, by rw [← Option.some.inj hmerge], by rw [← Option.some.inj hmerge],
        .inl ⟨rfl, Option.some_ne_none value⟩⟩

theorem concerns_parseLine :
    (parseLine false s line).concerns = s.concerns ++ (concernOn line).toList := by
  obtain ⟨s', hconcerns, -, ⟨heq, hvalue⟩ | heq⟩ := parseLine_cases s line
  · have hnone : valueAfterLabel line ["concern"] = none :=
      Option.eq_none_iff_forall_ne_some.mpr fun value h => hvalue (fromStr_of_label h (by decide))
    rw [heq, hconcerns, concernOn, hnone]
    exact (List.append_nil _).symm
  · rw [heq, concerns_labelled, hconcerns]

theorem blockers_parseLine : (parseLine false s line).blockers.map (·.message) =
    s.blockers.map (·.message) ++ (blockerOn line).toList := by
  obtain ⟨s', -, hblockers, ⟨heq, hvalue⟩ | heq⟩ := parseLine_cases s line
  · have hnone : valueAfterLabel line ["blocker"] = none :=
      Option.eq_none_iff_forall_ne_some.mpr fun value h => hvalue (fromStr_of_label h (by decide))
    rw [heq, hblockers, blockerOn, hnone]
    exact (List.append_nil _).symm
  · rw [heq, blockers_labelled, hblockers]

theorem concerns_foldl_parseLine : (lines.foldl (parseLine false) s).concerns =
    s.concerns ++ lines.filterMap concernOn := by
  induction lines generalizing s with
  | nil => exact (List.append_nil _).symm
  | cons line lines ih =>
    rw [List.foldl_cons, ih, concerns_parseLine, List.append_assoc, List.filterMap_cons]
    cases concernOn line <;> rfl

theorem blockers_foldl_parseLine : (lines.foldl (parseLine false) s).blockers.map (·.message) =
    s.blockers.map (·.message) ++ lines.filterMap blockerOn := by
  induction lines generalizing s with
  | nil => exact (List.append_nil _).symm
  | cons line lines ih =>
    rw [List.foldl_cons, ih, blockers_parseLine, List.append_assoc, List.filterMap_cons]
    cases blockerOn line <;> rfl

/-- The provider is only named in a summary. -/
theorem parseTranscript_named (skipsNone : Bool) (provider provider' : ProviderKind)
    (sandboxChangedFiles : List String) :
    parseTranscript (F := F) skipsNone provider transcript sandboxChangedFiles =
      named provider (parseTranscript skipsNone provider' transcript sandboxChangedFiles) := by
  rw [parseTranscript, parseTranscript,
    ← @List.foldl_hom _ _ _ (named provider) (parseLine skipsNone) (parseLine skipsNone) _ _
      (parseLine_hom (fun _ _ => rfl) (fun _ => rfl) (mergeUsageMetadata_named provider)
        (parseLabelledLine_named skipsNone provider))]
  rfl

theorem concerns_parseTranscript (provider : ProviderKind) (sandboxChangedFiles : List String) :
    (parseTranscript (F := F) false provider transcript sandboxChangedFiles).concerns =
      (filledLines (transcriptParseBody transcript).toList).filterMap concernOn := by
  rw [parseTranscript, concerns_foldl_parseLine]
  exact List.nil_append _

theorem blockers_parseTranscript (provider : ProviderKind) (sandboxChangedFiles : List String) :
    (parseTranscript (F := F) false provider transcript sandboxChangedFiles).blockers.map
      (·.message) = (filledLines (transcriptParseBody transcript).toList).filterMap blockerOn := by
  rw [parseTranscript, blockers_foldl_parseLine]
  exact List.nil_append _

/-- The last parser is that of two providers. -/
theorem parseProviderTranscript_cases (provider : ProviderKind) :
    parseProviderTranscript (F := F) provider = parseTranscript true provider ∨
      parseProviderTranscript (F := F) provider = parseTranscript false provider := by
  cases provider with
  | codex => exact .inr rfl
  | claude => exact .inr rfl
  | antigravity => exact .inl rfl
  | scripted => exact .inl rfl

/-- **The parsers agree** on a transcript if and only if no line of it says of the concerns or of
the blockers that there is none. -/
theorem parsersAgree_iff (transcript : String) (sandboxChangedFiles : List String) :
    ParsersAgree F transcript sandboxChangedFiles ↔ NoLineSaysNone transcript := by
  obtain ⟨s, hs⟩ : ∃ s, s = parseTranscript (F := F) false .codex transcript sandboxChangedFiles :=
    ⟨_, rfl⟩
  have hsame : (dropNone s).concerns = s.concerns ∧ (dropNone s).blockers = s.blockers ↔
      NoLineSaysNone transcript := by
    rw [hs]
    exact dropNone_same_iff (concerns_parseTranscript .codex sandboxChangedFiles)
      (blockers_parseTranscript .codex sandboxChangedFiles)
  have htrue (provider : ProviderKind) :
      parseTranscript true provider transcript sandboxChangedFiles =
        named provider (dropNone s) := by
    rw [hs, parseTranscript_named true provider .codex, parseTranscript_true]
  have hfalse (provider : ProviderKind) :
      parseTranscript false provider transcript sandboxChangedFiles = named provider s := by
    rw [hs, parseTranscript_named false provider .codex]
  rw [← hsame]
  constructor
  · intro h
    have hreport : SameReport (F := F)
        (parseTranscript true .scripted transcript sandboxChangedFiles)
        (parseTranscript false .codex transcript sandboxChangedFiles) := h .scripted .codex
    rw [htrue, hfalse] at hreport
    exact ⟨hreport.concerns, hreport.blockers⟩
  · rintro ⟨hconcerns, hblockers⟩ provider provider'
    have hall (provider : ProviderKind) :
        parseProviderTranscript provider transcript sandboxChangedFiles = named provider s := by
      rcases parseProviderTranscript_cases (F := F) provider with h | h
      · rw [h, htrue, dropNone_eq_self hconcerns hblockers]
      · rw [h, hfalse]
    rw [hall, hall]
    exact .named s provider provider'

end

/-! ### A transcript that says none -/

instance unitDigits : FloatDigits Unit where
  digits _ := ['0', '.', '0']
  readFloat _ := some ()
  digits_injective := fun _ _ _ => rfl
  digits_chars := fun _ => List.all_eq_true.mp rfl
  digits_head := fun _ => ⟨'0', rfl, rfl⟩
  digits_mark := fun _ => ⟨'.', by simp, rfl, by decide⟩

instance unitCost : CostNumber Unit where
  parseCost _ := some ()
  ofInt _ := ()

/-- One parser makes a blocker of a line that says that there is none. -/
theorem not_parsersAgree_none : ¬ ∀ transcript files, ParsersAgree Unit transcript files := by
  intro h
  have hblockers := (h "Blocker: none" [] .codex .scripted).blockers
  exact absurd (congrArg List.length hblockers) (by decide)

end Provider

end Ao2
