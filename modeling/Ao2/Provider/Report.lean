import Ao2.Provider.Transcript

/-!
# The report of a provider

What is read from a transcript is what the provider has printed, as long as the transcript is cut where
its parts were put together. It is cut at the first line that says `stdout:`, and the role and the command
line, which has the prompt in it, stand before the output.
-/

namespace Ao2

/-! ### The property -/

/-- The text of a blocker that is not none. -/
def tellsBlocker (text : String) : Bool := text ≠ "" && !saysNone text

/-- The blocker on a line of the output. -/
def reportedBlocker (line : List Char) : Option String :=
  (valueAfterLabel (trim (.ofList line)) ["blocker"]).filter tellsBlocker

/-- The files that a line lists. -/
def listedFiles (line : String) : List String :=
  let lower := (toAsciiLowercase line).toList
  match valueAfterLabel line ["changed files", "changed_files", "files changed"] with
  | some value => splitFileList value
  | none =>
    if "modified:".toList <+: lower ∨ "added:".toList <+: lower ∨ "deleted:".toList <+: lower then
      ((splitOnce [':'] line.toList).bind fun parts => cleanFileToken (.ofList parts.2)).toList
    else []

/-- **The summary is that of the output**: each line with a blocker counts as one, in order, and every
blocker, concern and file is on a line of the output, if it is no file that changed. -/
structure OwnReport {F : Type} (stdout : String) (changedFiles : List String)
    (s : ProviderTranscriptSummary F) : Prop where
  blockers : (s.blockers.map (·.message)).filter tellsBlocker =
    (lines stdout.toList).filterMap reportedBlocker
  ownBlockers : ∀ b ∈ s.blockers, ∃ line ∈ lines stdout.toList,
    valueAfterLabel (trim (.ofList line)) ["blocker"] = some b.message
  ownConcerns : ∀ c ∈ s.concerns, ∃ line ∈ lines stdout.toList, ∃ value,
    valueAfterLabel (trim (.ofList line)) ["concern"] = some value ∧ c = parseConcern value
  ownFiles : ∀ f ∈ s.changedFiles, f ∈ changedFiles ∨
    ∃ line ∈ lines stdout.toList, f ∈ listedFiles (trim (.ofList line))

/-- The line before the output of a transcript. -/
def stdoutLine : List Char := "stdout:".toList

/-- The line after it. -/
def stderrLine : List Char := "stderr:".toList

/-- The markers that a transcript is cut at are these lines. -/
theorem toList_markers : "\nstdout:\n".toList = '\n' :: (stdoutLine ++ ['\n']) ∧
    "\nstderr:\n".toList = '\n' :: (stderrLine ++ ['\n']) := by decide

theorem stdoutLine_no_break : '\n' ∉ stdoutLine := by decide

theorem stderrLine_no_break : '\n' ∉ stderrLine := by decide

theorem redacted_ne_lines : "[redacted sensitive line]".toList ≠ stdoutLine ∧
    "[redacted sensitive line]".toList ≠ stderrLine := by decide

/-- No line of the call but the first of the role and the first of the command says `stdout:`. -/
structure PlainCall (request : AdapterRunRequest) (workingDir : String) : Prop where
  role : stdoutLine ∉ (request.roleId.toList.splitOn '\n').tail
  command : stdoutLine ∉ (lines (request.commandLine workingDir).toList).tail

/-- No line with a blocker looks as if it held a secret, or is after a line that says `stderr:`. -/
structure Reportable (stdout : String) : Prop where
  unredacted : ∀ line ∈ lines stdout.toList, reportedBlocker line ≠ none →
    lineContainsSensitiveMaterial (.ofList line) = false
  uncut : ∀ line ∈ (lines stdout.toList).tail.dropWhile (· ≠ stderrLine),
    reportedBlocker line = none

/-- No JSON text begins with a letter that a blocker begins with. -/
def RejectsBlockers [JsonText] : Prop :=
  ∀ line value, valueAfterLabel line ["blocker"] = some value → parseJson line = none

/-! ### Labels -/

theorem head_of_valueAfterLabel {line value : String} {labels : List String}
    (h : valueAfterLabel line labels = some value) (hne : "" ∉ labels) :
    ∃ label ∈ labels, label.toList.head? = (toAsciiLowercase line).toList.head? := by
  induction labels with
  | nil => cases h
  | cons label labels ih =>
    rw [valueAfterLabel] at h
    split_ifs at h with hlabel
    · refine ⟨label, List.mem_cons_self .., ?_⟩
      have hlabel' : label.toList <+: (toAsciiLowercase line).toList := by
        rcases hlabel with hcolon | hequals
        · rw [String.toList_append] at hcolon
          exact (List.prefix_append _ _).trans hcolon
        · rw [String.toList_append] at hequals
          exact (List.prefix_append _ _).trans hequals
      obtain ⟨rest, hrest⟩ := hlabel'
      have hnonempty : label.toList ≠ [] := by
        intro hnil
        exact hne (by rw [← String.toList_eq_nil_iff.mp hnil]; exact List.mem_cons_self ..)
      rw [← hrest, List.head?_append_of_ne_nil _ hnonempty]
    · obtain ⟨label', hmem, hhead⟩ := ih h fun hmem => hne (List.mem_cons_of_mem label hmem)
      exact ⟨label', List.mem_cons_of_mem label hmem, hhead⟩

/-- A line with a blocker begins with its label. -/
theorem head_of_blocker {line value : String} (h : valueAfterLabel line ["blocker"] = some value) :
    (toAsciiLowercase line).toList.head? = some 'b' := by
  obtain ⟨label, hmem, hhead⟩ := head_of_valueAfterLabel h (by decide)
  rw [List.mem_singleton.mp hmem] at hhead
  exact hhead.symm

theorem valueAfterLabel_of_blocker {line value : String} {labels : List String}
    (h : valueAfterLabel line ["blocker"] = some value)
    (hlabels : labels.all (fun label => label ≠ "" && label.toList.head? ≠ some 'b') = true) :
    valueAfterLabel line labels = none := by
  rw [List.all_eq_true] at hlabels
  refine Option.eq_none_iff_forall_ne_some.mpr fun other hother => ?_
  obtain ⟨label, hmem, hhead⟩ := head_of_valueAfterLabel hother fun hempty => by
    have := hlabels "" hempty
    simp at this
  have hlabel := hlabels label hmem
  rw [hhead, head_of_blocker h] at hlabel
  simp at hlabel

theorem not_prefix_of_blocker {line value : String} {text : List Char}
    (h : valueAfterLabel line ["blocker"] = some value) (htext : text.head?.any (· ≠ 'b') = true) :
    ¬ text <+: (toAsciiLowercase line).toList := by
  rintro ⟨rest, hrest⟩
  cases text with
  | nil => cases htext
  | cons c text =>
    have hhead := head_of_blocker h
    rw [← hrest] at hhead
    obtain rfl : c = 'b' := Option.some.inj hhead
    cases htext

/-! ### What a line adds -/

section

variable {F : Type} [CostNumber F] {skipsNone : Bool} {s : ProviderTranscriptSummary F} {line : String}

/-- The blocker that a line adds. -/
def blockerOf (skipsNone : Bool) (line : String) : Option AdapterBlocker :=
  (valueAfterLabel line ["blocker"]).bind fun value =>
    if skipsNone ∧ (saysNone value ∨ value = "") then none
    else some ⟨"provider_reported_blocker", value⟩

theorem blockers_parseLabelledLine :
    (parseLabelledLine skipsNone s line).blockers = s.blockers ++ (blockerOf skipsNone line).toList := by
  cases hblocker : valueAfterLabel line ["blocker"] with
  | some value =>
    have hmodified : ¬ ("modified:".toList <+: (toAsciiLowercase line).toList ∨
        "added:".toList <+: (toAsciiLowercase line).toList ∨
        "deleted:".toList <+: (toAsciiLowercase line).toList) := by
      rw [not_or, not_or]
      exact ⟨not_prefix_of_blocker hblocker (by decide), not_prefix_of_blocker hblocker (by decide),
        not_prefix_of_blocker hblocker (by decide)⟩
    rw [parseLabelledLine]
    dsimp only
    rw [valueAfterLabel_of_blocker hblocker (by decide), valueAfterLabel_of_blocker hblocker (by decide),
      valueAfterLabel_of_blocker hblocker (by decide), hblocker]
    dsimp only
    rw [if_neg hmodified, blockerOf, hblocker, Option.bind_some]
    split_ifs
    · exact (List.append_nil _).symm
    · rfl
  | none =>
    rw [blockerOf, hblocker, Option.bind_none, Option.toList_none, List.append_nil, parseLabelledLine]
    dsimp only
    rw [hblocker]
    dsimp only
    -- every other line leaves the blockers as they are
    repeat' split
    all_goals rfl

theorem concerns_parseLabelledLine {c : ProviderConcern}
    (h : c ∈ (parseLabelledLine skipsNone s line).concerns) :
    c ∈ s.concerns ∨ ∃ value, valueAfterLabel line ["concern"] = some value ∧ c = parseConcern value := by
  rw [parseLabelledLine] at h
  dsimp only at h
  by_cases hmem : c ∈ s.concerns
  · exact .inl hmem
  -- the only line that adds a concern has the label
  repeat' split at h
  all_goals first
    | exact absurd h hmem
    | skip
  rename_i value hvalue _
  rcases List.mem_append.mp h with h | h
  · exact absurd h hmem
  · exact .inr ⟨value, hvalue, List.mem_singleton.mp h⟩

theorem mem_insertFile {files : List String} {file f : String} :
    f ∈ insertFile files file ↔ f = file ∨ f ∈ files := by
  induction files with
  | nil => simp [insertFile]
  | cons first rest ih =>
    rw [insertFile]
    split_ifs with heq
    · simp [heq]
    · simp
    · rw [List.mem_cons, ih, List.mem_cons]
      tauto

theorem mem_foldl_insertFile {added files : List String} {f : String} :
    f ∈ added.foldl insertFile files ↔ f ∈ added ∨ f ∈ files := by
  induction added generalizing files with
  | nil => simp
  | cons file added ih =>
    rw [List.foldl_cons, ih, mem_insertFile, List.mem_cons]
    tauto

theorem changedFiles_parseLabelledLine {f : String}
    (h : f ∈ (parseLabelledLine skipsNone s line).changedFiles) :
    f ∈ s.changedFiles ∨ f ∈ listedFiles line := by
  rw [parseLabelledLine] at h
  dsimp only at h
  by_cases hmem : f ∈ s.changedFiles
  · exact .inl hmem
  -- the lines that add files have one of the labels
  repeat' split at h
  all_goals first
    | exact absurd h hmem
    | skip
  · rename_i value hvalue
    have hlisted : listedFiles line = splitFileList value := by
      rw [listedFiles]
      simp only [hvalue]
    rw [hlisted]
    exact .inr ((mem_foldl_insertFile.mp h).resolve_right hmem)
  · rename_i hnone hlabel _ file hfile
    have hlisted : listedFiles line = [file] := by
      rw [listedFiles]
      simp only [hnone, if_pos hlabel, hfile, Option.toList_some]
    rw [hlisted]
    exact .inr (List.mem_singleton.mpr ((mem_insertFile.mp h).resolve_right hmem))

theorem eq_of_mergeUsageMetadata {value : Json} {merged : ProviderTranscriptSummary F}
    (h : mergeUsageMetadata value s = some merged) :
    merged.blockers = s.blockers ∧ merged.concerns = s.concerns ∧
      merged.changedFiles = s.changedFiles := by
  rw [mergeUsageMetadata] at h
  split_ifs at h
  rw [← Option.some.inj h]
  exact ⟨rfl, rfl, rfl⟩

/-- A line that is a JSON text adds no blocker, concern or file before it is read as any other. -/
theorem parseTranscriptLine_cases [JsonText] (skipsNone : Bool) (s : ProviderTranscriptSummary F)
    (line : String) :
    ∃ s' : ProviderTranscriptSummary F, s'.blockers = s.blockers ∧ s'.concerns = s.concerns ∧
      s'.changedFiles = s.changedFiles ∧
      (parseTranscriptLine skipsNone s line = s' ∧ parseJson line ≠ none ∨
        parseTranscriptLine skipsNone s line = parseLabelledLine skipsNone s' line) := by
  rw [parseTranscriptLine]
  cases hparse : parseJson line with
  | none => exact ⟨s, rfl, rfl, rfl, .inr rfl⟩
  | some value =>
    dsimp only
    cases hmerge : mergeUsageMetadata value
        { s with transcriptIds := mergeTranscriptIds value s.transcriptIds } with
    | none => exact ⟨{ s with transcriptIds := mergeTranscriptIds value s.transcriptIds }, rfl, rfl, rfl,
        .inr rfl⟩
    | some merged =>
      obtain ⟨hblockers, hconcerns, hfiles⟩ := eq_of_mergeUsageMetadata hmerge
      exact ⟨merged, hblockers, hconcerns, hfiles, .inl ⟨rfl, Option.some_ne_none value⟩⟩

/-! ### What the lines of a report add -/

variable {lines : List String}

theorem blockers_foldl [JsonText] (hjson : RejectsBlockers) :
    (lines.foldl (parseTranscriptLine skipsNone) s).blockers =
      s.blockers ++ lines.filterMap (blockerOf skipsNone) := by
  induction lines generalizing s with
  | nil => exact (List.append_nil _).symm
  | cons line lines ih =>
    have hline : (parseTranscriptLine skipsNone s line).blockers =
        s.blockers ++ (blockerOf skipsNone line).toList := by
      obtain ⟨s', hblockers, -, -, ⟨heq, hjsonLine⟩ | heq⟩ :=
        parseTranscriptLine_cases skipsNone s line
      · have hnone : valueAfterLabel line ["blocker"] = none :=
          Option.eq_none_iff_forall_ne_some.mpr fun value hvalue =>
            hjsonLine (hjson line value hvalue)
        rw [heq, hblockers, blockerOf, hnone]
        exact (List.append_nil _).symm
      · rw [heq, blockers_parseLabelledLine, hblockers]
    rw [List.foldl_cons, ih, hline, List.append_assoc, List.filterMap_cons]
    cases blockerOf skipsNone line <;> rfl

theorem concerns_foldl [JsonText] {c : ProviderConcern}
    (h : c ∈ (lines.foldl (parseTranscriptLine skipsNone) s).concerns) :
    c ∈ s.concerns ∨ ∃ line ∈ lines, ∃ value,
      valueAfterLabel line ["concern"] = some value ∧ c = parseConcern value := by
  induction lines generalizing s with
  | nil => exact .inl h
  | cons line lines ih =>
    rcases ih h with hline | ⟨line', hmem, hvalue⟩
    · obtain ⟨s', -, hconcerns, -, ⟨heq, -⟩ | heq⟩ :=
        parseTranscriptLine_cases skipsNone s line
      · rw [heq, hconcerns] at hline
        exact .inl hline
      · rw [heq] at hline
        rw [← hconcerns]
        exact (concerns_parseLabelledLine hline).imp_right fun hvalue =>
          ⟨line, List.mem_cons_self .., hvalue⟩
    · exact .inr ⟨line', List.mem_cons_of_mem line hmem, hvalue⟩

theorem changedFiles_foldl [JsonText] {f : String}
    (h : f ∈ (lines.foldl (parseTranscriptLine skipsNone) s).changedFiles) :
    f ∈ s.changedFiles ∨ ∃ line ∈ lines, f ∈ listedFiles line := by
  induction lines generalizing s with
  | nil => exact .inl h
  | cons line lines ih =>
    rcases ih h with hline | ⟨line', hmem, hlisted⟩
    · obtain ⟨s', -, -, hfiles, ⟨heq, -⟩ | heq⟩ :=
        parseTranscriptLine_cases skipsNone s line
      · rw [heq, hfiles] at hline
        exact .inl hline
      · rw [heq] at hline
        rw [← hfiles]
        exact (changedFiles_parseLabelledLine hline).imp_right fun hlisted =>
          ⟨line, List.mem_cons_self .., hlisted⟩
    · exact .inr ⟨line', List.mem_cons_of_mem line hmem, hlisted⟩

end

/-! ### The body of a transcript -/

/-- The lines up to one that says `stderr:`, which the first line does not count as. -/
def cutReport : List (List Char) → List (List Char)
  | [] => []
  | first :: rest => first :: rest.takeWhile (· ≠ stderrLine)

/-- The lines of an output that are in its report. -/
def reportLines (stdout : String) : List (List Char) := cutReport ((lines stdout.toList).map redactLine)

/-- The lines of a redacted text; an empty text is one empty line. -/
def redactedParts (text : String) : List (List Char) :=
  if lines text.toList = [] then [[]] else (lines text.toList).map redactLine

theorem redactLine_no_break {line : List Char} (h : '\n' ∉ line) : '\n' ∉ redactLine line := by
  rw [redactLine]
  split_ifs
  · simp
  · exact h

theorem intercalate_redactedParts (text : String) :
    ['\n'].intercalate (redactedParts text) = (redactSensitiveText text).toList := by
  rw [redactedParts, redactSensitiveText, String.toList_ofList]
  split_ifs with hlines
  · rw [hlines]
    rfl
  · rfl

theorem redactedParts_no_break {text : String} {part : List Char} (h : part ∈ redactedParts text) :
    '\n' ∉ part := by
  rw [redactedParts] at h
  split_ifs at h
  · rw [List.mem_singleton.mp h]
    exact List.not_mem_nil
  · obtain ⟨line, hline, rfl⟩ := List.mem_map.mp h
    exact redactLine_no_break (not_mem_of_mem_lines hline)

theorem redactedParts_ne_nil (text : String) : redactedParts text ≠ [] := by
  rw [redactedParts]
  split_ifs with hlines
  · exact List.cons_ne_nil _ _
  · exact List.map_eq_nil_iff.not.mpr hlines

/-- The lines of a text whose first line has something before it. -/
def labelled (label : String) (parts : List (List Char)) : List (List Char) :=
  parts.modifyHead (label.toList ++ ·)

theorem intercalate_labelled (label : String) {parts : List (List Char)} (h : parts ≠ []) :
    ['\n'].intercalate (labelled label parts) = label.toList ++ ['\n'].intercalate parts := by
  obtain ⟨first, rest, rfl⟩ := List.exists_cons_of_ne_nil h
  rw [labelled, List.modifyHead_cons]
  cases rest with
  | nil => rw [List.intercalate_singleton, List.intercalate_singleton]
  | cons second rest =>
    rw [intercalate_cons (List.cons_ne_nil second rest), intercalate_cons (List.cons_ne_nil second rest),
      List.append_assoc]

theorem labelled_ne_nil (label : String) {parts : List (List Char)} (h : parts ≠ []) :
    labelled label parts ≠ [] := by
  obtain ⟨first, rest, rfl⟩ := List.exists_cons_of_ne_nil h
  exact List.cons_ne_nil _ _

theorem mem_labelled {label : String} {parts : List (List Char)} {part : List Char}
    (h : part ∈ labelled label parts) :
    (∃ first ∈ parts, part = label.toList ++ first) ∨ part ∈ parts.tail := by
  cases parts with
  | nil => cases h
  | cons first rest =>
    rcases List.mem_cons.mp h with rfl | h
    · exact .inl ⟨first, List.mem_cons_self .., rfl⟩
    · exact .inr h

section

variable (provider : ProviderKind) (roleId command : String) (exitCode : Option ℤ) (timeoutMs : Option ℕ)
  (timedOut : Bool)

/-- The lines of the end of a header. -/
def headerEnd : List (List Char) :=
  [("exit_code: " ++ debugOption exitCode).toList, ("timeout_ms: " ++ debugOption timeoutMs).toList,
    ("timed_out: " ++ if timedOut then "true" else "false").toList]

/-- The lines of a header. -/
def headerParts : List (List Char) :=
  ("provider: " ++ provider.debug).toList :: (labelled "role_id: " (roleId.toList.splitOn '\n') ++
    (labelled "command: " (redactedParts command) ++ headerEnd exitCode timeoutMs timedOut))

theorem toList_transcriptHeader :
    (transcriptHeader provider roleId command exitCode timeoutMs timedOut).toList =
      ("provider: " ++ provider.debug).toList ++ '\n' :: ("role_id: ".toList ++ (roleId.toList ++
        '\n' :: ("command: ".toList ++ (command.toList ++
          '\n' :: ['\n'].intercalate (headerEnd exitCode timeoutMs timedOut))))) := by
  have hend : ['\n'].intercalate (headerEnd exitCode timeoutMs timedOut) =
      ("exit_code: " ++ debugOption exitCode).toList ++ '\n' :: (("timeout_ms: " ++
        debugOption timeoutMs).toList ++ '\n' :: ("timed_out: " ++
          if timedOut then "true" else "false").toList) := by
    rw [headerEnd, intercalate_cons (List.cons_ne_nil _ _), intercalate_cons (List.cons_ne_nil _ _),
      List.intercalate_singleton]
  rw [hend]
  unfold transcriptHeader
  simp

theorem intercalate_headerParts :
    ['\n'].intercalate (headerParts provider roleId command exitCode timeoutMs timedOut) =
      (transcriptHeader provider roleId (redactSensitiveText command) exitCode timeoutMs
        timedOut).toList := by
  have hrole := labelled_ne_nil "role_id: " (List.splitOn_ne_nil '\n' roleId.toList)
  have hcommand := labelled_ne_nil "command: " (redactedParts_ne_nil command)
  have hend : headerEnd exitCode timeoutMs timedOut ≠ [] := List.cons_ne_nil _ _
  rw [toList_transcriptHeader, headerParts,
    intercalate_cons (List.append_ne_nil_of_left_ne_nil hrole _),
    intercalate_append hrole (List.append_ne_nil_of_left_ne_nil hcommand _),
    intercalate_append hcommand hend, intercalate_labelled _ (List.splitOn_ne_nil _ _),
    intercalate_labelled _ (redactedParts_ne_nil command), List.intercalate_splitOn,
    intercalate_redactedParts]
  simp only [List.append_assoc]

theorem debugOption_no_break {α : Type} [ToString α] (h : ∀ n : α, '\n' ∉ (toString n).toList)
    (o : Option α) : '\n' ∉ (debugOption o).toList := by
  cases o with
  | none => exact (by simp : '\n' ∉ "None".toList)
  | some n =>
    rw [debugOption, String.toList_append, String.toList_append, List.mem_append, List.mem_append]
    rintro ((hmem | hmem) | hmem)
    · exact absurd hmem (by simp)
    · exact h n hmem
    · exact absurd hmem (by simp)

theorem headerEnd_no_break {part : List Char} (h : part ∈ headerEnd exitCode timeoutMs timedOut) :
    '\n' ∉ part := by
  have hint (n : ℤ) : '\n' ∉ (toString n).toList := Json.compactText_no_break (.num n)
  rw [headerEnd, List.mem_cons, List.mem_cons, List.mem_singleton] at h
  rcases h with rfl | rfl | rfl
  · rw [String.toList_append, List.mem_append, not_or]
    exact ⟨by simp, debugOption_no_break hint exitCode⟩
  · rw [String.toList_append, List.mem_append, not_or]
    exact ⟨by simp, debugOption_no_break (fun n : ℕ => hint n) timeoutMs⟩
  · cases timedOut <;> simp

theorem headerParts_no_break {part : List Char}
    (h : part ∈ headerParts provider roleId command exitCode timeoutMs timedOut) : '\n' ∉ part := by
  have hlabelled {label : String} {parts : List (List Char)} (hlabel : '\n' ∉ label.toList)
      (hparts : ∀ p ∈ parts, '\n' ∉ p) (hmem : part ∈ labelled label parts) : '\n' ∉ part := by
    rcases mem_labelled hmem with ⟨first, hfirst, rfl⟩ | hmem
    · rw [List.mem_append, not_or]
      exact ⟨hlabel, hparts first hfirst⟩
    · exact hparts part (List.mem_of_mem_tail hmem)
  rw [headerParts, List.mem_cons, List.mem_append, List.mem_append] at h
  rcases h with rfl | h | h | h
  · cases provider <;> simp [ProviderKind.debug]
  · exact hlabelled (by simp) (fun p hp => not_mem_of_mem_splitOn hp) h
  · exact hlabelled (by simp) (fun p hp => redactedParts_no_break hp) h
  · exact headerEnd_no_break exitCode timeoutMs timedOut h

end

/-- A line that has something before it does not say `stdout:`. -/
theorem stdout_ne_append {label : String} (h : label.toList.head?.any (· ≠ 's') = true)
    (line : List Char) : stdoutLine ≠ label.toList ++ line := by
  intro heq
  have hhead := congrArg List.head? heq
  cases hlabel : label.toList with
  | nil => rw [hlabel] at h; cases h
  | cons c rest =>
    rw [hlabel] at h hhead
    obtain rfl : 's' = c := Option.some.inj hhead
    cases h

theorem stdout_not_mem_headerParts {provider : ProviderKind} {request : AdapterRunRequest}
    {workingDir : String} (hplain : PlainCall request workingDir) (exitCode : Option ℤ)
    (timedOut : Bool) :
    stdoutLine ∉ (headerParts provider request.roleId (request.commandLine workingDir) exitCode
      request.timeoutMs timedOut).tail := by
  rw [headerParts, List.tail_cons, List.mem_append, List.mem_append]
  rintro (h | h | h)
  · rcases mem_labelled h with ⟨first, -, heq⟩ | h
    · exact stdout_ne_append (by simp) first heq
    · exact hplain.role h
  · rcases mem_labelled h with ⟨first, -, heq⟩ | h
    · exact stdout_ne_append (by simp) first heq
    · rw [redactedParts] at h
      split_ifs at h
      · cases h
      · rw [← List.map_tail] at h
        obtain ⟨line, hline, heq⟩ := List.mem_map.mp h
        rw [redactLine] at heq
        split_ifs at heq
        · exact absurd heq redacted_ne_lines.1
        · rw [heq] at hline
          exact hplain.command hline
  · rw [headerEnd, List.mem_cons, List.mem_cons, List.mem_singleton, String.toList_append,
      String.toList_append, String.toList_append] at h
    rcases h with h | h | h
    · exact stdout_ne_append (by simp) _ h
    · exact stdout_ne_append (by simp) _ h
    · exact stdout_ne_append (by simp) _ h

/-- The lines of a transcript. -/
theorem toList_transcript (provider : ProviderKind) (request : AdapterRunRequest) (workingDir : String)
    (child : ChildOutcome) :
    (adapterRun provider request workingDir child).transcript.toList =
      ['\n'].intercalate (headerParts provider request.roleId (request.commandLine workingDir)
        child.exitCode request.timeoutMs child.timedOut ++ stdoutLine ::
          (redactedParts child.stdout ++ stderrLine :: redactedParts child.stderr)) := by
  have hout := redactedParts_ne_nil child.stdout
  have hheader : headerParts provider request.roleId (request.commandLine workingDir) child.exitCode
      request.timeoutMs child.timedOut ≠ [] := List.cons_ne_nil _ _
  rw [intercalate_append hheader (List.cons_ne_nil _ _), intercalate_headerParts,
    intercalate_cons (List.append_ne_nil_of_left_ne_nil hout _),
    intercalate_append hout (List.cons_ne_nil _ _), intercalate_cons (redactedParts_ne_nil child.stderr),
    intercalate_redactedParts, intercalate_redactedParts]
  unfold adapterRun stdoutLine stderrLine
  simp

/-- **The report is the output**, up to a line that says `stderr:`, if the call is plain. -/
theorem filledLines_transcriptParseBody (provider : ProviderKind) {request : AdapterRunRequest}
    {workingDir : String} (hplain : PlainCall request workingDir) (child : ChildOutcome) :
    filledLines (transcriptParseBody (adapterRun provider request workingDir child).transcript).toList =
      ((reportLines child.stdout).map fun line => trim (.ofList line)).filter (· ≠ "") := by
  obtain ⟨first, rest, hparts⟩ := List.exists_cons_of_ne_nil (redactedParts_ne_nil child.stdout)
  have hfree : ∀ part ∈ first :: rest, '\n' ∉ part := fun part hpart =>
    redactedParts_no_break (hparts ▸ hpart)
  -- the first line that says `stderr:` may be one of the output
  obtain ⟨after, hsuffix, hsplit⟩ := exists_takeWhile_append (x := stderrLine) rest
    (redactedParts child.stderr)
  have hafter : after ≠ [] := by
    rintro rfl
    exact redactedParts_ne_nil child.stderr (List.suffix_nil.mp hsuffix)
  have hcut : splitOnce ('\n' :: (stderrLine ++ ['\n']))
      (['\n'].intercalate (first :: rest ++ stderrLine :: redactedParts child.stderr)) =
        some (['\n'].intercalate (first :: rest.takeWhile (· ≠ stderrLine)),
          ['\n'].intercalate after) := by
    rw [List.cons_append, hsplit, ← List.cons_append]
    refine splitOnce_intercalate ?_ stderrLine_no_break (List.cons_ne_nil _ _) hafter
      (not_mem_takeWhile stderrLine rest)
    intro part hpart
    rcases List.mem_cons.mp hpart with rfl | hpart
    · exact hfree part (List.mem_cons_self ..)
    · exact hfree part (List.mem_cons_of_mem first ((List.takeWhile_sublist _).subset hpart))
  have hbody : transcriptParseBody (adapterRun provider request workingDir child).transcript =
      .ofList (['\n'].intercalate (first :: rest.takeWhile (· ≠ stderrLine))) := by
    rw [transcriptParseBody, toList_transcript, toList_markers.1, toList_markers.2,
      splitOnce_intercalate (fun part => headerParts_no_break _ _ _ _ _ _) stdoutLine_no_break
        (List.cons_ne_nil _ _) (by simp) (stdout_not_mem_headerParts hplain child.exitCode child.timedOut),
      hparts]
    dsimp only
    rw [hcut]
  have hreport : (first :: rest.takeWhile (· ≠ stderrLine)) = [[]] ∧ reportLines child.stdout = [] ∨
      reportLines child.stdout = first :: rest.takeWhile (· ≠ stderrLine) := by
    rw [redactedParts] at hparts
    rw [reportLines]
    split_ifs at hparts with hlines
    · obtain ⟨rfl, rfl⟩ := List.cons.inj hparts
      rw [hlines]
      exact .inl ⟨rfl, rfl⟩
    · rw [hparts]
      exact .inr rfl
  rw [hbody, String.toList_ofList, filledLines_intercalate]
  · rcases hreport with ⟨hempty, hnone⟩ | heq
    · rw [hempty, hnone]
      rfl
    · rw [heq]
  · intro part hpart
    rcases List.mem_cons.mp hpart with rfl | hpart
    · exact hfree part (List.mem_cons_self ..)
    · exact hfree part (List.mem_cons_of_mem first ((List.takeWhile_sublist _).subset hpart))

/-! ### The blockers of a report -/

section

variable {α β : Type} {f g : α → Option β}

theorem length_filterMap_le (hle : ∀ a, f a = none ∨ f a = g a) (l : List α) :
    (l.filterMap f).length ≤ (l.filterMap g).length := by
  induction l with
  | nil => exact Nat.le_refl 0
  | cons a l ih =>
    rw [List.filterMap_cons, List.filterMap_cons]
    rcases hle a with hnone | heq
    · rw [hnone]
      cases g a with
      | none => exact ih
      | some b => exact Nat.le_succ_of_le ih
    · rw [heq]
      cases g a with
      | none => exact ih
      | some b => exact Nat.succ_le_succ ih

/-- What is dropped from a list is missed in what is read of it. -/
theorem filterMap_eq_append_iff (hle : ∀ a, f a = none ∨ f a = g a) {l : List α} {rest : List β} :
    l.filterMap f = l.filterMap g ++ rest ↔ (∀ a ∈ l, f a = g a) ∧ rest = [] := by
  constructor
  · intro h
    induction l with
    | nil => exact ⟨List.forall_mem_nil _, h.symm⟩
    | cons a l ih =>
      rw [List.filterMap_cons, List.filterMap_cons] at h
      by_cases heq : f a = g a
      · rw [heq] at h
        have htail : l.filterMap f = l.filterMap g ++ rest := by
          cases hg : g a with
          | none => rw [hg] at h; exact h
          | some b => rw [hg] at h; exact (List.cons.inj h).2
        exact ⟨List.forall_mem_cons.mpr ⟨heq, (ih htail).1⟩, (ih htail).2⟩
      · rw [(hle a).resolve_right heq] at h
        cases hg : g a with
        | none => exact absurd (((hle a).resolve_right heq).trans hg.symm) heq
        | some b =>
          rw [hg] at h
          have hlength := congrArg List.length h
          have hshort := length_filterMap_le hle l
          simp only [List.length_append, List.length_cons] at hlength
          omega
  · rintro ⟨hall, rfl⟩
    rw [List.append_nil]
    exact List.filterMap_congr hall

end

theorem valueAfterLabel_redacted (label : String) (h : label ∈ ["blocker", "concern"]) :
    valueAfterLabel (trim (.ofList "[redacted sensitive line]".toList)) [label] = none := by
  rw [List.mem_cons, List.mem_singleton] at h
  rcases h with rfl | rfl <;> decide

theorem reportedBlocker_redactLine (line : List Char) :
    reportedBlocker (redactLine line) =
      if lineContainsSensitiveMaterial (.ofList line) then none else reportedBlocker line := by
  rw [redactLine]
  split_ifs
  · rw [reportedBlocker, valueAfterLabel_redacted "blocker" (by simp)]
    rfl
  · rfl

theorem redactLine_ne_stderr (line : List Char) :
    decide (redactLine line ≠ stderrLine) = decide (line ≠ stderrLine) := by
  have hplain : lineContainsSensitiveMaterial (.ofList stderrLine) = false := by decide
  rw [redactLine]
  split_ifs with hsensitive
  · have hne : line ≠ stderrLine := by
      rintro rfl
      rw [hplain] at hsensitive
      cases hsensitive
    rw [decide_eq_true hne, decide_eq_true redacted_ne_lines.2]
  · rfl

/-- The blocker on a line as it is after redaction. -/
def keptBlocker (line : List Char) : Option String := reportedBlocker (redactLine line)

theorem keptBlocker_le (line : List Char) :
    keptBlocker line = none ∨ keptBlocker line = reportedBlocker line := by
  rw [keptBlocker, reportedBlocker_redactLine]
  split_ifs
  · exact .inl rfl
  · exact .inr rfl

theorem keptBlocker_eq_iff {line : List Char} :
    keptBlocker line = reportedBlocker line ↔
      (reportedBlocker line ≠ none → lineContainsSensitiveMaterial (.ofList line) = false) := by
  rw [keptBlocker, reportedBlocker_redactLine]
  cases lineContainsSensitiveMaterial (.ofList line) with
  | false => simp
  | true => simp [eq_comm]

/-- **The blockers in a report** are those of the output if and only if it is reportable. -/
theorem filterMap_reportLines (stdout : String) :
    (reportLines stdout).filterMap reportedBlocker = (lines stdout.toList).filterMap reportedBlocker ↔
      Reportable stdout := by
  rw [reportLines]
  generalize hlines : lines stdout.toList = ls
  cases ls with
  | nil =>
    refine iff_of_true rfl ⟨?_, ?_⟩
    · rw [hlines]
      exact List.forall_mem_nil _
    · rw [hlines]
      exact List.forall_mem_nil _
  | cons first rest =>
    have hcut : cutReport ((first :: rest).map redactLine) =
        (first :: rest.takeWhile (· ≠ stderrLine)).map redactLine := by
      have hcomp : (fun line => decide (line ≠ stderrLine)) ∘ redactLine =
          fun line => decide (line ≠ stderrLine) := by
        funext line
        rw [Function.comp_apply]
        exact redactLine_ne_stderr line
      rw [List.map_cons, cutReport, List.takeWhile_map, List.map_cons, hcomp]
    have hkept (ls : List (List Char)) : (ls.map redactLine).filterMap reportedBlocker =
        ls.filterMap keptBlocker := by
      rw [List.filterMap_map]
      exact List.filterMap_congr fun line _ => by rw [Function.comp_apply, keptBlocker]
    have hsplit : (first :: rest).filterMap reportedBlocker =
        (first :: rest.takeWhile (· ≠ stderrLine)).filterMap reportedBlocker ++
          (rest.dropWhile (· ≠ stderrLine)).filterMap reportedBlocker := by
      rw [← List.filterMap_append, List.cons_append, List.takeWhile_append_dropWhile]
    rw [hcut, hkept, hsplit, filterMap_eq_append_iff keptBlocker_le, List.filterMap_eq_nil_iff]
    simp only [keptBlocker_eq_iff]
    constructor
    · rintro ⟨hfirst, hlast⟩
      refine ⟨fun line hline htells => ?_, ?_⟩
      · rw [hlines, ← List.takeWhile_append_dropWhile (p := (· ≠ stderrLine)) (l := rest),
          ← List.cons_append] at hline
        rcases List.mem_append.mp hline with hline | hline
        · exact hfirst line hline htells
        · exact absurd (hlast line hline) htells
      · rw [hlines]
        exact hlast
    · rintro ⟨hunredacted, huncut⟩
      rw [hlines] at hunredacted huncut
      refine ⟨fun line hline => hunredacted line ?_, huncut⟩
      rcases List.mem_cons.mp hline with rfl | hline
      · exact List.mem_cons_self ..
      · exact List.mem_cons_of_mem first ((List.takeWhile_sublist _).subset hline)

/-! ### The summary of a run -/

theorem valueAfterLabel_empty (label : String) : valueAfterLabel "" [label] = none := by
  have hnot (mark : String) (hmark : mark ≠ "") :
      ¬ (label ++ mark).toList <+: (toAsciiLowercase "").toList := by
    intro hpre
    have hnil : label.toList ++ mark.toList = [] := by
      rw [← String.toList_append]
      exact List.prefix_nil.mp hpre
    exact hmark (String.toList_eq_nil_iff.mp (List.append_eq_nil_iff.mp hnil).2)
  rw [valueAfterLabel, if_neg (not_or.mpr ⟨hnot ":" (by decide), hnot "=" (by decide)⟩), valueAfterLabel]

/-- The blockers that lines add are those that they report, but for those that say none. -/
theorem filterMap_blockerOf (skipsNone : Bool) (ls : List (List Char)) :
    ((((ls.map fun line => trim (.ofList line)).filter (· ≠ "")).filterMap
      (blockerOf skipsNone)).map (·.message)).filter tellsBlocker = ls.filterMap reportedBlocker := by
  induction ls with
  | nil => rfl
  | cons line ls ih =>
    rw [List.map_cons, List.filterMap_cons, reportedBlocker]
    by_cases hempty : trim (.ofList line) = ""
    · rw [List.filter_cons_of_neg (by simpa using hempty), hempty, valueAfterLabel_empty, ih]
      rfl
    · rw [List.filter_cons_of_pos (by simpa using hempty), List.filterMap_cons, blockerOf]
      cases hvalue : valueAfterLabel (trim (.ofList line)) ["blocker"] with
      | none => exact ih
      | some value =>
        rw [Option.bind_some]
        by_cases htells : tellsBlocker value = true
        · have hskips : ¬ (skipsNone = true ∧ (saysNone value = true ∨ value = "")) := by
            simp [tellsBlocker] at htells
            simp [htells]
          rw [if_neg hskips, Option.filter_some_pos htells]
          dsimp only
          rw [List.map_cons, List.filter_cons_of_pos htells, ih]
        · rw [Option.filter_some_neg (by simpa using htells)]
          dsimp only
          split_ifs
          · exact ih
          · dsimp only
            rw [List.map_cons, List.filter_cons_of_neg htells, ih]

/-- The lines that the report of a plain call is read from. -/
def reportTexts (stdout : String) : List String :=
  ((reportLines stdout).map fun line => trim (.ofList line)).filter (· ≠ "")

/-- A line of a report is a line of the output, unless it is redacted. -/
theorem exists_line_of_reportTexts {stdout text : String} (h : text ∈ reportTexts stdout) :
    text = trim (.ofList "[redacted sensitive line]".toList) ∨
      ∃ line ∈ lines stdout.toList, text = trim (.ofList line) := by
  obtain ⟨hmap, -⟩ := List.mem_filter.mp h
  obtain ⟨part, hpart, rfl⟩ := List.mem_map.mp hmap
  have hmem : part ∈ (lines stdout.toList).map redactLine := by
    rw [reportLines] at hpart
    generalize (lines stdout.toList).map redactLine = parts at hpart
    cases parts with
    | nil => exact hpart
    | cons first rest =>
      rcases List.mem_cons.mp hpart with rfl | hpart
      · exact List.mem_cons_self ..
      · exact List.mem_cons_of_mem first ((List.takeWhile_sublist _).subset hpart)
  obtain ⟨line, hline, rfl⟩ := List.mem_map.mp hmem
  rw [redactLine]
  split_ifs
  · exact .inl rfl
  · exact .inr ⟨line, hline, rfl⟩

theorem listedFiles_redacted :
    listedFiles (trim (.ofList "[redacted sensitive line]".toList)) = [] := by decide

def ProviderKind.skipsNone : ProviderKind → Bool
  | codex | claude => false
  | antigravity | scripted => true

section

variable {F : Type} [CostNumber F] [JsonText] {provider : ProviderKind} {request : AdapterRunRequest}
  {workingDir : String} {child : ChildOutcome} {changedFiles : List String}

theorem runInSandbox_eq (hplain : PlainCall request workingDir) :
    (runInSandbox (F := F) provider request workingDir child changedFiles).2 =
      (reportTexts child.stdout).foldl (parseTranscriptLine provider.skipsNone)
        (initialSummary provider changedFiles) := by
  have hparse : (runInSandbox (F := F) provider request workingDir child changedFiles).2 =
      parseTranscript provider.skipsNone provider
        (adapterRun provider request workingDir child).transcript changedFiles := by
    rw [runInSandbox]
    dsimp only
    generalize adapterRun provider request workingDir child = adapter
    cases provider <;>
      simp only [parseProviderTranscript, parseGenericTranscript, parseScriptedProviderTranscript,
        ProviderKind.skipsNone]
  rw [hparse, parseTranscript, reportTexts, ← filledLines_transcriptParseBody provider hplain child]

/-- **The summary of a run is the report of its output** if and only if the output is reportable,
wherever the call is plain. -/
theorem ownReport_iff_reportable (hplain : PlainCall request workingDir) (hjson : RejectsBlockers) :
    OwnReport child.stdout changedFiles
        (runInSandbox (F := F) provider request workingDir child changedFiles).2 ↔
      Reportable child.stdout := by
  have hblockers : ((reportTexts child.stdout).foldl (parseTranscriptLine provider.skipsNone)
      (initialSummary (F := F) provider changedFiles)).blockers =
        (reportTexts child.stdout).filterMap (blockerOf provider.skipsNone) := blockers_foldl hjson
  have hall : (((runInSandbox (F := F) provider request workingDir child changedFiles).2.blockers.map
      (·.message)).filter tellsBlocker) = (reportLines child.stdout).filterMap reportedBlocker := by
    rw [runInSandbox_eq hplain, hblockers]
    exact filterMap_blockerOf provider.skipsNone (reportLines child.stdout)
  rw [← filterMap_reportLines]
  refine ⟨fun h => hall.symm.trans h.blockers, fun h => ⟨hall.trans h, ?_, ?_, ?_⟩⟩
  · intro b hb
    rw [runInSandbox_eq hplain, hblockers] at hb
    obtain ⟨text, htext, hblocker⟩ := List.mem_filterMap.mp hb
    obtain ⟨value, hvalue, hmade⟩ := Option.bind_eq_some_iff.mp hblocker
    split_ifs at hmade
    obtain rfl := Option.some.inj hmade
    rcases exists_line_of_reportTexts htext with rfl | ⟨line, hline, rfl⟩
    · rw [valueAfterLabel_redacted "blocker" (by simp)] at hvalue
      cases hvalue
    · exact ⟨line, hline, hvalue⟩
  · intro c hc
    rw [runInSandbox_eq hplain] at hc
    rcases concerns_foldl hc with hc | ⟨text, htext, value, hvalue, rfl⟩
    · cases hc
    · rcases exists_line_of_reportTexts htext with rfl | ⟨line, hline, rfl⟩
      · rw [valueAfterLabel_redacted "concern" (by simp)] at hvalue
        cases hvalue
      · exact ⟨line, hline, value, hvalue, rfl⟩
  · intro f hf
    rw [runInSandbox_eq hplain] at hf
    rcases changedFiles_foldl hf with hf | ⟨text, htext, hlisted⟩
    · exact .inl ((mem_foldl_insertFile.mp hf).resolve_right List.not_mem_nil)
    · rcases exists_line_of_reportTexts htext with rfl | ⟨line, hline, rfl⟩
      · rw [listedFiles_redacted] at hlisted
        cases hlisted
      · exact .inr ⟨line, hline, hlisted⟩

end

/-! ### A report that is read -/

/-- Costs are not told apart. -/
@[reducible] def unpriced : CostNumber Unit where
  parseCost _ := some ()
  ofInt _ := ()

/-- No line is a JSON text. -/
@[reducible] def plainLines : JsonText where
  parseJson _ := none

attribute [local instance] unpriced plainLines

def scriptedRequest (prompt : String) : AdapterRunRequest :=
  buildProviderPromptCommand .scripted prompt "implementer" none none

/-- A child that reports a blocker. -/
def blockedChild : ChildOutcome where
  stdout := "Summary: tried\nBlocker: tests need a network\n"
  stderr := "Blocker: of no concern\n"
  exitCode := some 0
  timedOut := false

theorem ownReport_of_scripted :
    OwnReport blockedChild.stdout ["src/lib.rs"]
        (runInSandbox (F := Unit) .scripted (scriptedRequest "make test") "/tmp" blockedChild
          ["src/lib.rs"]).2 ↔
      Reportable blockedChild.stdout :=
  ownReport_iff_reportable ⟨by decide, by decide⟩ fun _ _ _ => rfl

end Ao2
