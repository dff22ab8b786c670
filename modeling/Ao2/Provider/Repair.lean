import Ao2.Provider.Report
import Ao2.Run.Workflow

/-!
# The report of a repair

The prompt of a repair attempt has the log of the verifier in it, and that log has a line that says
`stdout:` and a later one that says `stderr:`. The transcript of the attempt is cut at these lines, so what
is read is the log of the verifier, whatever the provider has printed.

## Main results

* `runInSandbox_eq_of_quoted` — the summary of such a call does not depend on the child process
-/

namespace Ao2

/-- The call has a line that says `stdout:` and a later one, not the next, that says `stderr:`. -/
def Quoted (request : AdapterRunRequest) (workingDir : String) : Prop :=
  ∃ before after, (lines (request.commandLine workingDir).toList).tail = before ++ stdoutLine :: after ∧
    stderrLine ∈ after.tail

/-! ### The cut -/

theorem mem_tail_of_suffix {α : Type} {a : α} {l l' : List α} (h : a ∈ l.tail) (hsuffix : l <:+ l') :
    a ∈ l'.tail := by
  obtain ⟨before, rfl⟩ := hsuffix
  cases before with
  | nil => exact h
  | cons b before => exact List.mem_append_right before (List.mem_of_mem_tail h)

/-- **A text that has both lines** is cut there, and what is after them does not count. -/
theorem transcriptParseBody_of_lines {header before after : List (List Char)}
    (hfree : ∀ part ∈ header, '\n' ∉ part) (htail : header.tail = before ++ stdoutLine :: after)
    (hafter : stderrLine ∈ after.tail) :
    ∃ body, ∀ rest ≠ [],
      transcriptParseBody (.ofList (['\n'].intercalate (header ++ rest))) = body := by
  cases header with
  | nil => simp at htail
  | cons first header =>
    obtain rfl : header = before ++ stdoutLine :: after := htail
    obtain ⟨quoted, hsuffix, hsplit⟩ := exists_takeWhile_append (x := stdoutLine) before after
    have hmem := mem_tail_of_suffix hafter hsuffix
    cases quoted with
    | nil => cases hmem
    | cons second quoted =>
      obtain ⟨middle, last, rfl⟩ := List.append_of_mem (a := stderrLine) (l := quoted) hmem
      obtain ⟨dropped, -, hcut⟩ := exists_takeWhile_append (x := stderrLine) middle last
      rw [hcut] at hsplit
      rw [hsplit] at hfree
      refine ⟨.ofList (['\n'].intercalate (second :: middle.takeWhile (· ≠ stderrLine))),
        fun rest hrest => ?_⟩
      have hparts : first :: (before ++ stdoutLine :: after) ++ rest =
          (first :: before.takeWhile (· ≠ stdoutLine)) ++ stdoutLine ::
            ((second :: middle.takeWhile (· ≠ stderrLine)) ++ stderrLine :: (dropped ++ rest)) := by
        rw [hsplit]
        simp
      have hne : dropped ++ rest ≠ [] := List.append_ne_nil_of_right_ne_nil dropped hrest
      rw [hparts, transcriptParseBody, toList_markers.1, toList_markers.2, String.toList_ofList,
        splitOnce_intercalate (fun part hpart => hfree part ?_) stdoutLine_no_break
          (List.cons_ne_nil _ _) (by simp) (not_mem_takeWhile stdoutLine before)]
      · dsimp only
        rw [splitOnce_intercalate (fun part hpart => hfree part ?_) stderrLine_no_break
          (List.cons_ne_nil _ _) hne (not_mem_takeWhile stderrLine middle)]
        rcases List.mem_cons.mp hpart with rfl | hpart
        · simp
        · exact List.mem_cons_of_mem _ (List.mem_append_right _ (List.mem_cons_of_mem _
            (List.mem_cons_of_mem _ (List.mem_append_left _ hpart))))
      · rcases List.mem_cons.mp hpart with rfl | hpart
        · simp
        · exact List.mem_cons_of_mem first (List.mem_append_left _ hpart)

theorem redactLine_markers : redactLine stdoutLine = stdoutLine ∧ redactLine stderrLine = stderrLine := by
  have hstdout : lineContainsSensitiveMaterial (.ofList stdoutLine) = false := by decide
  have hstderr : lineContainsSensitiveMaterial (.ofList stderrLine) = false := by decide
  rw [redactLine, redactLine, hstdout, hstderr]
  exact ⟨rfl, rfl⟩

/-- Redaction leaves the lines that say `stdout:` and `stderr:` as they are. -/
theorem exists_tail_redactedParts {request : AdapterRunRequest} {workingDir : String}
    (h : Quoted request workingDir) :
    ∃ before after, (redactedParts (request.commandLine workingDir)).tail =
      before ++ stdoutLine :: after ∧ stderrLine ∈ after.tail := by
  obtain ⟨before, after, htail, hmem⟩ := h
  have hne : lines (request.commandLine workingDir).toList ≠ [] := by
    intro hnil
    rw [hnil] at htail
    simp at htail
  refine ⟨before.map redactLine, after.map redactLine, ?_, ?_⟩
  · rw [redactedParts, if_neg hne, ← List.map_tail, htail, List.map_append, List.map_cons,
      redactLine_markers.1]
  · rw [← List.map_tail]
    exact List.mem_map.mpr ⟨stderrLine, hmem, redactLine_markers.2⟩

section

variable {F : Type} [CostNumber F] [JsonText] {provider : ProviderKind} {request : AdapterRunRequest}
  {workingDir : String} {changedFiles : List String}

/-- **What the provider has printed does not count** where its call has both lines. -/
theorem runInSandbox_eq_of_quoted (h : Quoted request workingDir) (child child' : ChildOutcome) :
    (runInSandbox (F := F) provider request workingDir child changedFiles).2 =
      (runInSandbox provider request workingDir child' changedFiles).2 := by
  obtain ⟨before, after, htail, hmem⟩ := exists_tail_redactedParts h
  have hbody : ∃ body, ∀ child : ChildOutcome,
      transcriptParseBody (adapterRun provider request workingDir child).transcript = body := by
    -- the lines of the call are those of the header before the exit code
    obtain ⟨first, rest, hparts⟩ :=
      List.exists_cons_of_ne_nil (redactedParts_ne_nil (request.commandLine workingDir))
    rw [hparts, List.tail_cons] at htail
    have hcall (child : ChildOutcome) : headerParts provider request.roleId
        (request.commandLine workingDir) child.exitCode request.timeoutMs child.timedOut =
          (("provider: " ++ provider.debug).toList :: (labelled "role_id: "
            (request.roleId.toList.splitOn '\n') ++ labelled "command: " (first :: rest))) ++
            headerEnd child.exitCode request.timeoutMs child.timedOut := by
      rw [headerParts, hparts, List.cons_append, List.append_assoc]
    have hcommand : labelled "command: " (first :: rest) = ("command: ".toList ++ first) :: rest := by
      rw [labelled, List.modifyHead_cons]
    have hfree : ∀ part ∈ ("provider: " ++ provider.debug).toList :: (labelled "role_id: "
        (request.roleId.toList.splitOn '\n') ++ labelled "command: " (first :: rest)),
          '\n' ∉ part := by
      intro part hpart
      refine headerParts_no_break provider request.roleId (request.commandLine workingDir)
        child.exitCode request.timeoutMs child.timedOut ?_
      rw [hcall]
      exact List.mem_append_left _ hpart
    have hquoted : (("provider: " ++ provider.debug).toList :: (labelled "role_id: "
        (request.roleId.toList.splitOn '\n') ++ labelled "command: " (first :: rest))).tail =
          (labelled "role_id: " (request.roleId.toList.splitOn '\n') ++
            ("command: ".toList ++ first) :: before) ++ stdoutLine :: after := by
      rw [List.tail_cons, hcommand, htail, List.append_assoc, List.cons_append]
    obtain ⟨body, hbody⟩ := transcriptParseBody_of_lines hfree hquoted hmem
    refine ⟨body, fun child => ?_⟩
    rw [← hbody _ (List.append_ne_nil_of_right_ne_nil (headerEnd child.exitCode request.timeoutMs
      child.timedOut) (List.cons_ne_nil stdoutLine (redactedParts child.stdout ++ stderrLine ::
        redactedParts child.stderr))), ← List.append_assoc, ← hcall, ← toList_transcript,
      String.ofList_toList]
  obtain ⟨body, hbody⟩ := hbody
  rw [runInSandbox, runInSandbox]
  have hsame := (hbody child).trans (hbody child').symm
  generalize adapterRun provider request workingDir child = adapter at hsame ⊢
  generalize adapterRun provider request workingDir child' = adapter' at hsame ⊢
  cases provider <;>
    simp only [parseProviderTranscript, parseGenericTranscript, parseScriptedProviderTranscript,
      parseTranscript, hsame]

end

/-! ### Prompts of repairs -/

/-- A text has a `stdout:` line and a later `stderr:` line, with something around both. -/
def Marked (text : List Char) : Prop :=
  ∃ quoted, '\n' :: (stdoutLine ++ '\n' :: (quoted ++ '\n' :: (stderrLine ++ ['\n']))) <:+: text

theorem Marked.mono {text text' : List Char} (h : Marked text) (hinside : text <:+: text') :
    Marked text' := by
  obtain ⟨quoted, hquoted⟩ := h
  exact ⟨quoted, hquoted.trans hinside⟩

theorem getLast_lines : stdoutLine.getLast? ≠ some '\r' ∧ stderrLine.getLast? ≠ some '\r' := by
  decide

/-- The lines of a text with both lines in it. -/
theorem exists_tail_of_marked {text : List Char} (h : Marked text) :
    ∃ before after, (lines text).tail = before ++ stdoutLine :: after ∧ stderrLine ∈ after.tail := by
  have hline (line : List Char) (hfree : '\n' ∉ line) (hr : line.getLast? ≠ some '\r')
      (rest : List Char) : lines (line ++ '\n' :: rest) = line :: lines rest := by
    rw [← List.singleton_append, ← List.append_assoc, lines_append (.inr List.getLast?_concat),
      lines_of_break hfree hr, List.singleton_append]
  have hbreak (before rest : List Char) :
      lines (before ++ '\n' :: rest) = lines (before ++ ['\n']) ++ lines rest := by
    rw [← lines_append (.inr List.getLast?_concat), List.append_assoc, List.singleton_append]
  have hne (before : List Char) : lines (before ++ ['\n']) ≠ [] := by
    rw [lines, List.splitOn_append_cons_self, List.splitOn_nil, List.dropLast_concat]
    simp [List.splitOn_ne_nil]
  obtain ⟨quoted, before, after, rfl⟩ := h
  refine ⟨(lines (before ++ ['\n'])).tail, lines (quoted ++ ['\n']) ++ stderrLine :: lines after, ?_, ?_⟩
  · simp only [List.append_assoc, List.cons_append, List.nil_append]
    rw [hbreak before, hline stdoutLine stdoutLine_no_break getLast_lines.1, hbreak quoted,
      hline stderrLine stderrLine_no_break getLast_lines.2, List.tail_append_of_ne_nil (hne before)]
  · rw [List.tail_append_of_ne_nil (hne quoted)]
    simp

theorem marked_verifierLog (command : String) (out : CommandOutput) :
    Marked (verifierLog command out).toList := by
  unfold verifierLog
  refine ⟨out.stdout.toList, ("command: " ++ command ++ "\nexit_code: " ++
    toString (out.exitCode.getD (-1))).toList, (out.stderr ++ "\n").toList, ?_⟩
  simp only [String.toList_append, toList_markers.1, toList_markers.2, List.append_assoc, List.cons_append,
    List.nil_append]

/-! ### Quotes and white space -/

/-- A character in a quoted word of the shell. -/
def quoteShellChar (c : Char) : List Char := if c = '\'' then "'\"'\"'".toList else [c]

theorem intercalate_splitOn_flatMap {α : Type} [DecidableEq α] (b : α) (sep text : List α) :
    sep.intercalate (text.splitOn b) = text.flatMap fun a => if a = b then sep else [a] := by
  induction text with
  | nil => simp
  | cons a text ih =>
    obtain ⟨first, rest, hparts⟩ := List.exists_cons_of_ne_nil (List.splitOn_ne_nil b text)
    rw [List.flatMap_cons, ← ih, List.splitOn_cons_eq_if_modifyHead, hparts]
    by_cases ha : a = b
    · rw [if_pos (beq_iff_eq.mpr ha), if_pos ha, List.intercalate_cons_of_ne_nil (List.cons_ne_nil _ _),
        List.nil_append]
    · rw [if_neg (by simpa using ha), if_neg ha, List.modifyHead_cons]
      cases rest with
      | nil => simp
      | cons second rest =>
        rw [List.intercalate_cons_of_ne_nil (List.cons_ne_nil _ _),
          List.intercalate_cons_of_ne_nil (List.cons_ne_nil _ _)]
        simp

theorem toList_shellSingleQuote (value : String) :
    (shellSingleQuote value).toList = '\'' :: (value.toList.flatMap quoteShellChar ++ ['\'']) := by
  have hsplit : (value.toList.splitOn '\'' |>.map String.ofList).map String.toList =
      value.toList.splitOn '\'' := by
    rw [List.map_map]
    exact (List.map_congr_left fun _ _ => String.toList_ofList).trans (List.map_id _)
  unfold shellSingleQuote
  rw [String.toList_append, String.toList_append, String.toList_intercalate, hsplit,
    intercalate_splitOn_flatMap]
  rfl

/-- The lines are left as they are by the quotes of the shell. -/
theorem marked_flatMap {text : List Char} (h : Marked text) : Marked (text.flatMap quoteShellChar) := by
  obtain ⟨quoted, before, after, rfl⟩ := h
  have hstdout : stdoutLine.flatMap quoteShellChar = stdoutLine := by decide
  have hstderr : stderrLine.flatMap quoteShellChar = stderrLine := by decide
  have hbreak : quoteShellChar '\n' = ['\n'] := rfl
  refine ⟨quoted.flatMap quoteShellChar, before.flatMap quoteShellChar, after.flatMap quoteShellChar, ?_⟩
  simp only [List.flatMap_append, List.flatMap_cons, hstdout, hstderr, hbreak, List.append_assoc,
    List.cons_append, List.nil_append]

theorem infix_dropWhile {α : Type} {p : α → Bool} {part text : List α} (h : part <:+: text)
    (hhead : ∃ a ∈ part.head?, p a = false) : part <:+: text.dropWhile p := by
  obtain ⟨before, after, rfl⟩ := h
  induction before with
  | nil =>
    cases part with
    | nil => simp at hhead
    | cons a part =>
      obtain ⟨c, hc, ha⟩ := hhead
      obtain rfl : a = c := Option.some.inj hc
      rw [List.nil_append, List.cons_append, List.dropWhile_cons_of_neg (by simp [ha])]
      exact ⟨[], after, rfl⟩
  | cons b before ih =>
    rw [List.cons_append, List.cons_append, List.dropWhile_cons]
    split_ifs
    · exact ih
    · exact ⟨b :: before, after, rfl⟩

/-- A part that begins and ends with a character that is no white space is in the text without the
white space at its ends. -/
theorem infix_trim {part : List Char} {text : String} (h : part <:+: text.toList)
    (hhead : ∃ c ∈ part.head?, isWhitespace c = false)
    (hlast : ∃ c ∈ part.getLast?, isWhitespace c = false) : part <:+: (trim text).toList := by
  have hreversed := List.reverse_infix.mpr (infix_dropWhile h hhead)
  rw [trim, String.toList_ofList, ← List.reverse_infix, List.reverse_reverse]
  refine infix_dropWhile hreversed ?_
  rwa [List.head?_reverse]

/-! ### Repairs -/

/-- A part of a text has both lines, and begins and ends with a character that is no white space. -/
def HoldsLog (text : List Char) : Prop :=
  ∃ part, Marked part ∧ part <:+: text ∧ (∃ c ∈ part.head?, isWhitespace c = false) ∧
    ∃ c ∈ part.getLast?, isWhitespace c = false

theorem HoldsLog.mono {text text' : List Char} (h : HoldsLog text) (hinside : text <:+: text') :
    HoldsLog text' := by
  obtain ⟨part, hmarked, hpart, hends⟩ := h
  exact ⟨part, hmarked, hpart.trans hinside, hends⟩

theorem infix_append_left (text rest : String) : text.toList <:+: (text ++ rest).toList := by
  rw [String.toList_append]
  exact (List.prefix_append _ _).isInfix

theorem infix_append_right (rest text : String) : text.toList <:+: (rest ++ text).toList := by
  rw [String.toList_append]
  exact (List.suffix_append _ _).isInfix

theorem infix_intercalate (sep : String) {text : String} {texts : List String} (h : text ∈ texts) :
    text.toList <:+: (sep.intercalate texts).toList := by
  induction texts with
  | nil => cases h
  | cons first texts ih =>
    cases texts with
    | nil =>
      rw [List.mem_singleton.mp h, String.intercalate_singleton]
    | cons second texts =>
      rw [String.intercalate_cons_cons]
      rcases List.mem_cons.mp h with rfl | h
      · exact (infix_append_left text sep).trans (infix_append_left _ _)
      · exact (ih h).trans (infix_append_right _ _)

theorem holdsLog_scriptedRepair (originalPrompt : String) (attempt : ℕ) (command : String)
    (out : CommandOutput) (summaries : String) :
    HoldsLog (buildScriptedRepairPrompt originalPrompt attempt (verifierLog command out)
      summaries).toList := by
  have hquoted : HoldsLog (shellSingleQuote (verifierLog command out)).toList := by
    have hmarked := marked_flatMap (marked_verifierLog command out)
    rw [toList_shellSingleQuote]
    generalize (verifierLog command out).toList.flatMap quoteShellChar = quoted at hmarked ⊢
    refine ⟨'\'' :: (quoted ++ ['\'']), hmarked.mono ⟨['\''], ['\''], rfl⟩, List.infix_refl _,
      ⟨'\'', rfl, by decide⟩, '\'', ?_, by decide⟩
    rw [← List.cons_append]
    exact List.getLast?_concat
  refine hquoted.mono ?_
  unfold buildScriptedRepairPrompt
  -- what is put after the log
  iterate 7 refine List.IsInfix.trans ?_ (infix_append_left _ _)
  exact infix_append_right _ _

theorem infix_sandboxExecutionPrompt (order done task : String) :
    task.toList <:+: (sandboxExecutionPrompt order done task).toList := by
  unfold sandboxExecutionPrompt
  exact infix_append_right _ _

theorem infix_codexPrompt (prompt : String) :
    prompt.toList <:+: (codexSandboxExecutionPrompt prompt).toList :=
  ((infix_append_right "Task:\n" prompt).trans (infix_append_left _ _)).trans
    (infix_sandboxExecutionPrompt _ _ _)

theorem infix_claudePrompt (prompt : String) :
    prompt.toList <:+: (claudeSandboxExecutionPrompt prompt).toList :=
  ((infix_append_right "Shell script:\n```sh\n" prompt).trans (infix_append_left _ _)).trans
    (infix_sandboxExecutionPrompt _ _ _)

theorem infix_antigravityPrompt (prompt : String) :
    prompt.toList <:+: (antigravitySandboxExecutionPrompt prompt).toList :=
  ((infix_append_right "Task:\n" prompt).trans (infix_append_left _ _)).trans
    (infix_sandboxExecutionPrompt _ _ _)

/-- The prompt is in one of the arguments. -/
theorem exists_promptArg (provider : ProviderKind) (prompt : String) (maxBudgetUsd : Option String) :
    ∃ arg ∈ providerPromptArgs provider prompt maxBudgetUsd, prompt.toList <:+: arg.toList := by
  cases provider with
  | scripted => exact ⟨prompt, by simp [providerPromptArgs], List.infix_refl _⟩
  | codex => exact ⟨_, by simp [providerPromptArgs], infix_codexPrompt prompt⟩
  | claude => exact ⟨_, by simp [providerPromptArgs], infix_claudePrompt prompt⟩
  | antigravity => exact ⟨_, by simp [providerPromptArgs], infix_antigravityPrompt prompt⟩

/-- A call has the log that its prompt has. -/
theorem quoted_of_holdsLog {provider : ProviderKind} {prompt : String} (h : HoldsLog prompt.toList)
    (roleId : String) (timeoutMs : Option ℕ) (maxBudgetUsd : Option String) (workingDir : String) :
    Quoted (buildProviderPromptCommand provider prompt roleId timeoutMs maxBudgetUsd) workingDir := by
  obtain ⟨arg, hmem, hinside⟩ := exists_promptArg provider prompt maxBudgetUsd
  obtain ⟨part, hmarked, hpart, hhead, hlast⟩ := h.mono hinside
  have hbreak : '\n' ∈ arg.toList := by
    obtain ⟨quoted, hquoted⟩ := hmarked.mono hpart
    exact hquoted.subset (List.mem_cons_self ..)
  have hne : arg ≠ adapterWorkingDirPlaceholder := by
    rintro rfl
    exact absurd hbreak (by decide)
  have hexpanded : arg ∈ expandAdapterArgs (providerPromptArgs provider prompt maxBudgetUsd) workingDir :=
    List.mem_map.mpr ⟨arg, hmem, if_neg hne⟩
  have hcommand := infix_trim ((hpart.trans (infix_intercalate " " hexpanded)).trans
    (infix_append_right (provider.command ++ " ") _)) hhead hlast
  exact exists_tail_of_marked (hmarked.mono hcommand)

/-! ### A report that is not read -/

attribute [local instance] unpriced plainLines

/-- A child that prints nothing. -/
def silentChild : ChildOutcome where
  stdout := ""
  stderr := ""
  exitCode := some 0
  timedOut := false

/-- The prompt of a repair after the tests have failed. -/
def repairPrompt : String :=
  buildScriptedRepairPrompt "make test" 1
    (verifierLog "pytest" { success := false, stdout := "1 failed", stderr := "", exitCode := some 1 })
    "[]"

/-- A repair that reports a blocker is not told apart from one that reports none. -/
theorem not_ownReport_repair :
    ¬ ∀ (provider : ProviderKind) (request : AdapterRunRequest) (workingDir : String)
        (child : ChildOutcome) (changedFiles : List String),
      OwnReport child.stdout changedFiles
        (runInSandbox (F := Unit) provider request workingDir child changedFiles).2 := by
  intro h
  have hquoted : Quoted (scriptedRequest repairPrompt) "/tmp" :=
    quoted_of_holdsLog (holdsLog_scriptedRepair "make test" 1 "pytest" _ "[]") "implementer" none none
      "/tmp"
  have hblocked := (h .scripted (scriptedRequest repairPrompt) "/tmp" blockedChild []).blockers
  have hsilent := (h .scripted (scriptedRequest repairPrompt) "/tmp" silentChild []).blockers
  rw [runInSandbox_eq_of_quoted hquoted blockedChild silentChild, hsilent] at hblocked
  exact absurd hblocked (by decide)

end Ao2
