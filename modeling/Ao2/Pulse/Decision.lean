import Ao2.Pulse.EventLoop
import Mathlib.Data.List.TakeWhile

/-!
# The decision that is read

A text may hold several objects that call themselves decisions. The one that is read is the first with a
valid `event_loop`; the ones before it are passed over.

## Main results

* `decisionInLines_eq_ok` — which line a decision is read from
* `failsClosed_iff` — the first decision is read, or none, exactly if no invalid one is passed over
-/

namespace Ao2

/-! ### Values in a text -/

/-- The value is an object that calls itself a decision. -/
def isTagged (value : Json) : Bool :=
  match (value.get? "schema_version").bind Json.str? with
  | some schema => schema = codexCronDecisionSchema ∨ schema = ao2PulseDecisionSchema
  | none => false

/-- What a value says in its member `event_loop`. -/
def eventLoopOf (value : Json) : Option PulseEventLoopDecisionValue :=
  (value.get? "event_loop").bind decisionFields

/-- The lines that look like objects. -/
def objectLines (text : String) : List String :=
  ((text.toList.splitOn '\n').map fun line => trim (.ofList line)).filter fun line =>
    line.toList.head? = some '{'

section

variable [JsonText]

/-- The values in a text, in their order. -/
def candidates (text : String) : List Json :=
  (parseJson (trim text)).toList ++ (objectLines text).filterMap parseJson

/-- The line is no JSON, and it names one of the schemas. -/
def isMalformedDecision (line : String) : Bool :=
  parseJson line = none ∧
    (containsText line codexCronDecisionSchema || containsText line ao2PulseDecisionSchema) = true

/-- The lines up to the first malformed decision. -/
def reachedLines (text : String) : List String :=
  (objectLines text).takeWhile fun line => !isMalformedDecision line

/-- **The first decision is read, or none.** -/
structure FailsClosed (text : String) : Prop where
  first : ∀ d, parseEventLoopDecision text = .ok d →
    ∃ value, (candidates text).find? isTagged = some value ∧ eventLoopOf value = some d
  closed : ∀ value, (candidates text).find? isTagged = some value → eventLoopOf value = none →
    ∃ message, parseEventLoopDecision text = .error message

/-- No valid decision is reached after an invalid one. -/
def NoneSkipped (text : String) : Prop :=
  ∀ value, (candidates text).find? isTagged = some value → eventLoopOf value = none →
    ∀ line ∈ reachedLines text, ∀ later, parseJson line = some later → isTagged later = true →
      eventLoopOf later = none

/-! ### What is read -/

omit [JsonText] in
theorem decisionFromValue_eq_some {value : Json} {d : PulseEventLoopDecisionValue} :
    decisionFromValue value = some d ↔ isTagged value = true ∧ eventLoopOf value = some d := by
  rw [decisionFromValue, isTagged, eventLoopOf]
  cases (value.get? "schema_version").bind Json.str? with
  | none => simp
  | some schema =>
    by_cases hschema : schema = codexCronDecisionSchema ∨ schema = ao2PulseDecisionSchema
    · have hnot : ¬ (schema ≠ codexCronDecisionSchema ∧ schema ≠ ao2PulseDecisionSchema) := by
        rwa [← not_or, not_not]
      simp [hschema, hnot]
    · simp [not_or.mp hschema]

/-- **The line that a decision is read from**: the first with a valid one, with no malformed one before. -/
theorem decisionInLines_eq_ok {lines : List String} {d : PulseEventLoopDecisionValue} :
    decisionInLines lines = .ok d ↔ ∃ before line after value, lines = before ++ line :: after ∧
      (∀ l ∈ before, isMalformedDecision l = false ∧
        ∀ v, parseJson l = some v → decisionFromValue v = none) ∧
      parseJson line = some value ∧ decisionFromValue value = some d := by
  induction lines with
  | nil =>
    refine iff_of_false (fun h => nomatch h) ?_
    rintro ⟨before, line, after, value, h, -⟩
    cases before <;> cases h
  | cons line lines ih =>
    -- a line that nothing is read from
    have pass : isMalformedDecision line = false → (∀ v, parseJson line = some v → decisionFromValue v = none) →
        ((∃ before line' after value, lines = before ++ line' :: after ∧
          (∀ l ∈ before, isMalformedDecision l = false ∧
            ∀ v, parseJson l = some v → decisionFromValue v = none) ∧
          parseJson line' = some value ∧ decisionFromValue value = some d) ↔
        ∃ before line' after value, line :: lines = before ++ line' :: after ∧
          (∀ l ∈ before, isMalformedDecision l = false ∧
            ∀ v, parseJson l = some v → decisionFromValue v = none) ∧
          parseJson line' = some value ∧ decisionFromValue value = some d) := by
      intro hwell hnone
      constructor
      · rintro ⟨before, line', after, value, rfl, hbefore, hparse, hd⟩
        refine ⟨line :: before, line', after, value, rfl, fun l hl => ?_, hparse, hd⟩
        rcases List.mem_cons.mp hl with rfl | hl
        · exact ⟨hwell, hnone⟩
        · exact hbefore l hl
      · rintro ⟨before, line', after, value, heq, hbefore, hparse, hd⟩
        cases before with
        | nil =>
          obtain ⟨rfl, -⟩ := List.cons.inj heq
          cases (hnone value hparse).symm.trans hd
        | cons l before =>
          obtain ⟨-, rfl⟩ := List.cons.inj heq
          exact ⟨before, line', after, value, rfl, fun l' hl' => hbefore l' (List.mem_cons_of_mem _ hl'),
            hparse, hd⟩
    rw [decisionInLines]
    cases hparse : parseJson line with
    | none =>
      dsimp only
      cases hnames : containsText line codexCronDecisionSchema || containsText line ao2PulseDecisionSchema with
      | true =>
        refine iff_of_false (fun h => nomatch h) ?_
        rintro ⟨before, line', after, value, heq, hbefore, hvalue, -⟩
        cases before with
        | nil =>
          obtain ⟨rfl, -⟩ := List.cons.inj heq
          cases hparse.symm.trans hvalue
        | cons l before =>
          obtain ⟨rfl, -⟩ := List.cons.inj heq
          have hwell := (hbefore line List.mem_cons_self).1
          simp [isMalformedDecision, hparse, hnames] at hwell
      | false =>
        refine ih.trans (pass (by simp [isMalformedDecision, hnames]) fun v hv => ?_)
        cases hparse.symm.trans hv
    | some value =>
      dsimp only
      have hwell : isMalformedDecision line = false := by simp [isMalformedDecision, hparse]
      cases hd : decisionFromValue value with
      | some d' =>
        constructor
        · intro h
          obtain rfl := Except.ok.inj h
          exact ⟨[], line, lines, value, rfl, (fun _ hl => nomatch hl), hparse, hd⟩
        · rintro ⟨before, line', after, value', heq, hbefore, hparse', hd'⟩
          cases before with
          | nil =>
            obtain ⟨rfl, -⟩ := List.cons.inj heq
            obtain rfl := Option.some.inj (hparse.symm.trans hparse')
            exact congrArg _ (Option.some.inj (hd.symm.trans hd'))
          | cons l before =>
            obtain ⟨rfl, -⟩ := List.cons.inj heq
            cases hd.symm.trans ((hbefore line List.mem_cons_self).2 value hparse)
      | none =>
        refine ih.trans (pass hwell fun v hv => ?_)
        obtain rfl := Option.some.inj (hparse.symm.trans hv)
        exact hd

/-- What is read of a text: the whole of it, or else one of its lines. -/
theorem parseEventLoopDecision_eq_ok {text : String} {d : PulseEventLoopDecisionValue} :
    parseEventLoopDecision text = .ok d ↔
      (∃ value, parseJson (trim text) = some value ∧ decisionFromValue value = some d) ∨
      ((parseJson (trim text)).bind decisionFromValue = none ∧ decisionInLines (objectLines text) = .ok d) := by
  rw [parseEventLoopDecision]
  cases hwhole : (parseJson (trim text)).bind decisionFromValue with
  | some d' =>
    obtain ⟨value, hparse, hd⟩ := Option.bind_eq_some_iff.mp hwhole
    simp only [Except.ok.injEq, hparse, Option.some.injEq, exists_eq_left', hd, reduceCtorEq, false_and, or_false]
  | none =>
    have hnot : ¬ ∃ value, parseJson (trim text) = some value ∧ decisionFromValue value = some d := by
      rintro ⟨value, hparse, hd⟩
      rw [hparse, Option.bind_some, hd] at hwhole
      cases hwhole
    simp only [hnot, true_and, false_or]
    rfl

/-- A value on a line before the first malformed decision is reached. -/
theorem mem_reachedLines {text : String} {before after : List String} {line : String}
    (heq : objectLines text = before ++ line :: after) (hbefore : ∀ l ∈ before, isMalformedDecision l = false)
    (hline : isMalformedDecision line = false) : line ∈ reachedLines text := by
  rw [reachedLines, heq, List.takeWhile_append_of_pos fun l hl => by rw [hbefore l hl]; rfl,
    List.takeWhile_cons_of_pos (by rw [hline]; rfl)]
  exact List.mem_append_right _ List.mem_cons_self

/-- A line that is reached has only well-formed lines before it. -/
theorem exists_of_mem_reachedLines {text line : String} (h : line ∈ reachedLines text) :
    ∃ before after, objectLines text = before ++ line :: after ∧
      ∀ l ∈ before, isMalformedDecision l = false := by
  obtain ⟨before, after, heq⟩ := List.append_of_mem h
  refine ⟨before, after ++ (objectLines text).dropWhile fun line => !isMalformedDecision line, ?_, ?_⟩
  · rw [← List.cons_append, ← List.append_assoc, ← heq]
    exact (List.takeWhile_append_dropWhile).symm
  · intro l hl
    have hmem : l ∈ reachedLines text := heq ▸ List.mem_append_left _ hl
    simpa using List.mem_takeWhile_imp hmem

/-- Where a line with a valid decision is reached, a decision is read. -/
theorem exists_decisionInLines {lines : List String} {d : PulseEventLoopDecisionValue}
    {before after : List String} {line : String} {value : Json} (heq : lines = before ++ line :: after)
    (hbefore : ∀ l ∈ before, isMalformedDecision l = false) (hparse : parseJson line = some value)
    (hd : decisionFromValue value = some d) : ∃ d', decisionInLines lines = .ok d' := by
  induction before generalizing lines with
  | nil =>
    refine ⟨d, decisionInLines_eq_ok.mpr ⟨[], line, after, value, heq, (fun _ hl => nomatch hl), hparse, hd⟩⟩
  | cons l before ih =>
    obtain ⟨d', hd'⟩ := ih rfl fun l' hl' => hbefore l' (List.mem_cons_of_mem _ hl')
    rw [heq, List.cons_append, decisionInLines]
    cases hl : parseJson l with
    | none =>
      have hwell := hbefore l List.mem_cons_self
      simp only [isMalformedDecision, hl, true_and, decide_eq_false_iff_not] at hwell
      exact ⟨d', by rw [if_neg hwell]; exact hd'⟩
    | some v =>
      cases hv : decisionFromValue v with
      | some d'' => exact ⟨d'', by simp only [hv]⟩
      | none => exact ⟨d', by simp only [hv]; exact hd'⟩

/-- **The first decision is read, or none, if and only if no invalid one is passed over.** -/
theorem failsClosed_iff (text : String) : FailsClosed text ↔ NoneSkipped text := by
  constructor
  · intro h value hfirst hnone line hline later hparse htagged
    by_contra hvalid
    obtain ⟨d, hd⟩ := Option.ne_none_iff_exists'.mp hvalid
    obtain ⟨before, after, heq, hbefore⟩ := exists_of_mem_reachedLines hline
    obtain ⟨d', hd'⟩ := exists_decisionInLines heq hbefore hparse (decisionFromValue_eq_some.mpr ⟨htagged, hd⟩)
    obtain ⟨message, herror⟩ := h.closed value hfirst hnone
    have hok : ∃ d'', parseEventLoopDecision text = .ok d'' := by
      cases hwhole : (parseJson (trim text)).bind decisionFromValue with
      | some d'' => exact ⟨d'', parseEventLoopDecision_eq_ok.mpr (.inl (Option.bind_eq_some_iff.mp hwhole))⟩
      | none => exact ⟨d', parseEventLoopDecision_eq_ok.mpr (.inr ⟨hwhole, hd'⟩)⟩
    obtain ⟨d'', hd''⟩ := hok
    cases herror.symm.trans hd''
  · intro h
    have hfirst : ∀ d, parseEventLoopDecision text = .ok d →
        ∃ value, (candidates text).find? isTagged = some value ∧ eventLoopOf value = some d := by
      intro d hd
      rcases parseEventLoopDecision_eq_ok.mp hd with ⟨value, hparse, hvalue⟩ | ⟨hwhole, hlines⟩
      · obtain ⟨htagged, hevent⟩ := decisionFromValue_eq_some.mp hvalue
        refine ⟨value, ?_, hevent⟩
        rw [candidates, hparse]
        exact List.find?_cons_of_pos htagged
      · obtain ⟨before, line, after, value, heq, hbefore, hparse, hvalue⟩ := decisionInLines_eq_ok.mp hlines
        obtain ⟨htagged, hevent⟩ := decisionFromValue_eq_some.mp hvalue
        -- the whole text, and the values before, and from this line on
        have hsplit : candidates text = ((parseJson (trim text)).toList ++ before.filterMap parseJson) ++
            value :: after.filterMap parseJson := by
          rw [candidates, heq, List.filterMap_append, List.filterMap_cons_some hparse, List.append_assoc]
        cases hbeforeTagged : ((parseJson (trim text)).toList ++ before.filterMap parseJson).find? isTagged with
        | none =>
          refine ⟨value, ?_, hevent⟩
          rw [hsplit, List.find?_append, hbeforeTagged, List.find?_cons_of_pos htagged]
          rfl
        | some other =>
          have hother : (candidates text).find? isTagged = some other := by
            rw [hsplit, List.find?_append, hbeforeTagged]
            rfl
          have hnone : eventLoopOf other = none := by
            cases hevent' : eventLoopOf other with
            | none => rfl
            | some d' =>
              have hd' := decisionFromValue_eq_some.mpr ⟨List.find?_some hbeforeTagged, hevent'⟩
              rcases List.mem_append.mp (List.mem_of_find?_eq_some hbeforeTagged) with hmem | hmem
              · rw [Option.mem_toList.mp hmem, Option.bind_some, hd'] at hwhole
                cases hwhole
              · obtain ⟨l, hl, hparse'⟩ := List.mem_filterMap.mp hmem
                cases hd'.symm.trans ((hbefore l hl).2 other hparse')
          have hreached := mem_reachedLines heq (fun l hl => (hbefore l hl).1)
            (by simp [isMalformedDecision, hparse])
          cases (h other hother hnone line hreached value hparse htagged).symm.trans hevent
    refine ⟨hfirst, fun value hvalue hnone => ?_⟩
    cases hread : parseEventLoopDecision text with
    | error message => exact ⟨message, rfl⟩
    | ok d =>
      obtain ⟨value', hvalue', hevent⟩ := hfirst d hread
      obtain rfl := Option.some.inj (hvalue.symm.trans hvalue')
      cases hnone.symm.trans hevent

end

/-! ### A decision without an action -/

def taggedLine : String := "\x7b\"schema_version\":\"codex-cron.event-loop-decision.v1\"\x7d"

def continueLine : String :=
  "\x7b\"event_loop\":\x7b\"action\":\"continue\"\x7d,\"schema_version\":\"codex-cron.event-loop-decision.v1\"\x7d"

def taggedValue : Json := .obj [("schema_version", .str codexCronDecisionSchema)]

def continueValue : Json := .obj [("event_loop", .obj [("action", .str "continue")]),
  ("schema_version", .str codexCronDecisionSchema)]

@[reducible] def twoLinesJson : JsonText where
  parseJson text :=
    if text = taggedLine then some taggedValue else if text = continueLine then some continueValue else none

section

attribute [local instance] twoLinesJson

/-- An object that calls itself a decision and has no `event_loop`, and a decision after it. -/
def twoLines : String := taggedLine ++ "\n" ++ continueLine

theorem objectLines_twoLines : objectLines twoLines = [taggedLine, continueLine] := by
  decide +kernel

theorem parseJson_twoLines : parseJson (trim twoLines) = none := by decide +kernel

/-- **The decision of a later line is read** though an earlier object calls itself one. -/
theorem not_failsClosed_twoLines : ¬ FailsClosed twoLines := by
  intro h
  have hfirst : (candidates twoLines).find? isTagged = some taggedValue := by
    rw [candidates, parseJson_twoLines, objectLines_twoLines]
    decide
  obtain ⟨message, herror⟩ := h.closed taggedValue hfirst (by decide)
  have hread : parseEventLoopDecision twoLines = .ok ⟨.cont, none, none⟩ := by
    refine parseEventLoopDecision_eq_ok.mpr (.inr ⟨by rw [parseJson_twoLines]; rfl, ?_⟩)
    rw [objectLines_twoLines]
    decide
  cases herror.symm.trans hread

end

end Ao2
