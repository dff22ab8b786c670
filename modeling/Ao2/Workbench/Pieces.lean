import Ao2.Workbench.Serving

/-!
# Requests that arrive in pieces

The server reads once from a connection. What it handles is the first piece that arrives, and of that at
most 8192 bytes; the length that the head declares for the body is not read.

## Main results

* `requestBody_eq_iff` — when the body that is read is the one that is declared
* `not_delivered_cutForm` — a form that is cut is acted on
-/

namespace Ao2

open Interaction

namespace Workbench

/-! ### Requests and their delivery -/

def lineBreakBytes : Octets := [13, 10]

/-- The digits of a number. -/
def decimal (text : Text) : Option ℕ :=
  if text ≠ [] ∧ text.all Char.isDigit then
    some (text.foldl (fun n c => n * 10 + (c.toNat - '0'.toNat)) 0)
  else none

/-- The length that a line of a head declares. -/
def contentLength (line : Octets) : Option ℕ :=
  match splitOnce [':'] (fromUtf8Lossy line) with
  | some (name, value) =>
    if name.map Char.toLower = "content-length".toList then decimal (trimEnd (trimStart value))
    else none
  | none => none

/-- A request with a body of the length that its head declares. -/
structure HttpRequest where
  requestLine : Octets
  headers : List Octets
  body : Octets
  unbroken : ∀ line ∈ requestLine :: headers, 13 ∉ line ∧ 10 ∉ line
  filled : ∀ line ∈ headers, line ≠ []
  declared : body ≠ [] → ∃ line ∈ headers, contentLength line = some body.length

namespace HttpRequest

/-- The head without the line break that ends it. -/
def headLines (r : HttpRequest) : Octets := (r.requestLine :: r.headers).flatMap (· ++ lineBreakBytes)

def bytes (r : HttpRequest) : Octets := r.headLines ++ (lineBreakBytes ++ r.body)

end HttpRequest

/-- The pieces in which a request arrives. -/
structure Delivery (r : HttpRequest) where
  pieces : List Octets
  filled : ∀ piece ∈ pieces, piece ≠ []
  whole : pieces.flatten = r.bytes

/-- At once. -/
def HttpRequest.atOnce (r : HttpRequest) : Delivery r where
  pieces := [r.bytes]
  filled := by simp [HttpRequest.bytes, lineBreakBytes]
  whole := by simp

/-- A read returns what has arrived, as far as there is room for it. -/
def readPieces (limit : ℕ) (pieces : List Octets) : Octets := (pieces.headD []).take limit

section

variable {r : HttpRequest}

/-- The text that is handled. -/
def Delivery.text (d : Delivery r) : Text := fromUtf8Lossy (readPieces 8192 d.pieces)

/-- What is done with a request that arrives in pieces. -/
def handled (server : Server) (d : Delivery r) : Prog signature Failure Response :=
  handleWorkbenchRequest server d.text

/-- The text of the body that a handler acts on. -/
def ActsOn (server : Server) (request body : Text) : Prop :=
  ∃ route query arguments k, routeOf request = some (route, query) ∧ route.input.readsForm ∧
    handleWorkbenchRequest server request = .ask (.call route.handler arguments) k ∧
    body = requestBody request

/-- The pieces make no difference, and no part of the body is missing. -/
inductive Delivered (server : Server) (d : Delivery r) : Prop where
  /-- There is no route either way. -/
  | nowhere (h : routeOf d.text = none) (h' : routeOf r.atOnce.text = none)
  /-- The request does not get to a handler either way, for the same reason. -/
  | stopped {route route' : Route} {query query' : Text} {reason : Except Failure Response}
      (h : routeOf d.text = some (route, query)) (h' : routeOf r.atOnce.text = some (route', query'))
      (hstop : route.prepare server query d.text = .error reason)
      (hstop' : route'.prepare server query' r.atOnce.text = .error reason)
  /-- The handler is called with the same arguments, and if they come from the body, the request is
  there as a whole. -/
  | called {route : Route} {query query' : Text} {arguments : Arguments}
      (h : routeOf d.text = some (route, query)) (h' : routeOf r.atOnce.text = some (route, query'))
      (hcall : route.prepare server query d.text = .ok arguments)
      (hcall' : route.prepare server query' r.atOnce.text = .ok arguments)
      (hbody : route.input.readsForm →
        (r.body = [] ∨ d.text = fromUtf8Lossy r.bytes) ∧
          ¬ lineBreakBytes ++ lineBreakBytes <:+: r.body)

/-! ### The body -/

theorem fromUtf8Lossy_lineBreak (before after : Octets) :
    fromUtf8Lossy (before ++ (lineBreakBytes ++ after)) =
      fromUtf8Lossy before ++ '\r' :: '\n' :: fromUtf8Lossy after := by
  have hr : (13 : UInt8).toNat < 0x80 := by decide
  have hn : (10 : UInt8).toNat < 0x80 := by decide
  have hafter := fromUtf8Lossy_append [] after hn
  rw [List.nil_append] at hafter
  rw [lineBreakBytes, List.cons_append, List.singleton_append, fromUtf8Lossy_append _ _ hr, hafter]
  rfl

theorem fromUtf8Lossy_blankLine (before after : Octets) :
    fromUtf8Lossy (before ++ (lineBreakBytes ++ (lineBreakBytes ++ after))) =
      fromUtf8Lossy before ++ (blankLine ++ fromUtf8Lossy after) := by
  have hafter := fromUtf8Lossy_lineBreak [] after
  rw [List.nil_append] at hafter
  rw [fromUtf8Lossy_lineBreak, hafter]
  rfl

/-- A line break in the text is one in the bytes. -/
theorem eq_of_fromUtf8Lossy_lineBreak {bytes : Octets} {before after : Text}
    (h : fromUtf8Lossy bytes = before ++ '\r' :: '\n' :: after) :
    ∃ x y, bytes = x ++ (lineBreakBytes ++ y) ∧ fromUtf8Lossy x = before ∧ fromUtf8Lossy y = after := by
  obtain ⟨x, rest, b, rfl, hb, hx, hrest⟩ := fromUtf8Lossy_eq_append (by decide) h
  obtain ⟨x', y, b', rfl, hb', hx', hy⟩ :=
    fromUtf8Lossy_eq_append (c := '\n') (by decide) (hrest.trans (List.nil_append _).symm)
  have hnil := fromUtf8Lossy_eq_nil hx'
  have hr : b = 13 := UInt8.toNat_inj.mp hb
  have hn : b' = 10 := UInt8.toNat_inj.mp hb'
  subst hnil hr hn
  exact ⟨x, y, rfl, hx, hy⟩

theorem eq_of_fromUtf8Lossy_blankLine {bytes : Octets} {before after : Text}
    (h : fromUtf8Lossy bytes = before ++ (blankLine ++ after)) :
    ∃ x y, bytes = x ++ (lineBreakBytes ++ (lineBreakBytes ++ y)) ∧ fromUtf8Lossy x = before ∧
      fromUtf8Lossy y = after := by
  obtain ⟨x, rest, rfl, hx, hrest⟩ := eq_of_fromUtf8Lossy_lineBreak h
  obtain ⟨x', y, rfl, hx', hy⟩ := eq_of_fromUtf8Lossy_lineBreak (hrest.trans (List.nil_append _).symm)
  have hnil := fromUtf8Lossy_eq_nil hx'
  subst hnil
  exact ⟨x, y, rfl, hx, hy⟩

theorem infix_blankLine_iff (bytes : Octets) :
    blankLine <:+: fromUtf8Lossy bytes ↔ lineBreakBytes ++ lineBreakBytes <:+: bytes := by
  constructor
  · rintro ⟨before, after, h⟩
    rw [List.append_assoc] at h
    obtain ⟨x, y, rfl, -, -⟩ := eq_of_fromUtf8Lossy_blankLine h.symm
    exact ⟨x, y, by simp only [List.append_assoc]⟩
  · rintro ⟨x, y, rfl⟩
    refine ⟨fromUtf8Lossy x, fromUtf8Lossy y, ?_⟩
    rw [List.append_assoc, ← fromUtf8Lossy_blankLine]
    simp only [List.append_assoc]

theorem carriageReturn_not_mem {line : Octets} (h : 13 ∉ line) : '\r' ∉ fromUtf8Lossy line := by
  intro hmem
  obtain ⟨before, after, hline⟩ := List.append_of_mem hmem
  obtain ⟨x, y, b, rfl, hb, -, -⟩ := fromUtf8Lossy_eq_append (by decide) hline
  have hr : b = 13 := UInt8.toNat_inj.mp hb
  subst hr
  simp at h

theorem splitOnce_blankLine_break {text : Text} (h : text.head? ≠ some '\r') :
    splitOnce blankLine ('\r' :: '\n' :: text) =
      (splitOnce blankLine text).map fun parts => ('\r' :: '\n' :: parts.1, parts.2) := by
  have hnot : ¬ blankLine <+: '\r' :: '\n' :: text := by
    rintro ⟨rest, hrest⟩
    rw [← (List.cons.inj (List.cons.inj hrest).2).2] at h
    exact h rfl
  have hstep : splitOnce blankLine (['\n'] ++ text) =
      (splitOnce blankLine text).map fun parts => (['\n'] ++ parts.1, parts.2) :=
    splitOnce_append (by decide)
  rw [splitOnce, if_neg hnot, ← List.singleton_append, hstep, Option.map_map]
  rfl

/-- The head ends at the first blank line. -/
theorem splitOnce_head (y : Octets) {line : Octets} {headers : List Octets} (hline : 13 ∉ line)
    (hheaders : ∀ l ∈ headers, 13 ∉ l ∧ l ≠ []) :
    ∃ before, splitOnce blankLine
      (fromUtf8Lossy ((line :: headers).flatMap (· ++ lineBreakBytes) ++ (lineBreakBytes ++ y))) =
        some (before, fromUtf8Lossy y) := by
  induction headers generalizing line with
  | nil =>
    refine ⟨fromUtf8Lossy line, ?_⟩
    rw [List.flatMap_singleton, List.append_assoc, fromUtf8Lossy_blankLine, blankLine,
      splitOnce_append (carriageReturn_not_mem hline), List.cons_append, splitOnce,
      if_pos (by simp)]
    simp
  | cons header headers ih =>
    obtain ⟨hheader, hne⟩ := hheaders header (List.mem_cons_self ..)
    obtain ⟨before, hbefore⟩ := ih hheader fun l hl => hheaders l (List.mem_cons_of_mem header hl)
    refine ⟨fromUtf8Lossy line ++ '\r' :: '\n' :: before, ?_⟩
    rw [List.flatMap_cons, List.append_assoc, List.append_assoc, fromUtf8Lossy_lineBreak, blankLine,
      splitOnce_append (carriageReturn_not_mem hline), ← blankLine]
    have hstart : (fromUtf8Lossy ((header :: headers).flatMap (· ++ lineBreakBytes) ++
        (lineBreakBytes ++ y))).head? ≠ some '\r' := by
      rw [List.flatMap_cons, List.append_assoc, List.append_assoc, fromUtf8Lossy_lineBreak]
      cases htext : fromUtf8Lossy header with
      | nil => exact absurd (fromUtf8Lossy_eq_nil htext) hne
      | cons c rest =>
        have hfree := carriageReturn_not_mem hheader
        rw [htext, List.mem_cons, not_or] at hfree
        simpa using fun hc : c = '\r' => hfree.1 hc.symm
    rw [splitOnce_blankLine_break hstart, hbefore]
    rfl

theorem splitOnce_headLines (r : HttpRequest) (y : Octets) :
    ∃ before, splitOnce blankLine (fromUtf8Lossy (r.headLines ++ (lineBreakBytes ++ y))) =
      some (before, fromUtf8Lossy y) :=
  splitOnce_head y (r.unbroken _ (List.mem_cons_self ..)).1 fun l hl =>
    ⟨(r.unbroken l (List.mem_cons_of_mem _ hl)).1, r.filled l hl⟩

/-- What is read as the body, once the head is there. -/
theorem requestBody_head (r : HttpRequest) (y : Octets) :
    requestBody (fromUtf8Lossy (r.headLines ++ (lineBreakBytes ++ y))) =
      ((splitOnce blankLine (fromUtf8Lossy y)).map Prod.fst).getD (fromUtf8Lossy y) := by
  obtain ⟨before, hbefore⟩ := splitOnce_headLines r y
  rw [requestBody, hbefore]

/-- A part of a head has no body. -/
theorem requestBody_part {a t : Octets} (h : r.headLines ++ lineBreakBytes = a ++ t) (ht : t ≠ []) :
    requestBody (fromUtf8Lossy a) = [] := by
  have hnone : splitOnce blankLine (fromUtf8Lossy a) = none := by
    rw [splitOnce_eq_none_iff, infix_blankLine_iff]
    rintro ⟨x, z, rfl⟩
    obtain ⟨before, hbefore⟩ := splitOnce_headLines r []
    obtain ⟨x', y', hxy⟩ :=
      @exists_splitOnce _ _ blankLine (fromUtf8Lossy x) (fromUtf8Lossy (z ++ t))
    rw [List.append_nil, h, List.append_assoc, List.append_assoc, List.append_assoc,
      fromUtf8Lossy_blankLine, hxy] at hbefore
    have hrest := (List.append_eq_nil_iff.mp (Prod.mk.inj (Option.some.inj hbefore)).2).2
    exact ht (List.append_eq_nil_iff.mp (fromUtf8Lossy_eq_nil hrest)).2
  rw [requestBody, hnone]

theorem splitOnce_body (r : HttpRequest) (h : ¬ lineBreakBytes ++ lineBreakBytes <:+: r.body) :
    splitOnce blankLine (fromUtf8Lossy r.body) = none := by
  rwa [splitOnce_eq_none_iff, infix_blankLine_iff]

/-- What is read of a body that has arrived as a whole. -/
theorem requestBody_bytes (r : HttpRequest) (h : ¬ lineBreakBytes ++ lineBreakBytes <:+: r.body) :
    requestBody (fromUtf8Lossy r.bytes) = fromUtf8Lossy r.body := by
  rw [HttpRequest.bytes, requestBody_head, splitOnce_body r h]
  rfl

/-- If a part of the body is read as the body, it is the body, and there is no blank line in it. -/
theorem fromUtf8Lossy_of_requestBody {body t : Octets} (ht : body ++ t = r.body)
    (h : requestBody (fromUtf8Lossy (r.headLines ++ (lineBreakBytes ++ body))) = fromUtf8Lossy r.body) :
    fromUtf8Lossy body = fromUtf8Lossy r.body ∧ ¬ lineBreakBytes ++ lineBreakBytes <:+: r.body := by
  rw [requestBody_head] at h
  cases hsplit : splitOnce blankLine (fromUtf8Lossy body) with
  | none =>
    rw [hsplit] at h
    have hbody : fromUtf8Lossy body = fromUtf8Lossy r.body := h
    refine ⟨hbody, ?_⟩
    rwa [← infix_blankLine_iff, ← hbody, ← splitOnce_eq_none_iff]
  | some parts =>
    rw [hsplit] at h
    have hparts : parts.1 = fromUtf8Lossy r.body := h
    obtain ⟨x, y, rfl, hx, -⟩ := eq_of_fromUtf8Lossy_blankLine (eq_of_splitOnce hsplit)
    rw [← ht, ← hx, List.append_assoc, List.append_assoc, List.append_assoc,
      fromUtf8Lossy_blankLine] at hparts
    have hlength := congrArg List.length hparts
    simp [blankLine] at hlength

/-- **The body that is read is the one that is declared** if there is none, or if everything has arrived,
as long as there is no blank line in it. -/
theorem requestBody_eq_iff {a : Octets} (ha : a <+: r.bytes) :
    requestBody (fromUtf8Lossy a) = fromUtf8Lossy r.body ↔
      (r.body = [] ∨ fromUtf8Lossy a = fromUtf8Lossy r.bytes) ∧
        ¬ lineBreakBytes ++ lineBreakBytes <:+: r.body := by
  have hhead : r.headLines ++ lineBreakBytes <+: r.bytes := by
    rw [HttpRequest.bytes, ← List.append_assoc]
    exact List.prefix_append _ _
  have hempty (hbody : r.body = []) : requestBody (fromUtf8Lossy a) = [] := by
    have hbytes : r.bytes = r.headLines ++ lineBreakBytes := by
      rw [HttpRequest.bytes, hbody, List.append_nil]
    obtain ⟨t, ht⟩ := ha
    rw [hbytes] at ht
    by_cases hall : t = []
    · rw [hall, List.append_nil] at ht
      rw [ht, ← hbytes, requestBody_bytes r (by rw [hbody]; decide), hbody]
      rfl
    · exact requestBody_part ht.symm hall
  constructor
  · intro h
    rcases List.prefix_or_prefix_of_prefix hhead ha with ⟨body, rfl⟩ | ⟨t, ht⟩
    · rw [HttpRequest.bytes, ← List.append_assoc, List.prefix_append_right_inj] at ha
      obtain ⟨t, ht⟩ := ha
      rw [List.append_assoc] at h ⊢
      obtain ⟨htext, hblank⟩ := fromUtf8Lossy_of_requestBody ht h
      refine ⟨Or.inr ?_, hblank⟩
      rw [HttpRequest.bytes, fromUtf8Lossy_lineBreak, fromUtf8Lossy_lineBreak, htext]
    · by_cases hall : t = []
      · rw [hall, List.append_nil] at ht
        rw [ht, ← List.append_nil lineBreakBytes] at h
        obtain ⟨htext, hblank⟩ := fromUtf8Lossy_of_requestBody (List.nil_append r.body) h
        exact ⟨Or.inl (fromUtf8Lossy_eq_nil htext.symm), hblank⟩
      · rw [requestBody_part ht.symm hall] at h
        have hbody : r.body = [] := fromUtf8Lossy_eq_nil h.symm
        refine ⟨Or.inl hbody, ?_⟩
        rw [hbody]
        decide
  · rintro ⟨hbody | hwhole, hblank⟩
    · rw [hempty hbody, hbody]
      rfl
    · rw [hwhole, requestBody_bytes r hblank]

/-! ### What is handled -/

theorem Delivery.read_prefix (d : Delivery r) : readPieces 8192 d.pieces <+: r.bytes := by
  refine (List.take_prefix 8192 _).trans ?_
  rw [← d.whole]
  cases d.pieces with
  | nil => exact List.nil_prefix
  | cons piece pieces => exact List.prefix_append piece pieces.flatten

/-- Something has been read. -/
theorem Delivery.text_ne_nil (d : Delivery r) : d.text ≠ [] := by
  intro h
  have hread := fromUtf8Lossy_eq_nil h
  cases hpieces : d.pieces with
  | nil =>
    have hwhole := d.whole
    rw [hpieces] at hwhole
    simp [HttpRequest.bytes, lineBreakBytes] at hwhole
  | cons piece pieces =>
    rw [hpieces] at hread
    have hpiece := d.filled piece (by rw [hpieces]; exact List.mem_cons_self ..)
    simp [readPieces, hpiece] at hread

/-! ### The result -/

theorem delivered_of_handled {server : Server} {d : Delivery r}
    (h : handled server d = handled server r.atOnce)
    (hbody : ∀ body, ActsOn server d.text body → body = fromUtf8Lossy r.body) :
    Delivered server d := by
  rw [handled, handled] at h
  rcases handle_cases server d.text_ne_nil with ⟨hd, hhandle⟩ |
    ⟨route, query, reason, hd, hstop, hreason, hhandle⟩ | ⟨route, query, arguments, hd, hcall, hhandle⟩ <;>
  rcases handle_cases server r.atOnce.text_ne_nil with ⟨hw, hhandle'⟩ |
    ⟨route', query', reason', hw, hstop', hreason', hhandle'⟩ |
    ⟨route', query', arguments', hw, hcall', hhandle'⟩ <;>
  rw [hhandle, hhandle'] at h
  · exact .nowhere hd hw
  · exact absurd (ofExcept_inj h).symm hreason'
  · exact absurd h ofExcept_ne_ask
  · exact absurd (ofExcept_inj h) hreason
  · obtain rfl := ofExcept_inj h
    exact .stopped hd hw hstop hstop'
  · exact absurd h ofExcept_ne_ask
  · exact absurd h.symm ofExcept_ne_ask
  · exact absurd h.symm ofExcept_ne_ask
  · obtain ⟨hhandler, rfl⟩ := Op.call.inj (Prog.ask.inj h).1
    obtain rfl := eq_of_handler (mem_routes_of_routeOf hd) (mem_routes_of_routeOf hw) hhandler
    refine .called hd hw hcall hcall' fun hform => ?_
    exact (requestBody_eq_iff d.read_prefix).mp (hbody _ ⟨_, _, _, _, hd, hform, hhandle, rfl⟩)

theorem handled_of_delivered {server : Server} {d : Delivery r} (h : Delivered server d) :
    handled server d = handled server r.atOnce ∧
      ∀ body, ActsOn server d.text body → body = fromUtf8Lossy r.body := by
  rw [handled, handled]
  cases h with
  | nowhere hd hw =>
    refine ⟨?_, ?_⟩
    · rw [handle_of_nowhere d.text_ne_nil hd, handle_of_nowhere r.atOnce.text_ne_nil hw]
    · rintro body ⟨route, query, arguments, k, hroute, -⟩
      rw [hd] at hroute
      cases hroute
  | stopped hd hw hstop hstop' =>
    refine ⟨?_, ?_⟩
    · rw [handle_of_stopped hd hstop, handle_of_stopped hw hstop']
    · rintro body ⟨route, query, arguments, k, -, -, hask, -⟩
      rw [handle_of_stopped hd hstop] at hask
      exact absurd hask ofExcept_ne_ask
  | called hd hw hcall hcall' hbody =>
    refine ⟨?_, ?_⟩
    · rw [handle_of_called hd hcall, handle_of_called hw hcall']
    · rintro body ⟨route, query, arguments, k, hroute, hform, -, rfl⟩
      rw [hd] at hroute
      obtain ⟨rfl, rfl⟩ := Prod.mk.inj (Option.some.inj hroute)
      exact (requestBody_eq_iff d.read_prefix).mpr (hbody hform)

/-- **What is done with a request does not depend on how it arrives**, and no handler acts on a part of
the body, exactly if the single read delivers what decides: nothing with a route, what is refused for the
same reason, or the same call, with all of the body where the handler reads it. -/
theorem delivered_iff (server : Server) (d : Delivery r) :
    (handled server d = handled server r.atOnce ∧
        ∀ body, ActsOn server d.text body → body = fromUtf8Lossy r.body) ↔
      Delivered server d :=
  ⟨fun h => delivered_of_handled h.1 h.2, handled_of_delivered⟩

end

/-! ### A form that is cut -/

/-- A request to cancel a job. -/
def cancelRequest : HttpRequest where
  requestLine := utf8Bytes "POST /api/queue/cancel?token=t HTTP/1.1".toList
  headers := [utf8Bytes "Content-Length: 13".toList]
  body := utf8Bytes "job_id=job-12".toList
  unbroken := by decide
  filled := by decide
  declared _ := ⟨utf8Bytes "Content-Length: 13".toList, List.mem_singleton_self _, by decide⟩

/-- All but the last byte arrives first. -/
def cancelCut : Delivery cancelRequest where
  pieces := [cancelRequest.bytes.take 75, cancelRequest.bytes.drop 75]
  filled := by decide
  whole := by decide

def cancelServer : Server where
  operators := [{ id := "op", role := .operator, token := ['t'] }]
  queue := true

def cancelRoute : Route := (Route.act "/api/queue/cancel" .queueCancel).needing .queue

theorem routeOf_cancelCut : routeOf cancelCut.text = some (cancelRoute, "token=t".toList) := by
  decide +kernel

/-- Another job is cancelled. -/
theorem prepare_cancelCut :
    cancelRoute.prepare cancelServer "token=t".toList cancelCut.text =
      .ok (.form [("job_id".toList, "job-1".toList)]) := by
  rfl

theorem not_delivered_cutForm :
    ¬ ∀ (server : Server) (r : HttpRequest) (d : Delivery r),
      handled server d = handled server r.atOnce ∧
        ∀ body, ActsOn server d.text body → body = fromUtf8Lossy r.body := by
  intro h
  have hbody := (h cancelServer cancelRequest cancelCut).2 (requestBody cancelCut.text)
    ⟨_, _, _, _, routeOf_cancelCut, rfl, handle_of_called routeOf_cancelCut prepare_cancelCut, rfl⟩
  exact absurd hbody (by decide)

end Workbench

end Ao2
