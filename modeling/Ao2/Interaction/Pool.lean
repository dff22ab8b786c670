import Ao2.Interaction.Oracle

/-!
# Processes that take turns

Any number of processes run over one world. Each performs the operations of its own program, one at a
time and in its own order; which process is next, and what it is answered where the world leaves that
open, is up to the schedule. A process that has stopped is one that is never next again.

What is known of a process is what its program does whatever it is answered, in terms of what it has
been answered so far. What is known of the world is an invariant of the operations, which may use both.

## Main results

* `Pool.Coherent.previous` — the operation that a process performed before
-/

namespace Ao2

namespace Interaction

variable {S : Signature} {ε α β : Type}

/-! ### Programs whatever they are answered -/

namespace Prog

/-- Whatever it is answered, `C` holds before each operation of the program, `Q` when it returns and
`E` when it fails, each of the history so far. -/
def Traced (C : List (Event S) → S.Op → Prop) (Q : List (Event S) → α → Prop)
    (E : List (Event S) → ε → Prop) : List (Event S) → Prog S ε α → Prop
  | h, .done a => Q h a
  | h, .fail e => E h e
  | h, .ask o k => C h o ∧ ∀ a, Traced C Q E (h ++ [⟨o, a⟩]) (k a)

variable {C C' : List (Event S) → S.Op → Prop} {Q Q' : List (Event S) → α → Prop}
  {E E' : List (Event S) → ε → Prop} {h : List (Event S)}

theorem traced_bind {p : Prog S ε α} {f : α → Prog S ε β} {Q : List (Event S) → β → Prop} :
    (p.bind f).Traced C Q E h ↔ p.Traced C (fun h a => (f a).Traced C Q E h) E h := by
  induction p generalizing h with
  | done a => rfl
  | fail e => rfl
  | ask o k ih =>
    rw [ask_bind, Traced, Traced]
    exact and_congr_right fun _ => forall_congr' fun a => ih a

theorem Traced.mono {p : Prog S ε α} (hp : p.Traced C Q E h) (hC : ∀ h o, C h o → C' h o)
    (hQ : ∀ h a, Q h a → Q' h a) (hE : ∀ h e, E h e → E' h e) : p.Traced C' Q' E' h := by
  induction p generalizing h with
  | done a => exact hQ _ _ hp
  | fail e => exact hE _ _ hp
  | ask o k ih => exact ⟨hC _ _ hp.1, fun a => ih a (hp.2 a)⟩

theorem Traced.and {p : Prog S ε α} (hp : p.Traced C Q E h) (hp' : p.Traced C' Q' E' h) :
    p.Traced (fun h o => C h o ∧ C' h o) (fun h a => Q h a ∧ Q' h a) (fun h e => E h e ∧ E' h e) h := by
  induction p generalizing h with
  | done a => exact ⟨hp, hp'⟩
  | fail e => exact ⟨hp, hp'⟩
  | ask o k ih => exact ⟨⟨hp.1, hp'.1⟩, fun a => ih a (hp.2 a) (hp'.2 a)⟩

/-- What is kept however the history goes on is kept throughout. -/
theorem traced_of_kept {P : List (Event S) → Prop} (hP : ∀ h e, P h → P (h ++ [e])) (p : Prog S ε α)
    (h₀ : P h) : p.Traced (fun h _ => P h) (fun h _ => P h) (fun h _ => P h) h := by
  induction p generalizing h with
  | done a => exact h₀
  | fail e => exact h₀
  | ask o k ih => exact ⟨h₀, fun a => ih a (hP _ _ h₀)⟩

theorem traced_attempt {ε' : Type} {p : Prog S ε α} {Q : List (Event S) → Except ε α → Prop}
    {E : List (Event S) → ε' → Prop} :
    (p.attempt).Traced C Q E h ↔ p.Traced C (fun h a => Q h (.ok a)) (fun h e => Q h (.error e)) h := by
  induction p generalizing h with
  | done a => rfl
  | fail e => rfl
  | ask o k ih =>
    rw [attempt, Traced, Traced]
    exact and_congr_right fun _ => forall_congr' fun a => ih a

theorem traced_ofExcept {r : Except ε α} (hok : ∀ a, r = .ok a → Q h a)
    (herror : ∀ e, r = .error e → E h e) : (ofExcept r).Traced C Q E h := by
  cases r with
  | ok a => exact hok a rfl
  | error e => exact herror e rfl

/-- What holds whatever a program is answered holds of the answers of one environment. -/
theorem Traced.wp {p : Prog S ε α} (hp : p.Traced C Q E h) (f : Oracle S) :
    f.machine.wp (fun o h => C h o) p (fun a h => Q h a) (fun e h => E h e) h := by
  induction p generalizing h with
  | done a => exact hp
  | fail e => exact hp
  | ask o k ih => exact ⟨hp.1, ih _ (hp.2 _)⟩

end Prog

/-! ### Pools -/

section

variable {Call Label W : Type}

/-- A process: what was asked of it, what it has left to do and what it has done. -/
structure Member (Call : Type) (S : Signature) (ε α : Type) where
  call : Call
  program : Prog S ε α
  history : List (Event S)

/-- An operation of a process: what the process had done before and the world at that time. -/
structure TraceEntry (Call W : Type) (S : Signature) where
  index : ℕ
  call : Call
  earlier : List (Event S)
  before : W
  event : Event S

structure Pool (Call W : Type) (S : Signature) (ε α : Type) where
  world : W
  members : List (Member Call S ε α)
  trace : List (TraceEntry Call W S)

/-- A process comes up, or a process performs its next operation. -/
inductive PoolMove (Call Label : Type) where
  | spawn (call : Call)
  | act (index : ℕ) (label : Label)

namespace Pool

variable (program : Call → Prog S ε α) (M : Label → Machine S W)

def initial (w : W) : Pool Call W S ε α := ⟨w, [], []⟩

/-- The pool after an operation of a process. -/
def perform (P : Pool Call W S ε α) (index : ℕ) (m : Member Call S ε α) (l : Label) (o : S.Op)
    (k : S.Ans o → Prog S ε α) : Pool Call W S ε α :=
  let r := (M l).step o P.world
  { world := r.2
    members := P.members.set index ⟨m.call, k r.1, m.history ++ [⟨o, r.1⟩]⟩
    trace := P.trace ++ [⟨index, m.call, m.history, P.world, ⟨o, r.1⟩⟩] }

def step (P : Pool Call W S ε α) : PoolMove Call Label → Pool Call W S ε α
  | .spawn call => { P with members := P.members ++ [⟨call, program call, []⟩] }
  | .act index l =>
    match P.members[index]? with
    | none => P
    | some m =>
      match m.program with
      | .ask o k => P.perform M index m l o k
      | .done _ | .fail _ => P

def run (P : Pool Call W S ε α) (moves : List (PoolMove Call Label)) : Pool Call W S ε α :=
  moves.foldl (fun P move => P.step program M move) P

variable {program M}

/-- **The induction over runs.** -/
theorem run_induction {J : Pool Call W S ε α → Prop}
    (hspawn : ∀ P call, J P → J { P with members := P.members ++ [⟨call, program call, []⟩] })
    (hact : ∀ (P : Pool Call W S ε α) index m l o k, P.members[index]? = some m →
      m.program = .ask o k → J P → J (P.perform M index m l o k))
    {P : Pool Call W S ε α} (hP : J P) (moves : List (PoolMove Call Label)) :
    J (P.run program M moves) := by
  induction moves generalizing P with
  | nil => exact hP
  | cons move moves ih =>
    refine ih ?_
    cases move with
    | spawn call => exact hspawn P call hP
    | act index l =>
      change J (P.step program M (.act index l))
      rw [step.eq_def]
      dsimp only
      cases hm : P.members[index]? with
      | none => exact hP
      | some m =>
        dsimp only
        cases hprogram : m.program with
        | done a => exact hP
        | fail e => exact hP
        | ask o k => exact hact P index m l o k hm hprogram hP

/-! ### What each process has done -/

/-- What the process with an index has done. -/
def own (trace : List (TraceEntry Call W S)) (index : ℕ) : List (Event S) :=
  (trace.filter (·.index = index)).map (·.event)

theorem own_append (trace trace' : List (TraceEntry Call W S)) (index : ℕ) :
    own (trace ++ trace') index = own trace index ++ own trace' index := by
  rw [own, List.filter_append, List.map_append]
  rfl

theorem own_concat_self (trace : List (TraceEntry Call W S)) (e : TraceEntry Call W S) :
    own (trace ++ [e]) e.index = own trace e.index ++ [e.event] := by
  rw [own_append]
  simp [own]

theorem own_concat_of_ne (trace : List (TraceEntry Call W S)) {e : TraceEntry Call W S} {index : ℕ}
    (h : e.index ≠ index) : own (trace ++ [e]) index = own trace index := by
  rw [own_append]
  simp [own, h]

/-- **Each process has come where its program comes** with its own history, and so had it before each
of its operations. -/
structure Coherent (C : Call → List (Event S) → S.Op → Prop) (Q : Call → List (Event S) → α → Prop)
    (E : Call → List (Event S) → ε → Prop) (P : Pool Call W S ε α) : Prop where
  traced : ∀ m ∈ P.members, m.program.Traced (C m.call) (Q m.call) (E m.call) m.history
  history : ∀ index m, P.members[index]? = some m → m.history = own P.trace index
  entries : ∀ e ∈ P.trace, C e.call e.earlier e.event.op
  /-- The processes of the trace are those of the pool. -/
  calls : ∀ e ∈ P.trace, ∃ m, P.members[e.index]? = some m ∧ m.call = e.call
  earlier : ∀ pre e post, P.trace = pre ++ e :: post → e.earlier = own pre e.index

section

variable {C : Call → List (Event S) → S.Op → Prop} {Q : Call → List (Event S) → α → Prop}
  {E : Call → List (Event S) → ε → Prop} {P : Pool Call W S ε α}

theorem coherent_initial (w : W) : (initial w : Pool Call W S ε α).Coherent C Q E where
  traced := List.forall_mem_nil _
  history _ _ h := by cases h
  entries := List.forall_mem_nil _
  calls := List.forall_mem_nil _
  earlier pre e post h := by
    have hlen := congrArg List.length h
    rw [List.length_append] at hlen
    simp [initial] at hlen

theorem own_eq_nil {trace : List (TraceEntry Call W S)} {index : ℕ}
    (h : ∀ e ∈ trace, e.index ≠ index) : own trace index = [] := by
  rw [own, List.map_eq_nil_iff, List.filter_eq_nil_iff]
  exact fun e he => by simpa using h e he

theorem Coherent.spawn (h : P.Coherent C Q E) {call : Call}
    (hprogram : (program call).Traced (C call) (Q call) (E call) []) :
    ({ P with members := P.members ++ [⟨call, program call, []⟩] } : Pool Call W S ε α).Coherent
      C Q E where
  traced := by
    intro m hm
    rcases List.mem_append.mp hm with hm | hm
    · exact h.traced m hm
    · rw [List.mem_singleton.mp hm]
      exact hprogram
  history := by
    intro index m hm
    dsimp only at hm
    rw [List.getElem?_append] at hm
    split at hm
    · exact h.history index m hm
    · rw [List.getElem?_singleton] at hm
      split_ifs at hm
      rw [← Option.some.inj hm]
      refine (own_eq_nil fun e he heq => ?_).symm
      obtain ⟨m', hm', -⟩ := h.calls e he
      have hlt := (List.getElem?_eq_some_iff.mp hm').1
      omega
  entries := h.entries
  calls := by
    intro e he
    obtain ⟨m, hm, hcall⟩ := h.calls e he
    exact ⟨m, List.getElem?_append_left (List.getElem?_eq_some_iff.mp hm).1 ▸ hm, hcall⟩
  earlier := h.earlier

theorem Coherent.perform (h : P.Coherent C Q E) {index : ℕ} {m : Member Call S ε α} {l : Label}
    {o : S.Op} {k : S.Ans o → Prog S ε α} (hm : P.members[index]? = some m)
    (hprogram : m.program = .ask o k) : (P.perform M index m l o k).Coherent C Q E := by
  have htraced := h.traced m (List.mem_of_getElem? hm)
  rw [hprogram] at htraced
  have hlt := (List.getElem?_eq_some_iff.mp hm).1
  constructor
  · intro m' hm'
    rcases List.mem_or_eq_of_mem_set hm' with hm' | rfl
    · exact h.traced m' hm'
    · exact htraced.2 _
  · intro index' m' hm'
    change (P.members.set index _)[index']? = some m' at hm'
    by_cases heq : index = index'
    · subst heq
      rw [List.getElem?_set_self hlt] at hm'
      rw [← Option.some.inj hm']
      refine Eq.trans ?_ (own_concat_self _ _).symm
      rw [h.history index m hm]
    · rw [List.getElem?_set_ne heq] at hm'
      rw [h.history index' m' hm']
      exact (own_concat_of_ne _ heq).symm
  · intro e he
    rcases List.mem_append.mp he with he | he
    · exact h.entries e he
    · rw [List.mem_singleton.mp he]
      exact htraced.1
  · intro e he
    change ∃ m', (P.members.set index _)[e.index]? = some m' ∧ _
    rcases List.mem_append.mp he with he | he
    · obtain ⟨m', hm', hcall⟩ := h.calls e he
      by_cases heq : index = e.index
      · rw [← heq, hm] at hm'
        rw [← heq, List.getElem?_set_self hlt]
        rw [← Option.some.inj hm'] at hcall
        exact ⟨_, rfl, hcall⟩
      · rw [List.getElem?_set_ne heq]
        exact ⟨m', hm', hcall⟩
    · rw [List.mem_singleton.mp he]
      exact ⟨_, List.getElem?_set_self hlt, rfl⟩
  · intro pre e post heq
    change P.trace ++ [_] = _ at heq
    rcases List.eq_nil_or_concat post with rfl | ⟨post, e', rfl⟩
    · obtain ⟨rfl, hlast⟩ := List.append_inj' heq rfl
      rw [← (List.cons.inj hlast).1]
      exact h.history index m hm
    · rw [List.concat_eq_append, ← List.cons_append, ← List.append_assoc] at heq
      obtain ⟨htrace, -⟩ := List.append_inj' heq rfl
      exact h.earlier pre e post htrace

/-- **Every run of programs that are known is coherent.** -/
theorem coherent_run (hprogram : ∀ call, (program call).Traced (C call) (Q call) (E call) [])
    (w : W) (moves : List (PoolMove Call Label)) : ((initial w).run program M moves).Coherent C Q E :=
  run_induction (fun _ call h => h.spawn (hprogram call)) (fun _ _ _ _ _ _ hm hp h => h.perform hm hp)
    (coherent_initial w) moves

/-- What a process has done is found in the trace. -/
theorem own_eq_append_cons {trace : List (TraceEntry Call W S)} {index : ℕ}
    {earlier later : List (Event S)} {event : Event S}
    (hown : own trace index = earlier ++ event :: later) :
    ∃ pre e post, trace = pre ++ e :: post ∧ e.index = index ∧ e.event = event ∧
      own pre index = earlier := by
  obtain ⟨es, es', hfilter, hes, hes'⟩ := List.map_eq_append_iff.mp hown
  obtain ⟨e, es'', rfl, hevent, -⟩ := List.map_eq_cons_iff.mp hes'
  obtain ⟨pre, rest, rfl, hpre, hrest⟩ := List.filter_eq_append_iff.mp hfilter
  obtain ⟨skipped, post, rfl, hskipped, hindex, -⟩ := List.filter_eq_cons_iff.mp hrest
  refine ⟨pre ++ skipped, e, post, (List.append_assoc _ _ _).symm, of_decide_eq_true hindex, hevent, ?_⟩
  have hnone : own skipped index = [] := own_eq_nil fun e' he' => by simpa using hskipped e' he'
  rw [own_append, hnone, List.append_nil, own, hpre, hes]

/-- The operations of one process are those of one call. -/
theorem Coherent.call_eq (h : P.Coherent C Q E) {e e' : TraceEntry Call W S} (he : e ∈ P.trace)
    (he' : e' ∈ P.trace) (hindex : e.index = e'.index) : e.call = e'.call := by
  obtain ⟨m, hm, hcall⟩ := h.calls e he
  obtain ⟨m', hm', hcall'⟩ := h.calls e' he'
  rw [hindex, hm'] at hm
  rw [← hcall, ← hcall', Option.some.inj hm]

/-- **The operation that a process performed before** is in the trace. -/
theorem Coherent.previous (h : P.Coherent C Q E) {pre post : List (TraceEntry Call W S)}
    {e : TraceEntry Call W S} (htrace : P.trace = pre ++ e :: post) {earlier : List (Event S)}
    {last : Event S} (hlast : e.earlier = earlier ++ [last]) :
    ∃ pre' c between, pre = pre' ++ c :: between ∧ c.index = e.index ∧ c.call = e.call ∧
      c.earlier = earlier ∧ c.event = last := by
  obtain ⟨pre', c, between, rfl, hindex, hevent, hown⟩ :=
    own_eq_append_cons ((h.earlier pre e post htrace).symm.trans hlast)
  rw [List.append_assoc, List.cons_append] at htrace
  refine ⟨pre', c, between, rfl, hindex, ?_, ?_, hevent⟩
  · exact h.call_eq (by simp [htrace]) (by simp [htrace]) hindex
  · rw [h.earlier pre' c _ htrace, hindex, hown]

/-- **What a process has done** is in the trace, with what it had done before. -/
theorem Coherent.performed (h : P.Coherent C Q E) {index : ℕ} {m : Member Call S ε α}
    (hm : P.members[index]? = some m) {earlier later : List (Event S)} {event : Event S}
    (hhistory : m.history = earlier ++ event :: later) :
    ∃ pre e post, P.trace = pre ++ e :: post ∧ e.index = index ∧ e.call = m.call ∧
      e.earlier = earlier ∧ e.event = event := by
  obtain ⟨pre, e, post, htrace, rfl, hevent, hown⟩ :=
    own_eq_append_cons ((h.history index m hm).symm.trans hhistory)
  obtain ⟨m', hm', hcall⟩ := h.calls e (by simp [htrace])
  rw [hm, Option.some_inj] at hm'
  refine ⟨pre, e, post, htrace, rfl, by rw [← hcall, hm'], ?_, hevent⟩
  rw [h.earlier pre e post htrace, hown]

/-! ### Positions -/

theorem eq_take_append_cons {l : List β} {n : ℕ} {b : β} (h : l[n]? = some b) :
    l = l.take n ++ b :: l.drop (n + 1) := by
  obtain ⟨hlt, rfl⟩ := List.getElem?_eq_some_iff.mp h
  rw [← List.drop_eq_getElem_cons hlt, List.take_append_drop]

theorem Coherent.earlier_length_lt (h : P.Coherent C Q E) {n n' : ℕ} {e e' : TraceEntry Call W S}
    (he : P.trace[n]? = some e) (he' : P.trace[n']? = some e') (hindex : e.index = e'.index)
    (hlt : n < n') : e.earlier.length < e'.earlier.length := by
  have htrace := eq_take_append_cons he
  have htrace' := eq_take_append_cons he'
  have htake : P.trace.take n' = P.trace.take n ++ e :: (P.trace.take n').drop (n + 1) := by
    have hget : (P.trace.take n')[n]? = some e := by rw [List.getElem?_take_of_lt hlt, he]
    have hsplit := eq_take_append_cons hget
    rwa [List.take_take, Nat.min_eq_left (Nat.le_of_lt hlt)] at hsplit
  rw [h.earlier _ _ _ htrace, h.earlier _ _ _ htrace', htake, own_append, List.length_append, ← hindex]
  have hpos : 0 < (own (e :: (P.trace.take n').drop (n + 1)) e.index).length := by simp [own]
  omega

/-- An operation of a process is known by how many it had performed before. -/
theorem Coherent.position_unique (h : P.Coherent C Q E) {n n' : ℕ} {e e' : TraceEntry Call W S}
    (he : P.trace[n]? = some e) (he' : P.trace[n']? = some e') (hindex : e.index = e'.index)
    (hlength : e.earlier.length = e'.earlier.length) : n = n' := by
  rcases Nat.lt_trichotomy n n' with hlt | heq | hlt
  · have := h.earlier_length_lt he he' hindex hlt
    omega
  · exact heq
  · have := h.earlier_length_lt he' he hindex.symm hlt
    omega

/-- **The induction over the trace.** What holds of the trace and of the world after every run holds of
every beginning of the trace and of the world at that time. -/
theorem trace_induction (hprogram : ∀ call, (program call).Traced (C call) (Q call) (E call) []) {w : W}
    {G : List (TraceEntry Call W S) → W → Prop} (h₀ : G [] w)
    (hstep : ∀ trace (e : TraceEntry Call W S) l, G trace e.before → C e.call e.earlier e.event.op →
      e.earlier = own trace e.index → ((M l).step e.event.op e.before).1 = e.event.ans →
      G (trace ++ [e]) ((M l).step e.event.op e.before).2)
    (moves : List (PoolMove Call Label)) :
    G ((initial w).run program M moves).trace ((initial w).run program M moves).world ∧
      ∀ pre e post, ((initial w).run program M moves).trace = pre ++ e :: post → G pre e.before := by
  suffices h : ((initial w).run program M moves).Coherent C Q E ∧
      G ((initial w).run program M moves).trace ((initial w).run program M moves).world ∧
      ∀ pre e post, ((initial w).run program M moves).trace = pre ++ e :: post → G pre e.before from h.2
  refine run_induction (J := fun P => P.Coherent C Q E ∧ G P.trace P.world ∧
    ∀ pre e post, P.trace = pre ++ e :: post → G pre e.before) ?_ ?_ ?_ moves
  · rintro P call ⟨hcoherent, hG, hpre⟩
    exact ⟨hcoherent.spawn (hprogram call), hG, hpre⟩
  · rintro P index m l o k hm hp ⟨hcoherent, hG, hpre⟩
    have htraced := hcoherent.traced m (List.mem_of_getElem? hm)
    rw [hp] at htraced
    refine ⟨hcoherent.perform hm hp, ?_, ?_⟩
    · exact hstep P.trace ⟨index, m.call, m.history, P.world, ⟨o, _⟩⟩ l hG htraced.1
        (hcoherent.history index m hm) rfl
    · intro pre e post heq
      change P.trace ++ [_] = _ at heq
      rcases List.eq_nil_or_concat post with rfl | ⟨post, e', rfl⟩
      · obtain ⟨rfl, hlast⟩ := List.append_inj' heq rfl
        rw [← (List.cons.inj hlast).1]
        exact hG
      · rw [List.concat_eq_append, ← List.cons_append, ← List.append_assoc] at heq
        exact hpre pre e post (List.append_inj' heq rfl).1
  · refine ⟨coherent_initial w, h₀, fun pre e post heq => ?_⟩
    have hlen := congrArg List.length heq
    rw [List.length_append] at hlen
    simp [initial] at hlen

end

end Pool

end

end Interaction

end Ao2
