import Ao2.Interaction.Machine

/-!
# Any environment at all

A program that talks to a remote party cannot assume anything about the answers. An `Oracle` is one
behaviour of such a party: an answer for every operation at every point, which may depend on all that
was said before. What holds for all oracles holds for every sequence of answers.

The world of an oracle is the history of the conversation, which is also the trace of the run.

## Main results

* `Machine.Records.run_extends` — a run adds to the history
* `Machine.Records.event` — what a weakest precondition says about every event of a run
-/

namespace Ao2

namespace Interaction

variable {S : Signature} {ε α β : Type}

/-- An operation and the answer to it. -/
structure Event (S : Signature) where
  op : S.Op
  ans : S.Ans op

/-! ### Machines that keep the history -/

/-- Part of the world is the history, and every operation adds itself to it. -/
def Machine.Records {W : Type} (M : Machine S W) (history : W → List (Event S)) : Prop :=
  ∀ o w, history (M.step o w).2 = history w ++ [⟨o, (M.step o w).1⟩]

namespace Machine.Records

variable {W : Type} {M : Machine S W} {history : W → List (Event S)} {C : S.Op → W → Prop}
  {Q : α → W → Prop} {E : ε → W → Prop} {w : W}

/-- A run adds to the history. -/
theorem run_extends (hM : M.Records history) (p : Prog S ε α) (w : W) :
    history w <+: history (M.run p w).2 := by
  induction p generalizing w with
  | done a => exact List.prefix_rfl
  | fail e => exact List.prefix_rfl
  | ask o k ih =>
    rw [run_ask]
    refine List.IsPrefix.trans ?_ (ih _ _)
    rw [hM o w]
    exact List.prefix_append _ _

/-- Every event of a run was preceded by a world in which its operation was allowed. -/
theorem event (hM : M.Records history) {p : Prog S ε α} (hp : M.wp C p Q E w)
    {pre post : List (Event S)} {e : Event S}
    (heq : history (M.run p w).2 = pre ++ e :: post) (hle : (history w).length ≤ pre.length) :
    ∃ w', history w' = pre ∧ C e.op w' := by
  induction p generalizing w with
  | done a =>
    have hlen := congrArg List.length (show history w = pre ++ e :: post from heq)
    rw [List.length_append, List.length_cons] at hlen
    omega
  | fail _ =>
    have hlen := congrArg List.length (show history w = pre ++ e :: post from heq)
    rw [List.length_append, List.length_cons] at hlen
    omega
  | ask o k ih =>
    rw [run_ask] at heq
    rcases Nat.eq_or_lt_of_le hle with hlen | hlt
    · obtain ⟨rest, hrest⟩ := hM.run_extends (k (M.step o w).1) (M.step o w).2
      rw [heq, hM o w] at hrest
      have hsplit : history w ++ (⟨o, (M.step o w).1⟩ :: rest) = pre ++ e :: post := by
        rw [← hrest, List.append_assoc, List.singleton_append]
      obtain ⟨hpre, hevent⟩ := List.append_inj hsplit hlen
      rw [← (List.cons.inj hevent).1]
      exact ⟨w, hpre, hp.1⟩
    · refine ih _ hp.2 heq ?_
      rw [hM o w, List.length_append, List.length_singleton]
      exact hlt

/-- A bounded number of operations is a bounded number of events. -/
theorem countP_le (hM : M.Records history) {P : S.Op → Bool} {n : ℕ} {p : Prog S ε α}
    (hp : p.AtMost P n) (w : W) :
    (history (M.run p w).2).countP (fun e => P e.op) ≤ (history w).countP (fun e => P e.op) + n := by
  induction p generalizing w n with
  | done a => exact Nat.le_add_right _ _
  | fail e => exact Nat.le_add_right _ _
  | ask o k ih =>
    rw [run_ask]
    rw [Prog.AtMost] at hp
    by_cases hP : P o = true
    · rw [if_pos hP] at hp
      obtain ⟨m, rfl, hp⟩ := hp
      have hrest := ih (M.step o w).1 (hp _) (M.step o w).2
      rw [hM o w, List.countP_append, List.countP_singleton, if_pos hP] at hrest
      omega
    · rw [if_neg hP] at hp
      have hrest := ih (M.step o w).1 (hp _) (M.step o w).2
      rwa [hM o w, List.countP_append, List.countP_singleton, if_neg hP] at hrest

end Machine.Records

/-! ### Oracles -/

/-- One behaviour of the environment. -/
abbrev Oracle (S : Signature) := List (Event S) → (o : S.Op) → S.Ans o

namespace Oracle

/-- The machine that answers as an oracle says and keeps the history. -/
def machine (f : Oracle S) : Machine S (List (Event S)) where
  step o h := (f h o, h ++ [⟨o, f h o⟩])

variable {f : Oracle S} {C : S.Op → List (Event S) → Prop} {Q : α → List (Event S) → Prop}
  {E : ε → List (Event S) → Prop} {h : List (Event S)}

theorem records (f : Oracle S) : f.machine.Records id := fun _ _ => rfl

/-- A run adds to the history. -/
theorem run_extends (p : Prog S ε α) (h : List (Event S)) : h <+: (f.machine.run p h).2 :=
  f.records.run_extends p h

/-- Every event of a run was preceded by a history in which its operation was allowed. -/
theorem wp.event {p : Prog S ε α} (hp : f.machine.wp C p Q E h) {pre post : List (Event S)}
    {e : Event S} (heq : (f.machine.run p h).2 = pre ++ e :: post) (hle : h.length ≤ pre.length) :
    C e.op pre := by
  obtain ⟨w', rfl, hC⟩ := f.records.event hp heq hle
  exact hC

/-- An event is part of a run. -/
def Reaches (f : Oracle S) (p : Prog S ε α) (h : List (Event S)) (e : Event S) : Prop :=
  e ∈ (f.machine.run p h).2

section

variable {e : Event S}

theorem Reaches.here {o : S.Op} {k : S.Ans o → Prog S ε α} : Reaches f (.ask o k) h ⟨o, f h o⟩ := by
  have hmem : (⟨o, f h o⟩ : Event S) ∈ h ++ [⟨o, f h o⟩] :=
    List.mem_append_right _ List.mem_cons_self
  exact (run_extends (k (f h o)) (h ++ [⟨o, f h o⟩])).subset hmem

theorem Reaches.ask {o : S.Op} {k : S.Ans o → Prog S ε α}
    (hk : Reaches f (k (f h o)) (h ++ [⟨o, f h o⟩]) e) : Reaches f (.ask o k) h e := hk

theorem Reaches.done {a : α} {g : α → Prog S ε β} (hg : Reaches f (g a) h e) :
    Reaches f ((Prog.done a).bind g) h e := hg

theorem Reaches.check {r : Except ε α} {a : α} {g : α → Prog S ε β} (hr : r = .ok a)
    (hg : Reaches f (g a) h e) : Reaches f ((Prog.ofExcept r).bind g) h e := by
  subst hr
  exact hg

end

end Oracle

/-! ### The last event of a kind -/

/-- What is read off the last event that something is read off. -/
def lastSome (read : Event S → Option β) (h : List (Event S)) : Option β :=
  (h.filterMap read).getLast?

@[simp] theorem lastSome_nil (read : Event S → Option β) : lastSome read [] = none := rfl

theorem lastSome_concat (read : Event S → Option β) (h : List (Event S)) (e : Event S) :
    lastSome read (h ++ [e]) = (read e).or (lastSome read h) := by
  unfold lastSome
  rw [List.filterMap_append]
  cases hread : read e with
  | none => simp [hread]
  | some b => simp [hread]

theorem exists_mem_of_lastSome {read : Event S → Option β} {h : List (Event S)} {b : β}
    (hlast : lastSome read h = some b) : ∃ e ∈ h, read e = some b :=
  List.mem_filterMap.mp (List.mem_of_getLast? hlast)

end Interaction

end Ao2
