import Ao2.Interaction.Program

/-!
# Machines, runs and stopped runs

A `Machine` gives the operations of an interface their meaning on a world. Whatever the world does
not decide (a clock reading, the outcome of a child process) is part of the world, so a machine is
a function and every statement about all behaviours is one about all worlds.

A run can end in three ways: the program returns, the program fails, or the process stops between
two operations. `Machine.run` is the first two; `Machine.runFor n` is the third, for a stop after
`n` operations. A late enough stop is no stop at all.

## Main results

* `wp_bind`, `wp_mono` — the two rules every specification goes through
* `run_times_eq_ok` — a run of a program that is repeated
* `wp_of_only` — what a program does that keeps to some operations
* `wp.run`, `wp.runFor` — what a weakest precondition says about runs and about stopped runs
-/

namespace Ao2

namespace Interaction

variable {S : Signature} {W ε α β : Type}

/-- The meaning of an interface on the worlds `W`: what each operation answers and leaves. -/
structure Machine (S : Signature) (W : Type) where
  /-- Perform one operation. -/
  step : (o : S.Op) → W → S.Ans o × W

namespace Machine

variable (M : Machine S W)

/-- Run a program to its end. -/
def run : Prog S ε α → W → Except ε α × W
  | .done a, w => (.ok a, w)
  | .fail e, w => (.error e, w)
  | .ask o k, w => run (k (M.step o w).1) (M.step o w).2

/-- The world left when the process stops after `n` operations. -/
def runFor : ℕ → Prog S ε α → W → W
  | 0, _, w => w
  | _ + 1, .done _, w => w
  | _ + 1, .fail _, w => w
  | n + 1, .ask o k, w => runFor n (k (M.step o w).1) (M.step o w).2

@[simp] theorem run_done (a : α) (w : W) : M.run (.done a : Prog S ε α) w = (.ok a, w) := rfl

@[simp] theorem run_fail (e : ε) (w : W) : M.run (.fail e : Prog S ε α) w = (.error e, w) := rfl

theorem run_ofExcept (r : Except ε α) (w : W) : M.run (.ofExcept r : Prog S ε α) w = (r, w) := by
  cases r <;> rfl

@[simp] theorem run_ask (o : S.Op) (k : S.Ans o → Prog S ε α) (w : W) :
    M.run (.ask o k) w = M.run (k (M.step o w).1) (M.step o w).2 := rfl

@[simp] theorem runFor_zero (p : Prog S ε α) (w : W) : M.runFor 0 p w = w := rfl

@[simp] theorem runFor_done (n : ℕ) (a : α) (w : W) :
    M.runFor n (.done a : Prog S ε α) w = w := by cases n <;> rfl

@[simp] theorem runFor_fail (n : ℕ) (e : ε) (w : W) :
    M.runFor n (.fail e : Prog S ε α) w = w := by cases n <;> rfl

@[simp] theorem runFor_ask (n : ℕ) (o : S.Op) (k : S.Ans o → Prog S ε α) (w : W) :
    M.runFor (n + 1) (.ask o k) w = M.runFor n (k (M.step o w).1) (M.step o w).2 := rfl

theorem run_bind (p : Prog S ε α) (f : α → Prog S ε β) (w : W) :
    M.run (p.bind f) w =
      match M.run p w with
      | (.ok a, w') => M.run (f a) w'
      | (.error e, w') => (.error e, w') := by
  induction p generalizing w with
  | done a => rfl
  | fail e => rfl
  | ask o k ih => rw [Prog.ask_bind, run_ask, run_ask, ih]

/-- The operation before which a process that stops after `n` operations stops; there is none once
the program has come to its end. -/
def nextOp : ℕ → Prog S ε α → W → Option S.Op
  | _, .done _, _ => none
  | _, .fail _, _ => none
  | 0, .ask o _, _ => some o
  | n + 1, .ask o k, w => nextOp n (k (M.step o w).1) (M.step o w).2

@[simp] theorem nextOp_done (n : ℕ) (a : α) (w : W) :
    M.nextOp n (.done a : Prog S ε α) w = none := by cases n <;> rfl

@[simp] theorem nextOp_fail (n : ℕ) (e : ε) (w : W) :
    M.nextOp n (.fail e : Prog S ε α) w = none := by cases n <;> rfl

/-- A process that has nothing left to do has come to the end of its program. -/
theorem runFor_eq_run_of_nextOp {n : ℕ} {p : Prog S ε α} {w : W} (h : M.nextOp n p w = none) :
    M.runFor n p w = (M.run p w).2 := by
  induction p generalizing w n with
  | done a => simp
  | fail e => simp
  | ask o k ih =>
    cases n with
    | zero => exact absurd h (by simp [nextOp])
    | succ n => rw [runFor_ask, run_ask, ih _ h]

/-! ## Weakest preconditions

`C` is asked before every operation, of the operation and of the world it would be performed in: it
describes the worlds a stopped process leaves, and how far the process had come. -/

/-- From here the program ends in `Q` or fails in `E`, and `C` holds before each operation. -/
def wp (C : S.Op → W → Prop) : Prog S ε α → (α → W → Prop) → (ε → W → Prop) → W → Prop
  | .done a, Q, _, w => Q a w
  | .fail e, _, E, w => E e w
  | .ask o k, Q, E, w => C o w ∧ wp C (k (M.step o w).1) Q E (M.step o w).2

variable {M} {C C' : S.Op → W → Prop} {Q Q' : α → W → Prop} {E E' : ε → W → Prop} {w : W}

/-- A run of two programs that returns. -/
theorem run_bind_eq_ok {p : Prog S ε α} {f : α → Prog S ε β} {b : β} {w' : W} :
    M.run (p.bind f) w = (.ok b, w') ↔
      ∃ a w₁, M.run p w = (.ok a, w₁) ∧ M.run (f a) w₁ = (.ok b, w') := by
  rw [run_bind]
  rcases M.run p w with ⟨⟨e⟩ | ⟨a⟩, w₁⟩
  · exact iff_of_false nofun fun ⟨_, _, h, _⟩ => by cases h
  · refine ⟨fun h => ⟨a, w₁, rfl, h⟩, ?_⟩
    rintro ⟨_, _, h, h'⟩
    cases h
    exact h'

theorem run_bind_of_ok {p : Prog S ε α} {f : α → Prog S ε β} {a : α} {w' : W}
    (h : M.run p w = (.ok a, w')) : M.run (p.bind f) w = M.run (f a) w' := by
  rw [run_bind, h]

/-- **A program that is repeated** comes to its end exactly if every repetition does, from where the
ones before it have led. -/
theorem run_times_eq_ok {p : Prog S ε Unit} (n : ℕ) (w : W) :
    (M.run (p.times n) w).1 = .ok () ↔ ∀ i < n, (M.run p (M.run (p.times i) w).2).1 = .ok () := by
  induction n generalizing w with
  | zero => simp [Prog.times]
  | succ n ih =>
    rcases hp : M.run p w with ⟨⟨e⟩ | ⟨⟨⟩⟩, w'⟩
    · have hrest : M.run (p.times (n + 1)) w = (.error e, w') := by
        rw [Prog.times, run_bind, hp]
      rw [hrest]
      refine iff_of_false nofun fun h => ?_
      have hfirst := h 0 (Nat.succ_pos n)
      rw [Prog.times, run_done, hp] at hfirst
      cases hfirst
    · have hrest (i : ℕ) : M.run (p.times (i + 1)) w = M.run (p.times i) w' := by
        rw [Prog.times, run_bind_of_ok hp]
      rw [hrest, ih]
      constructor
      · intro h i hi
        cases i with
        | zero =>
          rw [Prog.times, run_done, hp]
        | succ i =>
          rw [hrest]
          exact h i (Nat.lt_of_succ_lt_succ hi)
      · intro h i hi
        have hnext := h (i + 1) (Nat.succ_lt_succ hi)
        rwa [hrest] at hnext

@[simp] theorem wp_done (a : α) : M.wp C (.done a : Prog S ε α) Q E w ↔ Q a w := Iff.rfl

@[simp] theorem wp_fail (e : ε) : M.wp C (.fail e : Prog S ε α) Q E w ↔ E e w := Iff.rfl

theorem wp_ask {o : S.Op} {k : S.Ans o → Prog S ε α} :
    M.wp C (.ask o k) Q E w ↔
      C o w ∧ M.wp C (k (M.step o w).1) Q E (M.step o w).2 := Iff.rfl

/-- **Sequencing.** The second program's precondition is the first one's postcondition. -/
theorem wp_bind {p : Prog S ε α} {f : α → Prog S ε β} {Q : β → W → Prop} :
    M.wp C (p.bind f) Q E w ↔ M.wp C p (fun a w' => M.wp C (f a) Q E w') E w := by
  induction p generalizing w with
  | done a => rfl
  | fail e => rfl
  | ask o k ih => rw [Prog.ask_bind, wp_ask, wp_ask, ih]

/-- A check ends in its value or in its error. -/
theorem wp_ofExcept {r : Except ε α} (hok : ∀ a, r = .ok a → Q a w)
    (herror : ∀ e, r = .error e → E e w) : M.wp C (.ofExcept r) Q E w := by
  cases r with
  | error e => exact herror e rfl
  | ok a => exact hok a rfl

/-- What is done after a check. -/
theorem wp_ofExcept_bind {r : Except ε α} {f : α → Prog S ε β} {Q : β → W → Prop}
    (hok : ∀ a, r = .ok a → M.wp C (f a) Q E w) (herror : ∀ e, r = .error e → E e w) :
    M.wp C ((Prog.ofExcept r).bind f) Q E w :=
  wp_bind.mpr (wp_ofExcept hok herror)

/-- **Consequence.** -/
theorem wp_mono {p : Prog S ε α} (h : M.wp C p Q E w) (hC : ∀ o w, C o w → C' o w)
    (hQ : ∀ a w, Q a w → Q' a w) (hE : ∀ e w, E e w → E' e w) : M.wp C' p Q' E' w := by
  induction p generalizing w with
  | done a => exact hQ _ _ h
  | fail e => exact hE _ _ h
  | ask o k ih => exact ⟨hC _ _ h.1, ih _ h.2⟩

theorem wp.post {p : Prog S ε α} (h : M.wp C p Q E w) (hQ : ∀ a w, Q a w → Q' a w) :
    M.wp C p Q' E w :=
  wp_mono h (fun _ _ => id) hQ fun _ _ => id

/-- **Conjunction.** -/
theorem wp.and {p : Prog S ε α} (h : M.wp C p Q E w) (h' : M.wp C' p Q' E' w) :
    M.wp (fun o w => C o w ∧ C' o w) p (fun a w => Q a w ∧ Q' a w) (fun e w => E e w ∧ E' e w) w := by
  induction p generalizing w with
  | done a => exact ⟨h, h'⟩
  | fail e => exact ⟨h, h'⟩
  | ask o k ih => exact ⟨⟨h.1, h'.1⟩, ih _ h.2 h'.2⟩

/-- **Programs that keep to some operations.** What each of these does, the program does. -/
theorem wp_of_only {P : S.Op → Prop} {R : W → W → Prop} (hrefl : ∀ w, R w w)
    (htrans : ∀ {w w' w''}, R w w' → R w' w'' → R w w'')
    (hstep : ∀ o w, P o → R w (M.step o w).2) {p : Prog S ε α} (h : p.Only P) (w : W) :
    M.wp (fun o w' => P o ∧ R w w') p (fun _ w' => R w w') (fun _ w' => R w w') w := by
  induction p generalizing w with
  | done a => exact hrefl w
  | fail e => exact hrefl w
  | ask o k ih =>
    have hw : R w (M.step o w).2 := hstep o w h.1
    exact ⟨⟨h.1, hrefl w⟩, wp_mono (ih _ (h.2 _) _) (fun _ _ hC => ⟨hC.1, htrans hw hC.2⟩)
      (fun _ _ => htrans hw) fun _ _ => htrans hw⟩

/-- A program without a way to fail may be given any failure condition. -/
theorem wp.of_total {p : Prog S ε α} (h : M.wp C p Q E w) (hp : p.Total) : M.wp C p Q E' w := by
  induction p generalizing w with
  | done a => exact h
  | fail e => exact hp.elim
  | ask o k ih => exact ⟨h.1, ih _ h.2 (hp _)⟩

/-- A guarded program releases on both of its ways out. -/
theorem wp_ensuring {release : S.Op} {p : Prog S ε α}
    (h : M.wp C p (fun a w' => C release w' ∧ Q a (M.step release w').2)
      (fun e w' => C release w' ∧ E e (M.step release w').2) w) :
    M.wp C (p.ensuring release) Q E w := by
  induction p generalizing w with
  | done a => exact h
  | fail e => exact h
  | ask o k ih => exact ⟨h.1, ih _ h.2⟩

/-- How an attempt ends is how the program ends. -/
theorem wp_attempt {ε' : Type} {p : Prog S ε α} {Q : Except ε α → W → Prop} {E : ε' → W → Prop} :
    M.wp C p.attempt Q E w ↔ M.wp C p (fun a => Q (.ok a)) (fun e => Q (.error e)) w := by
  induction p generalizing w with
  | done a => rfl
  | fail e => rfl
  | ask o k ih => rw [Prog.attempt, wp_ask, wp_ask, ih]

/-- What a specification says of a run to the end. -/
theorem wp.run {p : Prog S ε α} (h : M.wp C p Q E w) :
    match M.run p w with
    | (.ok a, w') => Q a w'
    | (.error e, w') => E e w' := by
  induction p generalizing w with
  | done a => exact h
  | fail e => exact h
  | ask o k ih => rw [run_ask]; exact ih _ h.2

/-- What a specification says of the world at the end of a run. -/
theorem wp.run_world {p : Prog S ε α} (h : M.wp C p Q E w) :
    (∃ a, Q a (M.run p w).2) ∨ ∃ e, E e (M.run p w).2 := by
  have h := h.run
  rcases hr : M.run p w with ⟨⟨e⟩ | ⟨a⟩, w'⟩
  · rw [hr] at h
    exact .inr ⟨e, h⟩
  · rw [hr] at h
    exact .inl ⟨a, h⟩

/-- What a specification says of a stopped run. -/
theorem wp.runFor {p : Prog S ε α} (h : M.wp C p Q E w) {n : ℕ} {o : S.Op}
    (hn : M.nextOp n p w = some o) : C o (M.runFor n p w) := by
  induction p generalizing w n with
  | done a => simp at hn
  | fail e => simp at hn
  | ask o' k ih =>
    cases n with
    | zero =>
      obtain rfl : o' = o := by simpa [nextOp] using hn
      exact h.1
    | succ n => exact ih _ h.2 hn

/-- What a specification says of the world that a process leaves wherever it stops. -/
theorem wp.runFor_world {P : W → Prop} {p : Prog S ε α}
    (h : M.wp (fun _ => P) p (fun _ => P) (fun _ => P) w) (n : ℕ) : P (M.runFor n p w) := by
  cases hn : M.nextOp n p w with
  | none =>
    rw [runFor_eq_run_of_nextOp M hn]
    rcases h.run_world with ⟨_, h⟩ | ⟨_, h⟩
    · exact h
    · exact h
  | some o => exact h.runFor hn

end Machine

end Interaction

end Ao2
