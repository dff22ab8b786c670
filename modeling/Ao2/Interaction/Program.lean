import Mathlib.Logic.Basic
import Mathlib.Tactic.Common

/-!
# Sequential programs over an interface of operations

A command that reads and replaces files, asks a clock and runs child processes is a sequential
program that talks to a world it does not own. `Prog S ε α` is such a program with the world left
out: a tree whose nodes are operations of the interface `S` and whose branches are the answers.

Nothing here says what an operation does. That is `Machine`, one module on; keeping the two apart
is what lets one and the same program be run to its end, stopped after any number of operations,
or interleaved with others.
-/

namespace Ao2

namespace Interaction

/-- The operations of an interface, each with the type of its answer. -/
structure Signature where
  /-- The operations. -/
  Op : Type
  /-- What the world answers to an operation. -/
  Ans : Op → Type

/-- A program over the interface `S` that returns an `α` or fails with an `ε`. -/
inductive Prog (S : Signature) (ε α : Type) : Type
  /-- Return a value. -/
  | done (a : α) : Prog S ε α
  /-- Stop with an error. -/
  | fail (e : ε) : Prog S ε α
  /-- Perform an operation and go on with its answer. -/
  | ask (o : S.Op) (k : S.Ans o → Prog S ε α) : Prog S ε α

namespace Prog

variable {S : Signature} {ε α β γ : Type}

/-- Sequencing. A failure skips what follows. -/
def bind : Prog S ε α → (α → Prog S ε β) → Prog S ε β
  | .done a, f => f a
  | .fail e, _ => .fail e
  | .ask o k, f => .ask o fun a => (k a).bind f

/-- Perform one operation and return its answer. -/
def perform (o : S.Op) : Prog S ε (S.Ans o) := .ask o .done

/-- Return the value of a result, or fail with its error. -/
def ofExcept : Except ε α → Prog S ε α
  | .ok a => .done a
  | .error e => .fail e

instance : Monad (Prog S ε) where
  pure := .done
  bind := bind

@[simp] theorem pure_eq (a : α) : (pure a : Prog S ε α) = .done a := rfl

@[simp] theorem bind_eq (p : Prog S ε α) (f : α → Prog S ε β) : p >>= f = p.bind f := rfl

@[simp] theorem done_bind (a : α) (f : α → Prog S ε β) : (done a : Prog S ε α).bind f = f a := rfl

@[simp] theorem fail_bind (e : ε) (f : α → Prog S ε β) : (fail e : Prog S ε α).bind f = .fail e :=
  rfl

@[simp] theorem ask_bind (o : S.Op) (k : S.Ans o → Prog S ε α) (f : α → Prog S ε β) :
    (ask o k).bind f = .ask o fun a => (k a).bind f := rfl

@[simp] theorem ofExcept_ok (a : α) : (ofExcept (.ok a) : Prog S ε α) = .done a := rfl

@[simp] theorem ofExcept_error (e : ε) : (ofExcept (.error e) : Prog S ε α) = .fail e := rfl

theorem bind_assoc (p : Prog S ε α) (f : α → Prog S ε β) (g : β → Prog S ε γ) :
    (p.bind f).bind g = p.bind fun a => (f a).bind g := by
  induction p with
  | done a => rfl
  | fail e => rfl
  | ask o k ih => simp only [ask_bind, ih]

/-- Run `p`, and perform `release` on the way out whether `p` returned or failed: a guard object
dropped at the end of its scope. -/
def ensuring (release : S.Op) : Prog S ε α → Prog S ε α
  | .done a => .ask release fun _ => .done a
  | .fail e => .ask release fun _ => .fail e
  | .ask o k => .ask o fun a => (k a).ensuring release

/-- Run `p` and return how it ended. -/
def attempt {ε' : Type} : Prog S ε α → Prog S ε' (Except ε α)
  | .done a => .done (.ok a)
  | .fail e => .done (.error e)
  | .ask o k => .ask o fun a => (k a).attempt

/-- Run `p` so many times. A failure skips the rest. -/
def times (p : Prog S ε Unit) : ℕ → Prog S ε Unit
  | 0 => .done ()
  | n + 1 => p.bind fun _ => p.times n

/-- The program has no way to fail. -/
def Total : Prog S ε α → Prop
  | .done _ => True
  | .fail _ => False
  | .ask _ k => ∀ a, (k a).Total

theorem Total.bind {p : Prog S ε α} {f : α → Prog S ε β} (hp : p.Total) (hf : ∀ a, (f a).Total) :
    (p.bind f).Total := by
  induction p with
  | done a => exact hf a
  | fail e => exact hp.elim
  | ask o k ih => exact fun a => ih a (hp a)

/-- Whatever it is answered, the program performs no operation but these. -/
def Only (P : S.Op → Prop) : Prog S ε α → Prop
  | .done _ => True
  | .fail _ => True
  | .ask o k => P o ∧ ∀ a, (k a).Only P

section

variable {P : S.Op → Prop}

theorem Only.bind {p : Prog S ε α} {f : α → Prog S ε β} (hp : p.Only P)
    (hf : ∀ a, (f a).Only P) : (p.bind f).Only P := by
  induction p with
  | done a => exact hf a
  | fail e => trivial
  | ask o k ih => exact ⟨hp.1, fun a => ih a (hp.2 a)⟩

theorem Only.mono {P' : S.Op → Prop} {p : Prog S ε α} (hp : p.Only P) (hP : ∀ o, P o → P' o) :
    p.Only P' := by
  induction p with
  | done a => trivial
  | fail e => trivial
  | ask o k ih => exact ⟨hP o hp.1, fun a => ih a (hp.2 a)⟩

theorem Only.attempt {ε' : Type} {p : Prog S ε α} (hp : p.Only P) :
    (p.attempt : Prog S ε' (Except ε α)).Only P := by
  induction p with
  | done a => trivial
  | fail e => trivial
  | ask o k ih => exact ⟨hp.1, fun a => ih a (hp.2 a)⟩

theorem Only.ofExcept (r : Except ε α) : (ofExcept r : Prog S ε α).Only P := by
  cases r <;> trivial

theorem Only.ite {c : Prop} [Decidable c] {p q : Prog S ε α} (hp : p.Only P) (hq : q.Only P) :
    (if c then p else q).Only P := by
  split
  · exact hp
  · exact hq

end

/-- Whatever it is answered, the program performs at most so many of these operations. -/
def AtMost (P : S.Op → Bool) : ℕ → Prog S ε α → Prop
  | _, .done _ => True
  | _, .fail _ => True
  | n, .ask o k => if P o then ∃ m, n = m + 1 ∧ ∀ a, (k a).AtMost P m else ∀ a, (k a).AtMost P n

namespace AtMost

variable {P : S.Op → Bool} {m n : ℕ}

theorem mono {p : Prog S ε α} (h : p.AtMost P m) (hmn : m ≤ n) : p.AtMost P n := by
  induction p generalizing m n with
  | done a => trivial
  | fail e => trivial
  | ask o k ih =>
    rw [AtMost] at h ⊢
    by_cases hP : P o = true
    · rw [if_pos hP] at h ⊢
      obtain ⟨m', rfl, h⟩ := h
      exact ⟨n - 1, by omega, fun a => ih a (h a) (by omega)⟩
    · rw [if_neg hP] at h ⊢
      exact fun a => ih a (h a) hmn

theorem bind {p : Prog S ε α} {f : α → Prog S ε β} (hp : p.AtMost P m)
    (hf : ∀ a, (f a).AtMost P n) : (p.bind f).AtMost P (m + n) := by
  induction p generalizing m with
  | done a => exact (hf a).mono (Nat.le_add_left n m)
  | fail e => trivial
  | ask o k ih =>
    rw [ask_bind, AtMost]
    rw [AtMost] at hp
    by_cases hP : P o = true
    · rw [if_pos hP] at hp ⊢
      obtain ⟨m', rfl, hp⟩ := hp
      exact ⟨m' + n, by omega, fun a => ih a (hp a)⟩
    · rw [if_neg hP] at hp ⊢
      exact fun a => ih a (hp a)

theorem attempt {ε' : Type} {p : Prog S ε α} (hp : p.AtMost P n) :
    (p.attempt : Prog S ε' (Except ε α)).AtMost P n := by
  induction p generalizing n with
  | done a => trivial
  | fail e => trivial
  | ask o k ih =>
    rw [Prog.attempt, AtMost]
    rw [AtMost] at hp
    by_cases hP : P o = true
    · rw [if_pos hP] at hp ⊢
      obtain ⟨m, hm, hp⟩ := hp
      exact ⟨m, hm, fun a => ih a (hp a)⟩
    · rw [if_neg hP] at hp ⊢
      exact fun a => ih a (hp a)

/-- An operation that does not count. -/
theorem ask {o : S.Op} {k : S.Ans o → Prog S ε α} (ho : P o = false) (hk : ∀ a, (k a).AtMost P n) :
    (Prog.ask o k).AtMost P n := by
  rw [AtMost, if_neg (by rw [ho]; exact Bool.false_ne_true)]
  exact hk

theorem ofExcept (r : Except ε α) : (ofExcept r : Prog S ε α).AtMost P n := by
  cases r <;> trivial

end AtMost

end Prog

end Interaction

end Ao2
