import Ao2.Checks
import Ao2.Interaction.Machine

/-!
# Programs with a working state

A command that loads a record, works on its own copy of it and writes the copy back is a sequential
program with a state that no one else sees. `StateT σ (Prog S ε)` is such a program; `wpS` is its
weakest precondition, over the working state and the world together.

When the program fails the working state is lost: a failure leaves the world only.
-/

namespace Ao2

namespace Interaction

variable {S : Signature} {W ε σ α β : Type}

namespace Machine

variable (M : Machine S W)

/-- Weakest precondition of a program with a working state. -/
def wpS (C : S.Op → W → Prop) (m : StateT σ (Prog S ε) α) (Q : α → σ → W → Prop) (E : ε → W → Prop)
    (s : σ) (w : W) : Prop :=
  M.wp C (m s) (fun r w' => Q r.1 r.2 w') E w

variable {M} {C C' : S.Op → W → Prop} {Q Q' : α → σ → W → Prop} {E E' : ε → W → Prop} {s : σ} {w : W}

theorem wpS_pure {a : α} : M.wpS C (pure a : StateT σ (Prog S ε) α) Q E s w ↔ Q a s w := Iff.rfl

theorem wpS_bind {m : StateT σ (Prog S ε) α} {f : α → StateT σ (Prog S ε) β}
    {Q : β → σ → W → Prop} :
    M.wpS C (m >>= f) Q E s w ↔ M.wpS C m (fun a s' w' => M.wpS C (f a) Q E s' w') E s w :=
  wp_bind (p := m s) (f := fun r => f r.1 r.2)

theorem wpS_get {Q : σ → σ → W → Prop} :
    M.wpS C (get : StateT σ (Prog S ε) σ) Q E s w ↔ Q s s w := Iff.rfl

theorem wpS_modify {g : σ → σ} {Q : PUnit → σ → W → Prop} :
    M.wpS C (modify g : StateT σ (Prog S ε) PUnit) Q E s w ↔ Q ⟨⟩ (g s) w := Iff.rfl

/-- A program without a working state leaves the state as it is. -/
theorem wpS_lift {p : Prog S ε α} {Q : α → σ → W → Prop} :
    M.wpS C (liftM p : StateT σ (Prog S ε) α) Q E s w ↔ M.wp C p (fun a => Q a s) E w :=
  wp_bind (p := p) (f := fun a => .done (a, s))

/-- **Consequence.** -/
theorem wpS_mono {m : StateT σ (Prog S ε) α} (h : M.wpS C m Q E s w) (hC : ∀ o w, C o w → C' o w)
    (hQ : ∀ a s w, Q a s w → Q' a s w) (hE : ∀ e w, E e w → E' e w) : M.wpS C' m Q' E' s w :=
  wp_mono h hC (fun r w' => hQ r.1 r.2 w') hE

end Machine

/-! ### Programs that keep to some operations -/

/-- Whatever its state is and whatever it is answered, the program performs no operation but
these. -/
def OnlyS (P : S.Op → Prop) (m : StateT σ (Prog S ε) α) : Prop := ∀ s, (m s).Only P

namespace OnlyS

variable {P : S.Op → Prop}

theorem pure (a : α) : OnlyS P (pure a : StateT σ (Prog S ε) α) := fun _ => trivial

theorem get : OnlyS P (get : StateT σ (Prog S ε) σ) := fun _ => trivial

theorem modify (g : σ → σ) : OnlyS P (modify g : StateT σ (Prog S ε) PUnit) := fun _ => trivial

theorem lift {p : Prog S ε α} (hp : p.Only P) : OnlyS P (liftM p : StateT σ (Prog S ε) α) :=
  fun _ => hp.bind fun _ => trivial

theorem bind {m : StateT σ (Prog S ε) α} {f : α → StateT σ (Prog S ε) β} (hm : OnlyS P m)
    (hf : ∀ a, OnlyS P (f a)) : OnlyS P (m >>= f) :=
  fun s => (hm s).bind fun r => hf r.1 r.2

theorem ite {c : Prop} [Decidable c] {m n : StateT σ (Prog S ε) α} (hm : OnlyS P m)
    (hn : OnlyS P n) : OnlyS P (if c then m else n) := by
  split
  · exact hm
  · exact hn

end OnlyS

end Interaction

end Ao2

/-! ## Programs that are run again -/

namespace Ao2

namespace Interaction

variable {σ ε α β γ : Type}

end Interaction

end Ao2
