import Ao2.Run.Protocol

/-!
# Programs that follow the protocol

`FollowsCmd runId p s Q`: from the state `s`, the program `p` takes steps of the protocol only, so
that it ends in `Q`, fails without a flight, and leaves a `Halt` of a state on its way wherever the
process stops. `Follows` is the same for a step on a working copy, which is that of the flight.

The rules are those of sequential programs: `bind`, `mono`, one rule for bookkeeping and one for an
operation that is a move.

## Main results

* `FollowsCmd.run`, `FollowsCmd.stopped` — what following the protocol says of runs
-/

namespace Ao2

open Interaction

/-! ### Steps without a way to fail -/

/-- A step that has no way to fail. -/
def Unfailing {α : Type} (m : RunM α) : Prop := ∀ ctx, (m ctx).Total

namespace Unfailing

variable {α β : Type}

theorem pure (a : α) : Unfailing (pure a) := fun _ => trivial

theorem get : Unfailing (get : RunM RunContext) := fun _ => trivial

theorem modify (f : RunContext → RunContext) : Unfailing (modify f) := fun _ => trivial

theorem lift {p : Cmd α} (h : p.Total) : Unfailing (liftM p) :=
  fun _ => h.bind fun _ => trivial

theorem bind {m : RunM α} {f : α → RunM β} (hm : Unfailing m) (hf : ∀ a, Unfailing (f a)) :
    Unfailing (m >>= f) := fun ctx => (hm ctx).bind fun r => hf r.1 r.2

variable [Platform]

theorem emitCurrent (eventType : String) (roleId taskId : Option String) (actor : Actor)
    (payload : Json) :
    Unfailing (do Ao2.emit (← MonadState.get) eventType roleId taskId actor payload) :=
  .bind .get fun _ => .lift fun _ _ _ => trivial

theorem storeArtifact (artifactType producer fileName mediaType : String) (content : Content)
    (inputRefs : List String) :
    Unfailing (storeArtifact artifactType producer fileName mediaType content inputRefs) :=
  .bind (.lift fun _ _ _ => trivial) fun _ =>
    .bind (.bind (.modify _) fun _ => emitCurrent _ _ _ _ _) fun _ => .pure _

end Unfailing

/-! ### Following the protocol -/

variable [Platform] {α β : Type} {runId : String}

/-- What is left when a process stops before an operation. -/
def Stopped (runId : String) (s : State) (o : Op) (w' : World) : Prop :=
  ∃ s', Reach runId s s' ∧ Halt o s' w'

/-- The program takes steps of the protocol only. -/
def FollowsCmd (runId : String) (p : Cmd α) (s : State) (Q : α → State → Prop) : Prop :=
  runMachine.wp (Stopped runId s) p (fun a w' => ∃ fl', Reach runId s (w', fl') ∧ Q a (w', fl'))
    (fun _ w' => Reach runId s (w', none)) s.1

/-- The step takes steps of the protocol only, with the working copy of the flight. -/
def Follows (runId : String) (m : RunM α) (w : World) (fl : Flight)
    (Q : α → World → Flight → Prop) : Prop :=
  FollowsCmd runId (m fl.ctx) (w, some fl) fun r s' =>
    ∃ fl', s'.2 = some fl' ∧ fl'.ctx = r.2 ∧ Q r.1 s'.1 fl'

namespace FollowsCmd

variable {s s' : State} {w : World} {Q : α → State → Prop}

theorem pure {a : α} (h : Q a s) : FollowsCmd runId (pure a : Cmd α) s Q := ⟨s.2, .refl s, h⟩

/-- Steps of the protocol that the program does not have to be asked for. -/
theorem after {fl : Option Flight} {p : Cmd α} (hs : Reach runId (w, fl) s') (hw : s'.1 = w)
    (h : FollowsCmd runId p s' Q) : FollowsCmd runId p (w, fl) Q := by
  unfold FollowsCmd at h
  rw [hw] at h
  refine Machine.wp_mono h (fun o w' ⟨s'', h₁, h₂⟩ => ⟨s'', hs.trans h₁, h₂⟩) ?_ fun e w' h' =>
    hs.trans h'
  rintro a w' ⟨fl', h₁, h₂⟩
  exact ⟨fl', hs.trans h₁, h₂⟩

/-- **Sequencing.** -/
theorem bind {p : Cmd α} {f : α → Cmd β} {Q : β → State → Prop}
    (h : FollowsCmd runId p s fun a s' => FollowsCmd runId (f a) s' Q) :
    FollowsCmd runId (p >>= f) s Q := by
  refine Machine.wp_bind.mpr (Machine.wp_mono h (fun _ _ => id) ?_ fun _ _ => id)
  rintro a w' ⟨fl', hs, h'⟩
  refine Machine.wp_mono h' (fun o w'' ⟨s'', h₁, h₂⟩ => ⟨s'', hs.trans h₁, h₂⟩) ?_ fun e w'' h'' =>
    hs.trans h''
  rintro b w'' ⟨fl'', h₁, h₂⟩
  exact ⟨fl'', hs.trans h₁, h₂⟩

/-- **Consequence.** -/
theorem mono {p : Cmd α} {Q' : α → State → Prop} (h : FollowsCmd runId p s Q)
    (hQ : ∀ a s', Q a s' → Q' a s') : FollowsCmd runId p s Q' :=
  h.post fun a _ ⟨fl', h₁, h₂⟩ => ⟨fl', h₁, hQ a _ h₂⟩

theorem reach_quiet {fl : Option Flight} {w' : World} (h : Quiet w w') :
    Reach runId (w, fl) (w', fl) := by
  cases fl with
  | none => exact .move (.quiet h)
  | some fl => exact .move (.calm (.of_quiet h))

/-- An operation that is a move of the protocol, but for being counted. -/
theorem perform {fl fl' : Option Flight} {o : Op} {a : o.Ans} {w' : World} {Q : o.Ans → State → Prop}
    (heffect : w.effect o = (a, w')) (hmove : Reach runId (w, fl) (w', fl'))
    (h : Q a (w'.count, fl')) : FollowsCmd runId (op o) (w, fl) Q := by
  refine wp_op.mpr ⟨⟨_, .refl _, .clean⟩, fl', ?_, ?_⟩
  · rw [heffect]
    exact hmove.trans (reach_quiet (.count w'))
  · rwa [heffect]

theorem reach_land {fl : Option Flight} {w' : World} (hend : fl.all (·.phase.mayEnd))
    (h : Quiet w w') : Reach runId (w, fl) (w', none) := by
  cases fl with
  | none => exact reach_quiet h
  | some fl => exact (reach_quiet h).trans (.move (.land hend))

theorem stopped_torn {fl : Option Flight} {o : Op} {w' : World} (h : Torn w o w') :
    Stopped runId (w, fl) o w' := by
  rcases h with hq | ⟨rfl, w₁, e, hq, he, rfl⟩
  · exact ⟨_, reach_quiet hq, .clean⟩
  · exact ⟨_, reach_quiet hq, .torn he⟩

/-- **Bookkeeping**, with or without a flight; with one, in a phase in which it may end. -/
theorem quiet {fl : Option Flight} {p : Cmd α} (hp : QuietCmd p) (hend : fl.all (·.phase.mayEnd))
    (h : ∀ a w', Quiet w w' → Q a (w', fl)) : FollowsCmd runId p (w, fl) Q :=
  Machine.wp_mono (hp w) (fun _ _ => stopped_torn) (fun a w' hq => ⟨fl, reach_quiet hq, h a w' hq⟩)
    fun _ _ => reach_land hend

/-- An operation that only answers. -/
theorem read {fl : Option Flight} {o : Op} {a : o.Ans} {Q : o.Ans → State → Prop}
    (heffect : w.effect o = (a, w)) (h : Q a (w.count, fl)) : FollowsCmd runId (op o) (w, fl) Q :=
  perform heffect (.refl _) h

theorem orBail {fl : Option Flight} {r : Except String α} (hend : fl.all (·.phase.mayEnd))
    (h : ∀ a, r = .ok a → Q a (w, fl)) : FollowsCmd runId (orBail r) (w, fl) Q := by
  cases r with
  | error e => exact reach_land hend (.refl w)
  | ok a => exact .pure (h a rfl)

theorem bail {fl : Option Flight} {message : String} (hend : fl.all (·.phase.mayEnd)) :
    FollowsCmd runId (bail message : Cmd α) (w, fl) Q := reach_land hend (.refl w)

/-- The lock is released on every way out. -/
theorem releasing {p : Cmd α} {Q : α → State → Prop}
    (h : FollowsCmd runId p s fun a s' => Q a ({ s'.1 with locked := false }.count, s'.2)) :
    FollowsCmd runId (p.ensuring .releaseLock) s Q := by
  have hrelease (w' : World) (fl' : Option Flight) :
      Reach runId (w', fl') ({ w' with locked := false }.count, fl') :=
    .trans (.move (.outside w'.target false)) (reach_quiet (.count _))
  refine Machine.wp_ensuring (Machine.wp_mono h (fun _ _ => id) ?_ ?_)
  · rintro a w' ⟨fl', h₁, h₂⟩
    exact ⟨⟨_, h₁, .clean⟩, fl', h₁.trans (hrelease w' fl'), h₂⟩
  · intro e w' h₁
    exact ⟨⟨_, h₁, .clean⟩, h₁.trans (hrelease w' none)⟩

/-- What following the protocol says of a run to the end. -/
theorem run {p : Cmd α} (h : FollowsCmd runId p s fun _ s' => s'.2 = none) :
    Reach runId s ((runMachine.run p s.1).2, none) := by
  rcases h.run_world with ⟨a, fl', hr, hfl⟩ | ⟨e, hr⟩
  · rwa [show fl' = none from hfl] at hr
  · exact hr

end FollowsCmd

namespace Follows

variable {w : World} {fl : Flight} {Q : α → World → Flight → Prop}

theorem pure {a : α} (h : Q a w fl) : Follows runId (pure a : RunM α) w fl Q :=
  FollowsCmd.pure (a := (a, fl.ctx)) (s := (w, some fl)) ⟨fl, rfl, rfl, h⟩

theorem get {Q : RunContext → World → Flight → Prop} (h : Q fl.ctx w fl) :
    Follows runId (get : RunM RunContext) w fl Q :=
  FollowsCmd.pure (a := (fl.ctx, fl.ctx)) (s := (w, some fl)) ⟨fl, rfl, rfl, h⟩

/-- **Sequencing.** -/
theorem bind {m : RunM α} {f : α → RunM β} {Q : β → World → Flight → Prop}
    (h : Follows runId m w fl fun a w' fl' => Follows runId (f a) w' fl' Q) :
    Follows runId (m >>= f) w fl Q := by
  refine FollowsCmd.bind (f := fun r => f r.1 r.2) (FollowsCmd.mono h ?_)
  rintro ⟨a, ctx'⟩ ⟨w', fl'⟩ ⟨fl'', rfl, rfl, h'⟩
  exact h'

/-- **Consequence.** -/
theorem mono {m : RunM α} {Q' : α → World → Flight → Prop} (h : Follows runId m w fl Q)
    (hQ : ∀ a w' fl', Q a w' fl' → Q' a w' fl') : Follows runId m w fl Q' :=
  FollowsCmd.mono h fun _ _ ⟨fl', h₁, h₂, h₃⟩ => ⟨fl', h₁, h₂, hQ _ _ _ h₃⟩

/-- A program without a working copy. -/
theorem lift {p : Cmd α} (h : FollowsCmd runId p (w, some fl) fun a s' =>
      ∃ fl', s'.2 = some fl' ∧ fl'.ctx = fl.ctx ∧ Q a s'.1 fl') :
    Follows runId (liftM p) w fl Q :=
  FollowsCmd.bind (f := fun a => .done (a, fl.ctx))
    (h.mono fun _ s' ⟨fl', h₁, h₂, h₃⟩ => FollowsCmd.pure (s := s') ⟨fl', h₁, h₂, h₃⟩)

/-- Steps of the protocol that the program does not have to be asked for. -/
theorem after {fl' : Flight} {m : RunM α} (hs : Reach runId (w, some fl) (w, some fl'))
    (hctx : fl'.ctx = fl.ctx) (h : Follows runId m w fl' Q) : Follows runId m w fl Q := by
  unfold Follows at h ⊢
  rw [hctx] at h
  exact FollowsCmd.after hs rfl h

/-- A change of the working copy that is a move of the protocol. -/
theorem modify {f : RunContext → RunContext} {fl' : Flight} {Q : PUnit → World → Flight → Prop}
    (hmove : Reach runId (w, some fl) (w, some fl')) (hctx : fl'.ctx = f fl.ctx) (h : Q ⟨⟩ w fl') :
    Follows runId (modify f) w fl Q :=
  FollowsCmd.after (p := (.done (⟨⟩, f fl.ctx) : Cmd (PUnit × RunContext))) hmove rfl
    (FollowsCmd.pure (s := (w, some fl')) ⟨fl', rfl, hctx, h⟩)

/-- An operation that is a move of the protocol, but for being counted. -/
theorem perform {fl' : Flight} {o : Op} {a : o.Ans} {w' : World} {Q : o.Ans → World → Flight → Prop}
    (heffect : w.effect o = (a, w')) (hmove : Reach runId (w, some fl) (w', some fl'))
    (hctx : fl'.ctx = fl.ctx) (h : Q a w'.count fl') : Follows runId (liftM (op o)) w fl Q :=
  lift (.perform heffect hmove ⟨fl', rfl, hctx, h⟩)

theorem reach_calm {ctx' : RunContext} {w' : World} (h : Calm fl.ctx w ctx' w') :
    Reach runId (w, some fl) (w', some { fl with ctx := ctx' }) := .move (.calm h)

theorem reach_count : Reach runId (w, some fl) (w.count, some fl) :=
  FollowsCmd.reach_quiet (.count w)

/-- An operation that only answers. -/
theorem read {o : Op} {a : o.Ans} {Q : o.Ans → World → Flight → Prop}
    (heffect : w.effect o = (a, w)) (h : Q a w.count fl) : Follows runId (liftM (op o)) w fl Q :=
  perform heffect (.refl _) rfl h

/-- A step of which a specification says that it is bookkeeping. -/
theorem of_wpS {m : RunM α} {P : α → RunContext → World → Prop}
    (hm : runMachine.wpS (Torn w) m P (fun _ w' => Quiet w w') fl.ctx w) (hend : fl.phase.mayEnd)
    (h : ∀ a ctx' w', P a ctx' w' →
      ∃ fl', fl'.ctx = ctx' ∧ Reach runId (w, some fl) (w', some fl') ∧ Q a w' fl') :
    Follows runId m w fl Q := by
  refine Machine.wp_mono hm (fun _ _ => FollowsCmd.stopped_torn) ?_
    fun _ _ => FollowsCmd.reach_land hend
  rintro ⟨a, ctx'⟩ w' hP
  obtain ⟨fl', hctx, hreach, hQ⟩ := h a ctx' w' hP
  exact ⟨some fl', hreach, fl', rfl, hctx, hQ⟩

/-- **Bookkeeping.** -/
theorem calm {m : RunM α} (hm : CalmStep m) (hend : fl.phase.mayEnd)
    (h : ∀ a ctx' w', Calm fl.ctx w ctx' w' → Q a w' { fl with ctx := ctx' }) :
    Follows runId m w fl Q :=
  of_wpS (hm fl.ctx w) hend fun a ctx' w' hc => ⟨_, rfl, reach_calm hc, h a ctx' w' hc⟩

/-- Bookkeeping that cannot fail, in a phase in which the command may not end. -/
theorem calm_unfailing {m : RunM α} (hm : CalmStep m) (htotal : Unfailing m)
    (h : ∀ a ctx' w', Calm fl.ctx w ctx' w' → Q a w' { fl with ctx := ctx' }) :
    Follows runId m w fl Q := by
  refine Machine.wp.of_total (Machine.wp_mono (hm fl.ctx w) (fun _ _ => FollowsCmd.stopped_torn)
    ?_ fun _ _ => id) (htotal _)
  rintro ⟨a, ctx'⟩ w' hc
  exact ⟨_, reach_calm hc, _, rfl, rfl, h a ctx' w' hc⟩

/-- A quiet program. -/
theorem quiet {p : Cmd α} (hp : QuietCmd p) (hend : fl.phase.mayEnd)
    (h : ∀ a w', Quiet w w' → Q a w' fl) : Follows runId (liftM p) w fl Q :=
  lift (.quiet hp hend fun a w' hq => ⟨fl, rfl, rfl, h a w' hq⟩)

theorem orBail {r : Except String α} (hend : fl.phase.mayEnd) (h : ∀ a, r = .ok a → Q a w fl) :
    Follows runId (liftM (orBail r)) w fl Q :=
  lift (.orBail hend fun a ha => ⟨fl, rfl, rfl, h a ha⟩)

theorem bail {message : String} (hend : fl.phase.mayEnd) :
    Follows runId (liftM (bail message : Cmd α)) w fl Q := lift (.bail hend)

end Follows

end Ao2
