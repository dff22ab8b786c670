import Mathlib.Data.Set.Card
import Mathlib.Logic.Relation

/-!
# First paths

Every key has a list of next keys. From one key to another there is a first path: it takes at each
key the first next one from which the other can still be reached without coming back. A search that
goes on from a key to its next ones in their order, each as far as it comes, goes along first paths.

A key is spanned from another if the first path to some key passes it and comes back to before it.
Keys that are spanned lie on a cycle; that all keys of a cycle are spanned depends on the order of
the next keys.

## Main results

* `free_iff` — a walk need not come back to where it starts
* `exists_firstPath` — there is a first path to what can be reached
* `firstPath_union_iff` — keys from which the end cannot be reached do not matter
* `found_iff` — whatever the order of the starts
-/

namespace Ao2

namespace Graphs

section

variable {κ : Type} (next : κ → List κ)

/-- There is a walk that keeps off some keys. -/
inductive Free (S : Set κ) : κ → κ → Prop
  | refl {a : κ} (ha : a ∉ S) : Free S a a
  | head {a b c : κ} (ha : a ∉ S) (hab : b ∈ next a) (h : Free S b c) : Free S a c

/-- **The first path** that keeps off some keys: at each key the first next one that leads to the
end. -/
inductive FirstPath : Set κ → κ → κ → List κ → Prop
  | here {S : Set κ} {a : κ} (ha : a ∉ S) : FirstPath S a a [a]
  | step {S : Set κ} {a b c : κ} {before after p : List κ} (ha : a ∉ S)
      (hnext : next a = before ++ b :: after) (hbefore : ∀ d ∈ before, ¬ Free next (insert a S) d c)
      (h : FirstPath (insert a S) b c p) : FirstPath S a c (a :: p)

/-- There is a walk. -/
abbrev Leads : κ → κ → Prop := Relation.ReflTransGen fun a b => b ∈ next a

/-- A key leads to itself over at least one step. -/
def OnCycle (a : κ) : Prop := Relation.TransGen (fun a b => b ∈ next a) a a

/-- The keys of a path from one of them on. -/
def Spans (p : List κ) (w y : κ) : Prop := ∃ before after, p = before ++ w :: after ∧ y ∈ w :: after

/-- The first path to some key passes `y`, and that key leads back to `y` or to before it. -/
def Spanned (x y : κ) : Prop := ∃ c p w, FirstPath next ∅ x c p ∧ w ∈ next c ∧ Spans p w y

/-- The same for searches that start from keys one after the other. -/
def Found (order : List κ) (y : κ) : Prop :=
  ∃ before a after c p w, order = before ++ a :: after ∧ (∀ d ∈ before, ¬ Free next ∅ d c) ∧
    FirstPath next ∅ a c p ∧ w ∈ next c ∧ Spans p w y

end

variable {κ : Type} {next : κ → List κ} {S T : Set κ} {a b c d x y : κ} {p : List κ}

/-! ### Walks -/

namespace Free

theorem notMem (h : Free next S a c) : a ∉ S := by
  cases h with
  | refl ha => exact ha
  | head ha _ _ => exact ha

theorem notMem_right (h : Free next S a c) : c ∉ S := by
  induction h with
  | refl ha => exact ha
  | head _ _ _ ih => exact ih

theorem mono (h : Free next T a c) (hST : S ⊆ T) : Free next S a c := by
  induction h with
  | refl ha => exact .refl fun hS => ha (hST hS)
  | head ha hab _ ih => exact .head (fun hS => ha (hST hS)) hab ih

theorem trans (h : Free next S a b) (h' : Free next S b c) : Free next S a c := by
  induction h with
  | refl _ => exact h'
  | head ha hab _ ih => exact .head ha hab (ih h')

theorem leads (h : Free next S a c) : Leads next a c := by
  induction h with
  | refl _ => exact .refl
  | head _ hab _ ih => exact .head hab ih

/-- A walk keeps off a key, or it can be cut where it is there for the last time. -/
theorem avoid_or (h : Free next S b c) (a : κ) :
    Free next (insert a S) b c ∨ a = c ∨ ∃ d ∈ next a, Free next (insert a S) d c := by
  induction h with
  | @refl b hb =>
    by_cases hab : a = b
    · exact .inr (.inl hab)
    · exact .inl (.refl fun hmem => hmem.elim (fun heq => hab heq.symm) hb)
  | @head b d c hb hbd _ ih =>
    rcases ih with hfree | hrest
    · by_cases hab : b = a
      · exact .inr (.inr ⟨d, hab ▸ hbd, hfree⟩)
      · exact .inl (.head (fun hmem => hmem.elim hab hb) hbd hfree)
    · exact .inr hrest

end Free

theorem free_of_leads (h : Leads next a c) : Free next ∅ a c := by
  induction h using Relation.ReflTransGen.head_induction_on with
  | refl => exact .refl (Set.notMem_empty _)
  | head hab _ ih => exact .head (Set.notMem_empty _) hab ih

/-- **A walk need not come back** to where it starts. -/
theorem free_iff :
    Free next S a c ↔ a ∉ S ∧ (a = c ∨ ∃ b ∈ next a, Free next (insert a S) b c) := by
  constructor
  · intro h
    refine ⟨h.notMem, ?_⟩
    rcases h.avoid_or a with hfree | hrest
    · exact absurd (Set.mem_insert a S) hfree.notMem
    · exact hrest
  · rintro ⟨ha, rfl | ⟨b, hb, h⟩⟩
    · exact .refl ha
    · exact .head ha hb (h.mono (Set.subset_insert a S))

/-- Keys that only lead to each other and to what is kept off. -/
def Closed (next : κ → List κ) (S T : Set κ) : Prop := ∀ n ∈ T, ∀ m ∈ next n, m ∈ S ∨ m ∈ T

theorem Closed.insert (h : Closed next S T) (a : κ) : Closed next (insert a S) T :=
  fun n hn m hm => (h n hn m hm).imp_left fun hS => Set.mem_insert_of_mem a hS

theorem Closed.mem_of_free (hT : Closed next S T) (h : Free next S a c) (ha : a ∈ T) : c ∈ T := by
  induction h with
  | refl _ => exact ha
  | head _ hab h ih => exact ih ((hT _ ha _ hab).resolve_left h.notMem)

theorem free_union_iff (hT : Closed next S T) (hc : c ∉ T) :
    Free next (S ∪ T) a c ↔ Free next S a c := by
  refine ⟨fun h => h.mono Set.subset_union_left, fun h => ?_⟩
  induction h with
  | refl ha => exact .refl fun hmem => hmem.elim ha hc
  | head ha hab h ih =>
    refine .head (fun hmem => hmem.elim ha fun hT' => ?_) hab (ih hc)
    exact hc (hT.mem_of_free (.head ha hab h) hT')

/-- Keys that do not lie between two others do not matter. -/
theorem Free.union (h : Free next S a c) (hT : ∀ n ∈ T, Leads next a n → ¬ Leads next n c) :
    Free next (S ∪ T) a c := by
  induction h with
  | refl ha => exact .refl fun hmem => hmem.elim ha fun hmem => hT _ hmem .refl .refl
  | head ha hab h ih =>
    have hleads := Relation.ReflTransGen.head hab h.leads
    refine .head (fun hmem => hmem.elim ha fun hmem => hT _ hmem .refl hleads) hab (ih ?_)
    exact fun n hn hbn => hT n hn (.head hab hbn)

/-! ### First paths -/

namespace FirstPath

theorem free (h : FirstPath next S a c p) : Free next S a c := by
  induction h with
  | here ha => exact .refl ha
  | step ha hnext _ _ ih =>
    refine .head ha ?_ (ih.mono (Set.subset_insert _ _))
    rw [hnext]
    exact List.mem_append_right _ List.mem_cons_self

/-- It goes from the one key over its keys to the other. -/
theorem leads (h : FirstPath next S a c p) : ∀ y ∈ p, Leads next a y ∧ Leads next y c := by
  induction h with
  | here _ => exact List.forall_mem_singleton.mpr ⟨.refl, .refl⟩
  | @step S a b c before after p _ hnext _ h ih =>
    have hab : b ∈ next a := hnext ▸ List.mem_append_right _ List.mem_cons_self
    refine List.forall_mem_cons.mpr ⟨⟨.refl, .head hab h.free.leads⟩, fun y hy => ?_⟩
    exact ⟨.head hab (ih y hy).1, (ih y hy).2⟩

theorem head (h : FirstPath next S a c p) : ∃ rest, p = a :: rest := by
  cases h with
  | here _ => exact ⟨_, rfl⟩
  | step _ _ _ _ => exact ⟨_, rfl⟩

theorem mem_end (h : FirstPath next S a c p) : c ∈ p := by
  induction h with
  | here _ => exact List.mem_singleton_self _
  | step _ _ _ _ ih => exact List.mem_cons_of_mem _ ih

theorem notMem (h : FirstPath next S a c p) : ∀ y ∈ p, y ∉ S := by
  induction h with
  | here ha => exact List.forall_mem_singleton.mpr ha
  | step ha _ _ _ ih =>
    exact List.forall_mem_cons.mpr ⟨ha, fun y hy hS => ih y hy (Set.mem_insert_of_mem _ hS)⟩

/-- It passes no key twice. -/
theorem nodup (h : FirstPath next S a c p) : p.Nodup := by
  induction h with
  | here _ => exact List.nodup_singleton _
  | step _ _ _ h ih => exact List.nodup_cons.mpr ⟨fun ha => h.notMem _ ha (Set.mem_insert _ _), ih⟩

/-- It goes on as a first path from each of its keys. -/
theorem drop {before after : List κ} (h : FirstPath next S a c (before ++ b :: after)) :
    ∃ S', FirstPath next S' b c (b :: after) := by
  induction before generalizing S a with
  | nil =>
    obtain ⟨rest, hrest⟩ := h.head
    obtain ⟨rfl, -⟩ := List.cons.inj hrest
    exact ⟨S, h⟩
  | cons n before ih =>
    generalize hpath : (n :: before) ++ b :: after = path at h
    cases h with
    | here _ => simp at hpath
    | step _ _ _ h => exact ih ((List.cons.inj hpath).2 ▸ h)

end FirstPath

theorem spans_leads {w : κ} (h : FirstPath next S a c p) (hspans : Spans p w y) :
    Leads next w y ∧ Leads next y c := by
  obtain ⟨before, after, rfl, hy⟩ := hspans
  obtain ⟨S', hdrop⟩ := h.drop
  exact hdrop.leads y hy

/-- The first of the keys with a property. -/
theorem exists_first {P : κ → Prop} {l : List κ} (h : ∃ b ∈ l, P b) :
    ∃ before b after, l = before ++ b :: after ∧ (∀ d ∈ before, ¬ P d) ∧ P b := by
  induction l with
  | nil =>
    obtain ⟨b, hb, -⟩ := h
    cases hb
  | cons n l ih =>
    by_cases hn : P n
    · exact ⟨[], n, l, rfl, List.forall_mem_nil _, hn⟩
    · obtain ⟨b, hb, hP⟩ := h
      obtain ⟨before, b, after, rfl, hbefore, hP⟩ :=
        ih ⟨b, (List.mem_cons.mp hb).resolve_left fun heq => hn (heq ▸ hP), hP⟩
      exact ⟨n :: before, b, after, rfl, List.forall_mem_cons.mpr ⟨hn, hbefore⟩, hP⟩

/-- How many of the keys are not kept off. -/
noncomputable def leftOver (V : Finset κ) (S : Set κ) : ℕ := ((V : Set κ) \ S).ncard

theorem leftOver_insert_lt {V : Finset κ} (ha : a ∈ V) (haS : a ∉ S) :
    leftOver V (insert a S) < leftOver V S := by
  refine Set.ncard_lt_ncard ⟨Set.sdiff_subset_sdiff_right (Set.subset_insert a S), fun hsub => ?_⟩
    (V.finite_toSet.subset Set.sdiff_subset)
  exact (hsub ⟨ha, haS⟩).2 (Set.mem_insert a S)

/-- **There is a first path** to what can be reached, by induction on the number of keys that are
not kept off. -/
theorem exists_firstPath {V : Finset κ} (hV : ∀ a ∈ V, ∀ b ∈ next a, b ∈ V) (ha : a ∈ V)
    (h : Free next S a c) : ∃ p, FirstPath next S a c p := by
  induction hn : leftOver V S using Nat.strong_induction_on generalizing S a with
  | h n ih =>
    obtain ⟨haS, rfl | hrest⟩ := free_iff.mp h
    · exact ⟨[a], .here haS⟩
    · obtain ⟨before, b, after, hnext, hbefore, hfree⟩ := exists_first hrest
      have hb : b ∈ V := hV a ha b (hnext ▸ List.mem_append_right _ List.mem_cons_self)
      obtain ⟨p, hp⟩ := ih _ (hn ▸ leftOver_insert_lt ha haS) hb hfree rfl
      exact ⟨a :: p, .step haS hnext hbefore hp⟩

/-- **Keys from which the end cannot be reached do not matter** to first paths. -/
theorem firstPath_union_iff (hT : Closed next S T) (hc : c ∉ T) :
    FirstPath next (S ∪ T) a c p ↔ FirstPath next S a c p := by
  constructor
  · intro h
    generalize hU : S ∪ T = U at h
    induction h generalizing S with
    | here ha => exact .here fun hS => ha (hU ▸ Set.mem_union_left T hS)
    | @step U a b c before after p ha hnext hbefore _ ih =>
      subst hU
      have hinsert : insert a (S ∪ T) = insert a S ∪ T := Set.insert_union.symm
      refine .step (fun hS => ha (Set.mem_union_left T hS)) hnext (fun d hd hfree => ?_)
        (ih (hT.insert a) hc hinsert.symm)
      exact hbefore d hd (hinsert ▸ (free_union_iff (hT.insert a) hc).mpr hfree)
  · intro h
    induction h with
    | here ha => exact .here fun hmem => hmem.elim ha hc
    | @step S a b c before after p ha hnext hbefore h ih =>
      have hinsert : insert a (S ∪ T) = insert a S ∪ T := Set.insert_union.symm
      refine .step (fun hmem => hmem.elim ha fun hmem => ?_) hnext (fun d hd hfree => ?_)
        (hinsert ▸ ih (hT.insert a) hc)
      · have hab : b ∈ next a := hnext ▸ List.mem_append_right _ List.mem_cons_self
        exact hc (hT.mem_of_free (.head ha hab (h.free.mono (Set.subset_insert a S))) hmem)
      · rw [hinsert] at hfree
        exact hbefore d hd ((free_union_iff (hT.insert a) hc).mp hfree)

/-- Keys that do not lie between the ends do not matter to first paths. -/
theorem FirstPath.union (h : FirstPath next S a c p)
    (hT : ∀ n ∈ T, Leads next a n → ¬ Leads next n c) : FirstPath next (S ∪ T) a c p := by
  induction h with
  | here ha => exact .here fun hmem => hmem.elim ha fun hmem => hT _ hmem .refl .refl
  | @step S a b c before after p ha hnext hbefore h ih =>
    have hinsert : insert a (S ∪ T) = insert a S ∪ T := Set.insert_union.symm
    have hab : b ∈ next a := hnext ▸ List.mem_append_right _ List.mem_cons_self
    have hleads := Relation.ReflTransGen.head hab h.free.leads
    refine .step (fun hmem => hmem.elim ha fun hmem => hT _ hmem .refl hleads) hnext
      (fun d hd hfree => ?_) (hinsert ▸ ih fun n hn hbn => hT n hn (.head hab hbn))
    rw [hinsert] at hfree
    exact hbefore d hd (hfree.mono Set.subset_union_left)

/-! ### Where a cycle is entered -/

/-- The first paths to the keys of a cycle go the same way to where it is entered. -/
theorem firstPath_through {before after : List κ} (h : FirstPath next S a y (before ++ x :: after))
    (hbefore : ∀ n ∈ before, ¬ Leads next y n) (hx : Leads next y x)
    (hS : ∀ n ∈ S, Leads next y n → ¬ Leads next n y) {u : κ} (hyu : Leads next y u)
    (huy : Leads next u y) {q : List κ} (hq : FirstPath next ∅ x u q) :
    FirstPath next S a u (before ++ q) := by
  induction before generalizing S a with
  | nil =>
    obtain ⟨rest, hrest⟩ := h.head
    obtain ⟨rfl, -⟩ := List.cons.inj hrest
    have hunion := hq.union (T := S) fun n hn hxn hnu => hS n hn (hx.trans hxn) (hnu.trans huy)
    rwa [Set.empty_union] at hunion
  | cons n before ih =>
    generalize hpath : (n :: before) ++ x :: after = path at h
    cases h with
    | here _ => simp at hpath
    | step ha hnext hfirst h =>
      obtain ⟨rfl, rfl⟩ := List.cons.inj hpath
      rw [List.forall_mem_cons] at hbefore
      have hinsert : ∀ m ∈ insert n S, Leads next y m → ¬ Leads next m y := by
        rintro m (rfl | hm)
        · exact fun hym => absurd hym hbefore.1
        · exact hS m hm
      refine .step ha hnext (fun d hd hfree => hfirst d hd ?_) (ih h hbefore.2 hinsert)
      -- from the one key of the cycle there is a walk to the other, which keeps off all that is
      -- passed
      have hwalk := (free_of_leads huy).union fun m hm hum => hinsert m hm (hyu.trans hum)
      rw [Set.empty_union] at hwalk
      exact hfree.trans hwalk

/-- Where a search enters a cycle: the first paths to its keys go on from there. -/
theorem exists_entry {V : Finset κ} (hV : ∀ a ∈ V, ∀ b ∈ next a, b ∈ V) {order : List κ}
    (hVorder : ∀ a ∈ order, a ∈ V) (hy : y ∈ order) :
    ∃ before a after x prior, order = before ++ a :: after ∧ Leads next y x ∧ Leads next x y ∧
      ∀ u, Leads next y u → Leads next u y → (∀ d ∈ before, ¬ Free next ∅ d u) ∧
        ∀ q, FirstPath next ∅ x u q → FirstPath next ∅ a u (prior ++ q) := by
  obtain ⟨before, a, after, rfl, hbefore, hfree⟩ :=
    exists_first (P := fun d => Free next ∅ d y) ⟨y, hy, .refl (Set.notMem_empty y)⟩
  obtain ⟨p, hp⟩ := exists_firstPath hV
    (hVorder a (List.mem_append_right _ List.mem_cons_self)) hfree
  obtain ⟨prior, x, rest, rfl, hprior, hx⟩ :=
    exists_first (P := fun n => Leads next y n) ⟨y, hp.mem_end, .refl⟩
  refine ⟨before, a, after, x, prior, rfl, hx, (hp.leads x (by simp)).2, fun u hyu huy => ⟨?_, ?_⟩⟩
  · exact fun d hd hfree => hbefore d hd (hfree.trans (free_of_leads huy))
  · exact fun q hq => firstPath_through hp hprior hx (by simp) hyu huy hq

/-! ### What is found -/

theorem Found.onCycle {order : List κ} (h : Found next order y) : OnCycle next y := by
  obtain ⟨before, a, after, c, p, w, -, -, hp, hw, hspans⟩ := h
  obtain ⟨hwy, hyc⟩ := spans_leads hp hspans
  exact (Relation.TransGen.tail' hyc hw).trans_left hwy

section

variable {keys order : List κ}

theorem mem_of_leads (hkeys : ∀ a ∈ keys, ∀ b ∈ next a, b ∈ keys) (h : Leads next a c)
    (ha : a ∈ keys) :
    c ∈ keys := by
  induction h with
  | refl => exact ha
  | tail _ hbc ih => exact hkeys _ ih _ hbc

variable [DecidableEq κ]

/-- Of a cycle, what is spanned from where it is entered is found. -/
theorem exists_found (hkeys : ∀ a ∈ keys, ∀ b ∈ next a, b ∈ keys) (horder : order.Perm keys)
    (hy : y ∈ keys) :
    ∃ x ∈ keys, Leads next y x ∧ Leads next x y ∧ ∀ z, Leads next y z → Leads next z y →
      Spanned next x z → Found next order z := by
  obtain ⟨before, a, after, x, prior, rfl, hyx, hxy, hentry⟩ := exists_entry (V := keys.toFinset)
    (fun a ha b hb => List.mem_toFinset.mpr (hkeys a (List.mem_toFinset.mp ha) b hb))
    (fun a ha => List.mem_toFinset.mpr (horder.mem_iff.mp ha)) (horder.mem_iff.mpr hy)
  refine ⟨x, mem_of_leads hkeys hyx hy, hyx, hxy, fun z hyz hzy hspanned => ?_⟩
  obtain ⟨c, p, w, hp, hw, hspans⟩ := hspanned
  obtain ⟨hwz, hzc⟩ := spans_leads hp hspans
  obtain ⟨hbefore, hpath⟩ := hentry c (hyz.trans hzc) (.head hw (hwz.trans hzy))
  obtain ⟨before', after', rfl, hz⟩ := hspans
  exact ⟨before, a, after, c, prior ++ (before' ++ w :: after'), w, rfl, hbefore, hpath _ hp, hw,
    prior ++ before', after', (List.append_assoc _ _ _).symm, hz⟩

/-- **Whatever the order of the starts, all that lies on cycles is found**, if and only if the keys
of a cycle are spanned from each other. -/
theorem found_iff (hkeys : ∀ a ∈ keys, ∀ b ∈ next a, b ∈ keys) :
    (∀ order : List κ, order.Perm keys → ∀ y ∈ keys, Found next order y ↔ OnCycle next y) ↔
      ∀ x ∈ keys, ∀ y, OnCycle next y → Leads next x y → Leads next y x → Spanned next x y := by
  constructor
  · intro h x hx y hy hxy hyx
    -- the search that starts with `x`
    have horder : (x :: keys.erase x).Perm keys := (List.perm_cons_erase hx).symm
    obtain ⟨before, a, after, c, p, w, heq, hbefore, hp, hw, hspans⟩ :=
      (h _ horder y (mem_of_leads hkeys hxy hx)).mpr hy
    cases before with
    | nil =>
      obtain ⟨rfl, -⟩ := List.cons.inj heq
      exact ⟨c, p, w, hp, hw, hspans⟩
    | cons d before =>
      obtain ⟨rfl, -⟩ := List.cons.inj heq
      have hyc := (spans_leads hp hspans).2
      exact absurd (free_of_leads (hxy.trans hyc)) (hbefore _ List.mem_cons_self)
  · intro h order horder y hy
    refine ⟨Found.onCycle, fun hcycle => ?_⟩
    obtain ⟨x, hx, hyx, hxy, hfound⟩ := exists_found hkeys horder hy
    exact hfound y .refl .refl (h x hx y hcycle hxy hyx)

end

end Graphs

end Ao2
