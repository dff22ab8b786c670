import Mathlib.Data.Char
import Mathlib.Data.List.Infix
import Mathlib.Tactic.Common

/-!
# The text of bytes

Bytes are read as UTF-8, and what is not UTF-8 is replaced: every longest beginning of a character that
is not completed becomes one replacement character. A byte below 128 is a character wherever it stands,
so a text can be read on both sides of it.

## Main results

* `fromUtf8Lossy_append` — what follows a character below 128 is read for itself
* `fromUtf8Lossy_eq_append` — a character below 128 in the text is such a byte
* `decodeUtf8_of_ascii` — bytes below 128 are the same text in both
-/

namespace Ao2

abbrev Octets := List UInt8

/-- The bytes that may follow within a character. -/
abbrev Tail := ℕ × ℕ

def replacement : Char := '\ufffd'

/-- What a first byte above 127 contributes, and what is to follow it. -/
def leading (b : ℕ) : Option (ℕ × List Tail) :=
  let tail : Tail := (0x80, 0xBF)
  if 0xC2 ≤ b ∧ b ≤ 0xDF then some (b % 32, [tail])
  else if b = 0xE0 then some (b % 16, [(0xA0, 0xBF), tail])
  else if b = 0xED then some (b % 16, [(0x80, 0x9F), tail])
  else if 0xE1 ≤ b ∧ b ≤ 0xEF then some (b % 16, [tail, tail])
  else if b = 0xF0 then some (b % 8, [(0x90, 0xBF), tail, tail])
  else if 0xF1 ≤ b ∧ b ≤ 0xF3 then some (b % 8, [tail, tail, tail])
  else if b = 0xF4 then some (b % 8, [(0x80, 0x8F), tail, tail])
  else none

/-- The character of a number; those of more than one byte are never below 128. -/
def charOf (n : ℕ) : Char := if n.isValidChar then .ofNat n else replacement

/-- A first byte, and how to go on after it. -/
def beginChar (b : ℕ) (next : ℕ → List Tail → List Char) : List Char :=
  if b < 0x80 then .ofNat b :: next 0 []
  else
    match leading b with
    | none => replacement :: next 0 []
    | some (v, pending) => next v pending

/-- The number that is read, with the six bits of one more byte. -/
def withByte (v b : ℕ) : ℕ := v * 64 + b % 64

/-- The text of bytes, after the beginning of a character. -/
def lossyFrom : ℕ → List Tail → Octets → List Char
  | _, [], [] => []
  | _, _ :: _, [] => [replacement]
  | _, [], b :: rest => beginChar b.toNat fun v pending => lossyFrom v pending rest
  | v, t :: pending, b :: rest =>
    if t.1 ≤ b.toNat ∧ b.toNat ≤ t.2 then
      if pending = [] then charOf (withByte v b.toNat) :: lossyFrom 0 [] rest
      else lossyFrom (withByte v b.toNat) pending rest
    else replacement :: beginChar b.toNat fun v pending => lossyFrom v pending rest

/-- The text of bytes, with what is not UTF-8 replaced. -/
def fromUtf8Lossy (bytes : Octets) : List Char := lossyFrom 0 [] bytes

/-- The bytes of a text. -/
def utf8Bytes (text : List Char) : Octets := text.flatMap String.utf8EncodeChar

@[simp] theorem fromUtf8Lossy_nil : fromUtf8Lossy [] = [] := rfl

theorem lossyFrom_between (v : ℕ) (bytes : Octets) : lossyFrom v [] bytes = fromUtf8Lossy bytes := by
  cases bytes <;> rfl

/-! ### Within a character -/

/-- The least number that can be read from here. -/
def least : ℕ → List Tail → ℕ
  | v, [] => v
  | v, t :: pending => least (withByte v t.1) pending

theorem least_mono (pending : List Tail) {v v' : ℕ} (h : v ≤ v') : least v pending ≤ least v' pending := by
  induction pending generalizing v v' with
  | nil => exact h
  | cons t pending ih =>
    refine ih ?_
    unfold withByte
    omega

/-- What is known within a character: the bytes to follow are above 127, and so will be the character. -/
structure Reading (v : ℕ) (pending : List Tail) : Prop where
  tails : ∀ t ∈ pending, 0x80 ≤ t.1 ∧ t.2 ≤ 0xBF
  above : pending ≠ [] → 0x80 ≤ least v pending

theorem reading_start : Reading 0 [] := ⟨by simp, fun h => absurd rfl h⟩

section

variable {v b : ℕ} {t : Tail} {pending : List Tail}

theorem Reading.above_next (h : Reading v (t :: pending)) (hb : t.1 ≤ b ∧ b ≤ t.2) :
    0x80 ≤ least (withByte v b) pending := by
  have htail := h.tails t (List.mem_cons_self ..)
  have hstep : withByte v t.1 ≤ withByte v b := by
    unfold withByte
    omega
  exact (h.above (List.cons_ne_nil t pending)).trans (least_mono pending hstep)

theorem Reading.next (h : Reading v (t :: pending)) (hb : t.1 ≤ b ∧ b ≤ t.2) :
    Reading (withByte v b) pending where
  tails t' ht' := h.tails t' (List.mem_cons_of_mem t ht')
  above _ := h.above_next hb

theorem reading_leading (h : leading b = some (v, pending)) :
    Reading v pending ∧ pending ≠ [] := by
  unfold leading at h
  split_ifs at h <;> cases h
  all_goals
    refine ⟨⟨by simp, fun _ => ?_⟩, by simp⟩
    simp only [least, withByte]
    omega

/-- A byte below 128 ends what was begun before it. -/
theorem lossyFrom_append (h : Reading v pending) {b : UInt8}
    (hb : b.toNat < 0x80) (before after : Octets) :
    lossyFrom v pending (before ++ b :: after) =
      lossyFrom v pending before ++ .ofNat b.toNat :: lossyFrom 0 [] after := by
  induction before generalizing v pending with
  | nil =>
    cases pending with
    | nil => simp [lossyFrom, beginChar, hb]
    | cons t pending =>
      have hnot : ¬ (t.1 ≤ b.toNat ∧ b.toNat ≤ t.2) := by
        have htail := h.tails t (List.mem_cons_self ..)
        omega
      rw [List.nil_append, lossyFrom.eq_4, if_neg hnot]
      simp [lossyFrom, beginChar, hb]
  | cons a before ih =>
    have hbegin : beginChar a.toNat (fun v pending => lossyFrom v pending (before ++ b :: after)) =
        beginChar a.toNat (fun v pending => lossyFrom v pending before) ++
          .ofNat b.toNat :: lossyFrom 0 [] after := by
      unfold beginChar
      split_ifs with ha
      · dsimp only
        rw [ih reading_start]
        rfl
      · cases hl : leading a.toNat with
        | none =>
          dsimp only
          rw [ih reading_start]
          rfl
        | some lead => exact ih (reading_leading hl).1
    cases pending with
    | nil => exact hbegin
    | cons t pending =>
      rw [List.cons_append, lossyFrom.eq_4, lossyFrom.eq_4]
      split_ifs with hin hlast
      · rw [ih reading_start]
        rfl
      · exact ih (h.next hin)
      · rw [hbegin]
        rfl

/-- **What follows a character below 128 is read for itself.** -/
theorem fromUtf8Lossy_append (before after : Octets) {b : UInt8} (hb : b.toNat < 0x80) :
    fromUtf8Lossy (before ++ b :: after) =
      fromUtf8Lossy before ++ .ofNat b.toNat :: fromUtf8Lossy after :=
  lossyFrom_append reading_start hb before after

end

/-! ### From the text to the bytes -/

theorem replacement_toNat : ¬ replacement.toNat < 0x80 := by decide

theorem toNat_ofNat_of_isValidChar {n : ℕ} (h : n.isValidChar) : (Char.ofNat n).toNat = n := by
  rw [Char.ofNat, dif_pos h]
  rfl

theorem charOf_toNat {n : ℕ} (h : 0x80 ≤ n) : ¬ (charOf n).toNat < 0x80 := by
  unfold charOf
  split_ifs with hn
  · rw [toNat_ofNat_of_isValidChar hn]
    omega
  · exact replacement_toNat

theorem head_of_append {d c : Char} {l before after : List Char} (hd : ¬ d.toNat < 0x80)
    (hc : c.toNat < 0x80) (h : d :: l = before ++ c :: after) :
    ∃ before', before = d :: before' ∧ l = before' ++ c :: after := by
  cases before with
  | nil =>
    obtain ⟨rfl, -⟩ := List.cons.inj h
    exact absurd hc hd
  | cons a before' =>
    obtain ⟨rfl, rest⟩ := List.cons.inj h
    exact ⟨before', rfl, rest⟩

/-- Where a character below 128 comes from. -/
def FromByte (v : ℕ) (pending : List Tail) (bytes : Octets) (c : Char) (before after : List Char) :
    Prop :=
  ∃ x y, ∃ b : UInt8, bytes = x ++ b :: y ∧ b.toNat = c.toNat ∧ lossyFrom v pending x = before ∧
    lossyFrom 0 [] y = after

section

variable {v : ℕ} {pending : List Tail} {bytes rest : Octets} {c : Char} {before after : List Char}

theorem fromByte_of_beginChar {b : UInt8} (hc : c.toNat < 0x80)
    (ih : ∀ {v pending before}, Reading v pending → lossyFrom v pending rest = before ++ c :: after →
      FromByte v pending rest c before after)
    (h : beginChar b.toNat (fun v pending => lossyFrom v pending rest) = before ++ c :: after) :
    FromByte 0 [] (b :: rest) c before after := by
  unfold beginChar at h
  split_ifs at h with hb
  · cases before with
    | nil =>
      obtain ⟨hbc, hrest⟩ := List.cons.inj h
      refine ⟨[], rest, b, rfl, ?_, rfl, hrest⟩
      rw [← hbc, toNat_ofNat_of_isValidChar (Or.inl (by omega))]
    | cons a before =>
      obtain ⟨rfl, hrest⟩ := List.cons.inj h
      obtain ⟨x, y, b', rfl, hb', hx, hy⟩ := ih reading_start hrest
      refine ⟨b :: x, y, b', rfl, hb', ?_, hy⟩
      rw [lossyFrom.eq_3, beginChar, if_pos hb, hx]
  · cases hl : leading b.toNat with
    | none =>
      rw [hl] at h
      obtain ⟨before', rfl, hrest⟩ := head_of_append replacement_toNat hc h
      obtain ⟨x, y, b', rfl, hb', hx, hy⟩ := ih reading_start hrest
      refine ⟨b :: x, y, b', rfl, hb', ?_, hy⟩
      rw [lossyFrom.eq_3, beginChar, if_neg hb, hl]
      exact congrArg _ hx
    | some lead =>
      rw [hl] at h
      obtain ⟨x, y, b', rfl, hb', hx, hy⟩ := ih (reading_leading hl).1 h
      refine ⟨b :: x, y, b', rfl, hb', ?_, hy⟩
      rw [lossyFrom.eq_3, beginChar, if_neg hb, hl]
      exact hx

theorem fromByte_of_lossyFrom (hc : c.toNat < 0x80) (hreading : Reading v pending)
    (h : lossyFrom v pending bytes = before ++ c :: after) :
    FromByte v pending bytes c before after := by
  induction bytes generalizing v pending before with
  | nil =>
    cases pending with
    | nil => simp [lossyFrom] at h
    | cons t pending =>
      obtain ⟨before', -, hrest⟩ := head_of_append replacement_toNat hc h
      simp at hrest
  | cons b rest ih =>
    cases pending with
    | nil =>
      obtain ⟨x, y, b', hxy, hb', hx, hy⟩ := fromByte_of_beginChar hc ih h
      exact ⟨x, y, b', hxy, hb', (lossyFrom_between v x).trans hx, hy⟩
    | cons t pending =>
      rw [lossyFrom.eq_4] at h
      split_ifs at h with hin hlast
      · have habove : 0x80 ≤ withByte v b.toNat := by
          have := hreading.above_next hin
          rwa [hlast] at this
        obtain ⟨before', rfl, hrest⟩ := head_of_append (charOf_toNat habove) hc h
        obtain ⟨x, y, b', rfl, hb', hx, hy⟩ := ih reading_start hrest
        refine ⟨b :: x, y, b', rfl, hb', ?_, hy⟩
        rw [lossyFrom.eq_4, if_pos hin, if_pos hlast, hx]
      · obtain ⟨x, y, b', rfl, hb', hx, hy⟩ := ih (hreading.next hin) h
        refine ⟨b :: x, y, b', rfl, hb', ?_, hy⟩
        rw [lossyFrom.eq_4, if_pos hin, if_neg hlast, hx]
      · obtain ⟨before', rfl, hrest⟩ := head_of_append replacement_toNat hc h
        obtain ⟨x, y, b', hxy, hb', hx, hy⟩ := fromByte_of_beginChar hc ih hrest
        refine ⟨x, y, b', hxy, hb', ?_, hy⟩
        cases x with
        | nil =>
          rw [← hx]
          rfl
        | cons a x =>
          obtain ⟨rfl, -⟩ := List.cons.inj hxy
          rw [lossyFrom.eq_4, if_neg hin, ← hx, lossyFrom.eq_3]

/-- **A character below 128 in the text is such a byte**, and the text around it is that of the bytes
around the byte. -/
theorem fromUtf8Lossy_eq_append (hc : c.toNat < 0x80)
    (h : fromUtf8Lossy bytes = before ++ c :: after) :
    ∃ x y, ∃ b : UInt8, bytes = x ++ b :: y ∧ b.toNat = c.toNat ∧ fromUtf8Lossy x = before ∧
      fromUtf8Lossy y = after :=
  fromByte_of_lossyFrom hc reading_start h

theorem eq_nil_of_lossyFrom (h : lossyFrom v pending bytes = []) : pending = [] ∧ bytes = [] := by
  induction bytes generalizing v pending with
  | nil =>
    cases pending with
    | nil => exact ⟨rfl, rfl⟩
    | cons t pending => cases h
  | cons b rest ih =>
    cases pending with
    | nil =>
      rw [lossyFrom.eq_3, beginChar] at h
      split_ifs at h with hb
      cases hl : leading b.toNat with
      | none =>
        rw [hl] at h
        cases h
      | some lead =>
        rw [hl] at h
        exact absurd (ih h).1 (reading_leading hl).2
    | cons t pending =>
      rw [lossyFrom.eq_4] at h
      split_ifs at h with hin hlast
      exact absurd (ih h).1 hlast

theorem fromUtf8Lossy_eq_nil (h : fromUtf8Lossy bytes = []) : bytes = [] := (eq_nil_of_lossyFrom h).2

end

end Ao2

/-! ## Bytes that are read as text, or not at all -/

namespace Ao2

/-- The text of bytes that are UTF-8: they are the bytes of the text. -/
def decodeUtf8 (bytes : Octets) : Option (List Char) :=
  let text := fromUtf8Lossy bytes
  if utf8Bytes text = bytes then some text else none

/-- The text of bytes below 128. -/
def decodeAscii (bytes : Octets) : Option (List Char) :=
  if bytes.all (·.toNat < 128) then some (bytes.map fun b => .ofNat b.toNat) else none

def asciiBytes (text : List Char) : Octets := text.map fun c => .ofNat c.toNat

theorem toNat_ofNat_of_lt {n : ℕ} (h : n < 128) : (Char.ofNat n).toNat = n :=
  toNat_ofNat_of_isValidChar (.inl (by omega))

theorem fromUtf8Lossy_of_ascii {bytes : Octets} (h : ∀ b ∈ bytes, b.toNat < 128) :
    fromUtf8Lossy bytes = bytes.map fun b => .ofNat b.toNat := by
  induction bytes with
  | nil => rfl
  | cons b bytes ih =>
    rw [List.forall_mem_cons] at h
    rw [List.map_cons, ← ih h.2]
    exact fromUtf8Lossy_append [] bytes h.1

theorem utf8EncodeChar_ofNat {b : UInt8} (h : b.toNat < 128) :
    String.utf8EncodeChar (.ofNat b.toNat) = [b] := by
  have hval : (Char.ofNat b.toNat).val.toNat = b.toNat := toNat_ofNat_of_lt h
  have hsize : (Char.ofNat b.toNat).utf8Size = 1 := by
    rw [Char.utf8Size_eq_one_iff, UInt32.le_iff_toNat_le, hval]
    change b.toNat ≤ 127
    omega
  rw [String.utf8EncodeChar_eq_singleton hsize]
  refine congrArg (fun x => [x]) (UInt8.toNat_inj.mp ?_)
  rw [UInt32.toNat_toUInt8, hval]
  omega

/-- **Bytes below 128 are the same text in both.** -/
theorem decodeUtf8_of_ascii {bytes : Octets} {text : List Char} (h : decodeAscii bytes = some text) :
    decodeUtf8 bytes = some text := by
  rw [decodeAscii] at h
  split_ifs at h with hall
  have hbytes : ∀ b ∈ bytes, b.toNat < 128 := fun b hb => by
    simpa using List.all_eq_true.mp hall b hb
  have htext := fromUtf8Lossy_of_ascii hbytes
  have hencoded : utf8Bytes (fromUtf8Lossy bytes) = bytes := by
    rw [htext, utf8Bytes, List.flatMap_map]
    clear h hall htext
    induction bytes with
    | nil => rfl
    | cons b bytes ih =>
      rw [List.forall_mem_cons] at hbytes
      rw [List.flatMap_cons, utf8EncodeChar_ofNat hbytes.1, ih hbytes.2]
      rfl
  rw [decodeUtf8, if_pos hencoded, htext]
  exact h

theorem decodeAscii_asciiBytes {text : List Char} (h : ∀ c ∈ text, c.toNat < 128) :
    decodeAscii (asciiBytes text) = some text := by
  have hchar : ∀ c ∈ text, (UInt8.ofNat c.toNat).toNat = c.toNat := fun c hc => by
    rw [UInt8.toNat_ofNat']
    have := h c hc
    omega
  rw [decodeAscii, if_pos]
  · refine congrArg some ?_
    rw [asciiBytes, List.map_map]
    refine (List.map_congr_left fun c hc => ?_).trans (List.map_id text)
    rw [Function.comp_apply, hchar c hc, Char.ofNat_toNat, id]
  · rw [asciiBytes, List.all_map, List.all_eq_true]
    intro c hc
    rw [Function.comp_apply, hchar c hc, decide_eq_true_eq]
    exact h c hc

end Ao2
