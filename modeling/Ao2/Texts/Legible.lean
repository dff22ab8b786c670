import Ao2.Texts.Bytes

/-!
# Bytes that no other text stands for

Reading bytes with replacement loses what was replaced. Where nothing was, the bytes are those of the
text; where something was, other bytes are read as the same text.

## Main results

* `fromUtf8Lossy_utf8Bytes` — a text is read back from its bytes
* `legible_iff` — only legible bytes are known by their text
-/

namespace Ao2

/-- No character of the text is a replacement, one that stands there itself included. -/
def Legible (bytes : Octets) : Prop := replacement ∉ fromUtf8Lossy bytes

instance (bytes : Octets) : Decidable (Legible bytes) := inferInstanceAs (Decidable (¬ _))

/-! ### From a character to its bytes and back -/

theorem lossyFrom_tail {v : ℕ} {t : Tail} {pending : List Tail} {b : UInt8} {rest : Octets}
    (hb : t.1 ≤ b.toNat ∧ b.toNat ≤ t.2) (hpending : pending ≠ []) :
    lossyFrom v (t :: pending) (b :: rest) = lossyFrom (withByte v b.toNat) pending rest := by
  rw [lossyFrom.eq_4, if_pos hb, if_neg hpending]

theorem lossyFrom_last {v : ℕ} {t : Tail} {b : UInt8} {rest : Octets}
    (hb : t.1 ≤ b.toNat ∧ b.toNat ≤ t.2) :
    lossyFrom v [t] (b :: rest) = charOf (withByte v b.toNat) :: fromUtf8Lossy rest := by
  rw [lossyFrom.eq_4, if_pos hb, if_pos rfl]
  rfl

theorem fromUtf8Lossy_leading {b : UInt8} {v : ℕ} {pending : List Tail} {rest : Octets}
    (hb : ¬ b.toNat < 0x80) (h : leading b.toNat = some (v, pending)) :
    fromUtf8Lossy (b :: rest) = lossyFrom v pending rest := by
  rw [fromUtf8Lossy, lossyFrom.eq_3, beginChar, if_neg hb, h]

theorem charOf_of_toNat {c : Char} {n : ℕ} (h : n = c.toNat) : charOf n = c := by
  have hvalid : n.isValidChar := h ▸ c.valid
  rw [charOf, if_pos hvalid, h, Char.ofNat_toNat]

/-- The bounds of the byte after a first byte of three. -/
def secondOfThree (b : ℕ) : Tail := (if b = 0xE0 then 0xA0 else 0x80, if b = 0xED then 0x9F else 0xBF)

/-- The bounds of the byte after a first byte of four. -/
def secondOfFour (b : ℕ) : Tail := (if b = 0xF0 then 0x90 else 0x80, if b = 0xF4 then 0x8F else 0xBF)

theorem leading_two {b : ℕ} (h : 0xC2 ≤ b ∧ b ≤ 0xDF) : leading b = some (b % 32, [(0x80, 0xBF)]) := by
  rw [leading, if_pos h]

theorem leading_three {b : ℕ} (h : 0xE0 ≤ b ∧ b ≤ 0xEF) :
    leading b = some (b % 16, [secondOfThree b, (0x80, 0xBF)]) := by
  unfold leading secondOfThree
  split_ifs <;> first | rfl | omega

theorem leading_four {b : ℕ} (h : 0xF0 ≤ b ∧ b ≤ 0xF4) :
    leading b = some (b % 8, [secondOfFour b, (0x80, 0xBF), (0x80, 0xBF)]) := by
  unfold leading secondOfFour
  split_ifs <;> first | rfl | omega

section

variable {b b₁ b₂ b₃ : UInt8}

theorem fromUtf8Lossy_one (rest : Octets) (h : b.toNat < 0x80) :
    fromUtf8Lossy (b :: rest) = .ofNat b.toNat :: fromUtf8Lossy rest := by
  rw [fromUtf8Lossy, lossyFrom.eq_3, beginChar, if_pos h]
  rfl

theorem fromUtf8Lossy_two (rest : Octets) (h : 0xC2 ≤ b.toNat ∧ b.toNat ≤ 0xDF) (h₁ : 0x80 ≤ b₁.toNat ∧ b₁.toNat ≤ 0xBF) :
    fromUtf8Lossy (b :: b₁ :: rest) =
      charOf (withByte (b.toNat % 32) b₁.toNat) :: fromUtf8Lossy rest := by
  rw [fromUtf8Lossy_leading (by omega) (leading_two h), lossyFrom_last h₁]

theorem fromUtf8Lossy_three (rest : Octets) (h : 0xE0 ≤ b.toNat ∧ b.toNat ≤ 0xEF)
    (h₁ : (secondOfThree b.toNat).1 ≤ b₁.toNat ∧ b₁.toNat ≤ (secondOfThree b.toNat).2)
    (h₂ : 0x80 ≤ b₂.toNat ∧ b₂.toNat ≤ 0xBF) :
    fromUtf8Lossy (b :: b₁ :: b₂ :: rest) =
      charOf (withByte (withByte (b.toNat % 16) b₁.toNat) b₂.toNat) :: fromUtf8Lossy rest := by
  rw [fromUtf8Lossy_leading (by omega) (leading_three h), lossyFrom_tail h₁ (List.cons_ne_nil _ _),
    lossyFrom_last h₂]

theorem fromUtf8Lossy_four (rest : Octets) (h : 0xF0 ≤ b.toNat ∧ b.toNat ≤ 0xF4)
    (h₁ : (secondOfFour b.toNat).1 ≤ b₁.toNat ∧ b₁.toNat ≤ (secondOfFour b.toNat).2)
    (h₂ : 0x80 ≤ b₂.toNat ∧ b₂.toNat ≤ 0xBF) (h₃ : 0x80 ≤ b₃.toNat ∧ b₃.toNat ≤ 0xBF) :
    fromUtf8Lossy (b :: b₁ :: b₂ :: b₃ :: rest) =
      charOf (withByte (withByte (withByte (b.toNat % 8) b₁.toNat) b₂.toNat) b₃.toNat) ::
        fromUtf8Lossy rest := by
  rw [fromUtf8Lossy_leading (by omega) (leading_four h), lossyFrom_tail h₁ (List.cons_ne_nil _ _),
    lossyFrom_tail h₂ (List.cons_ne_nil _ _), lossyFrom_last h₃]

end

theorem toNat_byte {n : ℕ} (h : n < 256) : (UInt8.ofNat n).toNat = n := by
  rw [UInt8.toNat_ofNat']
  exact Nat.mod_eq_of_lt h

theorem utf8EncodeChar_eq (c : Char) :
    String.utf8EncodeChar c =
      if c.toNat ≤ 0x7f then [.ofNat c.toNat]
      else if c.toNat ≤ 0x7ff then [.ofNat (c.toNat / 64 % 32 + 0xc0), .ofNat (c.toNat % 64 + 0x80)]
      else if c.toNat ≤ 0xffff then
        [.ofNat (c.toNat / 4096 % 16 + 0xe0), .ofNat (c.toNat / 64 % 64 + 0x80),
          .ofNat (c.toNat % 64 + 0x80)]
      else
        [.ofNat (c.toNat / 262144 % 8 + 0xf0), .ofNat (c.toNat / 4096 % 64 + 0x80),
          .ofNat (c.toNat / 64 % 64 + 0x80), .ofNat (c.toNat % 64 + 0x80)] := rfl

/-- **A character is read back from its bytes**, whatever follows them. -/
theorem fromUtf8Lossy_utf8EncodeChar (c : Char) (rest : Octets) :
    fromUtf8Lossy (String.utf8EncodeChar c ++ rest) = c :: fromUtf8Lossy rest := by
  have hvalid : c.toNat < 0xD800 ∨ 0xDFFF < c.toNat ∧ c.toNat < 0x110000 := c.valid
  have h64 : (UInt8.ofNat (c.toNat % 64 + 0x80)).toNat = c.toNat % 64 + 0x80 := toNat_byte (by omega)
  have h4096 : (UInt8.ofNat (c.toNat / 64 % 64 + 0x80)).toNat = c.toNat / 64 % 64 + 0x80 :=
    toNat_byte (by omega)
  rw [utf8EncodeChar_eq]
  split_ifs with h1 h2 h3
  · have hb : (UInt8.ofNat c.toNat).toNat = c.toNat := toNat_byte (by omega)
    rw [List.singleton_append, fromUtf8Lossy_one _ (by omega), hb, Char.ofNat_toNat]
  · have hb : (UInt8.ofNat (c.toNat / 64 % 32 + 0xc0)).toNat = c.toNat / 64 % 32 + 0xc0 :=
      toNat_byte (by omega)
    refine (fromUtf8Lossy_two _ ?_ ?_).trans (congrArg (fun x => x :: _) (charOf_of_toNat ?_))
    · omega
    · omega
    · rw [hb, h64]
      unfold withByte
      omega
  · have hb : (UInt8.ofNat (c.toNat / 4096 % 16 + 0xe0)).toNat = c.toNat / 4096 % 16 + 0xe0 :=
      toNat_byte (by omega)
    refine (fromUtf8Lossy_three _ ?_ ?_ ?_).trans (congrArg (fun x => x :: _) (charOf_of_toNat ?_))
    · omega
    · rw [hb, h4096]
      unfold secondOfThree
      split_ifs <;> dsimp only <;> omega
    · omega
    · rw [hb, h4096, h64]
      unfold withByte
      omega
  · have hb : (UInt8.ofNat (c.toNat / 262144 % 8 + 0xf0)).toNat = c.toNat / 262144 % 8 + 0xf0 :=
      toNat_byte (by omega)
    have hb₁ : (UInt8.ofNat (c.toNat / 4096 % 64 + 0x80)).toNat = c.toNat / 4096 % 64 + 0x80 :=
      toNat_byte (by omega)
    refine (fromUtf8Lossy_four _ ?_ ?_ ?_ ?_).trans (congrArg (fun x => x :: _) (charOf_of_toNat ?_))
    · omega
    · rw [hb, hb₁]
      unfold secondOfFour
      split_ifs <;> dsimp only <;> omega
    · omega
    · omega
    · rw [hb, hb₁, h4096, h64]
      unfold withByte
      omega

theorem fromUtf8Lossy_utf8Bytes_append (text : List Char) (rest : Octets) :
    fromUtf8Lossy (utf8Bytes text ++ rest) = text ++ fromUtf8Lossy rest := by
  induction text with
  | nil => rfl
  | cons c text ih =>
    rw [utf8Bytes, List.flatMap_cons, List.append_assoc, fromUtf8Lossy_utf8EncodeChar]
    exact congrArg (c :: ·) ih

/-- **A text is read back from its bytes.** -/
theorem fromUtf8Lossy_utf8Bytes (text : List Char) : fromUtf8Lossy (utf8Bytes text) = text := by
  have h := fromUtf8Lossy_utf8Bytes_append text []
  rwa [List.append_nil, fromUtf8Lossy_nil, List.append_nil] at h

/-! ### Legible bytes are those of their text -/

/-- Within a character, the next byte is there and within its bounds. -/
theorem exists_of_legible {v : ℕ} {t : Tail} {pending : List Tail} {bytes : Octets}
    (h : replacement ∉ lossyFrom v (t :: pending) bytes) :
    ∃ b rest, bytes = b :: rest ∧ t.1 ≤ b.toNat ∧ b.toNat ≤ t.2 := by
  cases bytes with
  | nil => exact absurd (List.mem_singleton_self _) h
  | cons b rest =>
    refine ⟨b, rest, rfl, ?_⟩
    by_contra hb
    rw [lossyFrom.eq_4, if_neg hb] at h
    exact h List.mem_cons_self

theorem toNat_charOf {n : ℕ} (h : replacement ≠ charOf n) : (charOf n).toNat = n := by
  unfold charOf at h ⊢
  split_ifs at h ⊢ with hn
  · exact toNat_ofNat_of_isValidChar hn
  · exact absurd rfl h

theorem ofNat_byte {n : ℕ} {b : UInt8} (h : n = b.toNat) : UInt8.ofNat n = b := by
  rw [h, UInt8.ofNat_toNat]

section

variable {b b₁ b₂ b₃ : UInt8} {c : Char}

theorem utf8EncodeChar_two (h : 0xC2 ≤ b.toNat ∧ b.toNat ≤ 0xDF)
    (h₁ : 0x80 ≤ b₁.toNat ∧ b₁.toNat ≤ 0xBF) (hc : c.toNat = withByte (b.toNat % 32) b₁.toNat) :
    String.utf8EncodeChar c = [b, b₁] := by
  unfold withByte at hc
  rw [utf8EncodeChar_eq, if_neg (by omega), if_pos (by omega), ofNat_byte (b := b) (by omega),
    ofNat_byte (b := b₁) (by omega)]

theorem utf8EncodeChar_three (h : 0xE0 ≤ b.toNat ∧ b.toNat ≤ 0xEF)
    (h₁ : (secondOfThree b.toNat).1 ≤ b₁.toNat ∧ b₁.toNat ≤ (secondOfThree b.toNat).2)
    (h₂ : 0x80 ≤ b₂.toNat ∧ b₂.toNat ≤ 0xBF)
    (hc : c.toNat = withByte (withByte (b.toNat % 16) b₁.toNat) b₂.toNat) :
    String.utf8EncodeChar c = [b, b₁, b₂] := by
  have hlow : 0x80 ≤ b₁.toNat ∧ b₁.toNat ≤ 0xBF ∧ (b.toNat = 0xE0 → 0xA0 ≤ b₁.toNat) := by
    unfold secondOfThree at h₁
    split_ifs at h₁ <;> dsimp only at h₁ <;> omega
  unfold withByte at hc
  rw [utf8EncodeChar_eq, if_neg (by omega), if_neg (by omega), if_pos (by omega),
    ofNat_byte (b := b) (by omega), ofNat_byte (b := b₁) (by omega), ofNat_byte (b := b₂) (by omega)]

theorem utf8EncodeChar_four (h : 0xF0 ≤ b.toNat ∧ b.toNat ≤ 0xF4)
    (h₁ : (secondOfFour b.toNat).1 ≤ b₁.toNat ∧ b₁.toNat ≤ (secondOfFour b.toNat).2)
    (h₂ : 0x80 ≤ b₂.toNat ∧ b₂.toNat ≤ 0xBF) (h₃ : 0x80 ≤ b₃.toNat ∧ b₃.toNat ≤ 0xBF)
    (hc : c.toNat = withByte (withByte (withByte (b.toNat % 8) b₁.toNat) b₂.toNat) b₃.toNat) :
    String.utf8EncodeChar c = [b, b₁, b₂, b₃] := by
  have hlow : 0x80 ≤ b₁.toNat ∧ b₁.toNat ≤ 0xBF ∧ (b.toNat = 0xF0 → 0x90 ≤ b₁.toNat) := by
    unfold secondOfFour at h₁
    split_ifs at h₁ <;> dsimp only at h₁ <;> omega
  unfold withByte at hc
  rw [utf8EncodeChar_eq, if_neg (by omega), if_neg (by omega), if_neg (by omega),
    ofNat_byte (b := b) (by omega), ofNat_byte (b := b₁) (by omega), ofNat_byte (b := b₂) (by omega),
    ofNat_byte (b := b₃) (by omega)]

end

theorem leading_bounds {b : ℕ} {lead : ℕ × List Tail} (h : leading b = some lead) :
    0xC2 ≤ b ∧ b ≤ 0xDF ∨ 0xE0 ≤ b ∧ b ≤ 0xEF ∨ 0xF0 ≤ b ∧ b ≤ 0xF4 := by
  unfold leading at h
  split_ifs at h <;> omega

/-- The first character of legible bytes. -/
theorem exists_char_of_legible {b : UInt8} {bytes : Octets} (h : Legible (b :: bytes)) :
    ∃ c rest, b :: bytes = String.utf8EncodeChar c ++ rest ∧
      fromUtf8Lossy (b :: bytes) = c :: fromUtf8Lossy rest := by
  rw [Legible] at h
  by_cases hb : b.toNat < 0x80
  · refine ⟨.ofNat b.toNat, bytes, ?_, fromUtf8Lossy_one _ hb⟩
    have hc : (Char.ofNat b.toNat).toNat = b.toNat := toNat_ofNat_of_isValidChar (.inl (by omega))
    rw [utf8EncodeChar_eq, hc, if_pos (by omega), UInt8.ofNat_toNat]
    rfl
  cases hlead : leading b.toNat with
  | none =>
    rw [fromUtf8Lossy, lossyFrom.eq_3, beginChar, if_neg hb, hlead] at h
    exact absurd List.mem_cons_self h
  | some lead =>
    have hfrom : fromUtf8Lossy (b :: bytes) = lossyFrom lead.1 lead.2 bytes := fromUtf8Lossy_leading hb hlead
    rw [hfrom] at h
    rcases leading_bounds hlead with hbound | hbound | hbound
    · cases hlead.symm.trans (leading_two hbound)
      obtain ⟨b₁, rest, rfl, h₁⟩ := exists_of_legible h
      have hread := fromUtf8Lossy_two rest hbound h₁
      rw [hfrom.symm.trans hread] at h
      have hc := toNat_charOf (List.ne_of_not_mem_cons h)
      exact ⟨_, rest, congrArg (· ++ rest) (utf8EncodeChar_two hbound h₁ hc).symm, hread⟩
    · cases hlead.symm.trans (leading_three hbound)
      obtain ⟨b₁, bytes, rfl, h₁⟩ := exists_of_legible h
      rw [lossyFrom_tail h₁ (List.cons_ne_nil _ _)] at h
      obtain ⟨b₂, rest, rfl, h₂⟩ := exists_of_legible h
      have hread := fromUtf8Lossy_three rest hbound h₁ h₂
      rw [← lossyFrom_tail h₁ (List.cons_ne_nil _ _), hfrom.symm.trans hread] at h
      have hc := toNat_charOf (List.ne_of_not_mem_cons h)
      exact ⟨_, rest, congrArg (· ++ rest) (utf8EncodeChar_three hbound h₁ h₂ hc).symm, hread⟩
    · cases hlead.symm.trans (leading_four hbound)
      obtain ⟨b₁, bytes, rfl, h₁⟩ := exists_of_legible h
      have hsecond : lossyFrom (b.toNat % 8) [secondOfFour b.toNat, (0x80, 0xBF), (0x80, 0xBF)]
          (b₁ :: bytes) = lossyFrom (withByte (b.toNat % 8) b₁.toNat) [(0x80, 0xBF), (0x80, 0xBF)] bytes :=
        lossyFrom_tail h₁ (List.cons_ne_nil _ _)
      rw [hsecond] at h
      obtain ⟨b₂, bytes, rfl, h₂⟩ := exists_of_legible h
      rw [lossyFrom_tail h₂ (List.cons_ne_nil _ _)] at h
      obtain ⟨b₃, rest, rfl, h₃⟩ := exists_of_legible h
      have hread := fromUtf8Lossy_four rest hbound h₁ h₂ h₃
      rw [← lossyFrom_tail h₂ (List.cons_ne_nil _ _), ← hsecond, hfrom.symm.trans hread] at h
      have hc := toNat_charOf (List.ne_of_not_mem_cons h)
      exact ⟨_, rest, congrArg (· ++ rest) (utf8EncodeChar_four hbound h₁ h₂ h₃ hc).symm, hread⟩

/-- **Legible bytes are those of their text**, by induction on their number. -/
theorem utf8Bytes_fromUtf8Lossy {bytes : Octets} (h : Legible bytes) :
    utf8Bytes (fromUtf8Lossy bytes) = bytes := by
  induction hn : bytes.length using Nat.strong_induction_on generalizing bytes with
  | _ n ih =>
    subst hn
    cases bytes with
    | nil => rfl
    | cons b bytes =>
      obtain ⟨c, rest, hbytes, hread⟩ := exists_char_of_legible h
      have hrest : Legible rest := by
        rw [Legible, hread] at h
        exact List.not_mem_of_not_mem_cons h
      have hlt : rest.length < (b :: bytes).length := by
        have hpos := List.length_pos_iff.mpr (String.utf8EncodeChar_ne_nil (c := c))
        rw [hbytes, List.length_append]
        omega
      rw [hread, utf8Bytes, List.flatMap_cons, hbytes]
      exact congrArg _ (ih _ hlt hrest rfl)

/-- Bytes that are not legible are not the only ones with their text: the replacement may stand for
itself or for a byte that begins no character. -/
theorem exists_ne_of_not_legible {bytes : Octets} (h : ¬ Legible bytes) :
    ∃ other, other ≠ bytes ∧ fromUtf8Lossy other = fromUtf8Lossy bytes := by
  obtain ⟨before, after, htext⟩ := List.append_of_mem (not_not.mp h)
  have hspelt := fromUtf8Lossy_utf8Bytes (fromUtf8Lossy bytes)
  have hbroken : fromUtf8Lossy (utf8Bytes before ++ 0xFF :: utf8Bytes after) = fromUtf8Lossy bytes := by
    rw [fromUtf8Lossy_utf8Bytes_append, htext]
    exact congrArg (before ++ replacement :: ·) (fromUtf8Lossy_utf8Bytes after)
  by_cases heq : utf8Bytes (fromUtf8Lossy bytes) = bytes
  · refine ⟨_, fun hbytes => ?_, hbroken⟩
    have hlength := congrArg List.length (hbytes.trans heq.symm)
    have hreplacement : (String.utf8EncodeChar replacement).length = 3 := rfl
    have hbytes' : utf8Bytes (before ++ replacement :: after) =
        utf8Bytes before ++ (String.utf8EncodeChar replacement ++ utf8Bytes after) := by
      rw [utf8Bytes, List.flatMap_append, List.flatMap_cons]
      rfl
    rw [htext, hbytes', List.length_append, List.length_append, List.length_append, List.length_cons,
      hreplacement] at hlength
    omega
  · exact ⟨_, heq, hspelt⟩

/-- **Only legible bytes are known by their text.** -/
theorem legible_iff {bytes : Octets} :
    Legible bytes ↔ ∀ other, fromUtf8Lossy other = fromUtf8Lossy bytes → other = bytes := by
  refine ⟨fun h other htext => ?_, fun h => ?_⟩
  · have hother : Legible other := by
      rw [Legible, htext]
      exact h
    rw [← utf8Bytes_fromUtf8Lossy hother, htext, utf8Bytes_fromUtf8Lossy h]
  · by_contra hbytes
    obtain ⟨other, hne, htext⟩ := exists_ne_of_not_legible hbytes
    exact hne (h other htext)

end Ao2
