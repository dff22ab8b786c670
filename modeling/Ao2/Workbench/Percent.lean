import Ao2.Checks
import Ao2.Texts.Bytes
import Ao2.Texts.Legible
import Ao2.Workbench.Routes

/-!
# Percent-encoding

A plus sign stands for a space, and a percent sign with two hexadecimal digits for a byte. The decoder cuts
the two bytes after a percent sign out of the text and reads them as a number, so a cut may fall within a
character, and a number may begin with a plus sign. What the encoder writes has neither.

## Main results

* `percentDecode_eq_iff` — a text is decoded as it should be if and only if nothing in it is misread
-/

namespace Ao2

namespace Workbench

/-! ### The encoder -/

/-- Letters, digits and four more characters are written as they are. -/
def isUnreserved (b : UInt8) : Bool :=
  (48 ≤ b.toNat && b.toNat ≤ 57) || (65 ≤ b.toNat && b.toNat ≤ 90) || (97 ≤ b.toNat && b.toNat ≤ 122) ||
    b = 45 || b = 95 || b = 46 || b = 126

/-- The upper-case hexadecimal digit of a number below 16, as a byte. -/
def hexUpper (n : ℕ) : UInt8 := .ofNat (if n < 10 then 48 + n else 55 + n)

/-- What is written for a byte. -/
def escapeByte (b : UInt8) : Octets :=
  if isUnreserved b then [b] else [37, hexUpper (b.toNat / 16), hexUpper (b.toNat % 16)]

def percentEncode (input : Text) : Text := ((utf8Bytes input).flatMap escapeByte).map fun b => .ofNat b.toNat

/-! ### What a text stands for -/

/-- The byte of a percent sign with two hexadecimal digits. -/
def escapedByte (b h l : UInt8) : Option UInt8 :=
  if b = 37 then do
    let high ← hexDigitValue h.toNat
    let low ← hexDigitValue l.toNat
    some (.ofNat (high * 16 + low))
  else none

/-- A byte that is no part of an escape. -/
def plainByte (b : UInt8) : UInt8 := if b = 43 then 32 else b

/-- The bytes that a text stands for. -/
def standsFor : Octets → Octets
  | [] => []
  | [b] => [plainByte b]
  | [b, c] => [plainByte b, plainByte c]
  | b :: h :: l :: rest =>
    match escapedByte b h l with
    | some value => value :: standsFor rest
    | none => plainByte b :: standsFor (h :: l :: rest)

/-- The slice after a percent sign is cut within a character, or is a plus sign and a digit. -/
def MisreadAt (h l : UInt8) (rest : Octets) : Prop :=
  (isContinuation h || rest.head?.any isContinuation) = true ∨ h = 43 ∧ (hexDigitValue l.toNat).isSome = true

/-- Somewhere in a text, what follows a percent sign is misread. -/
def Misread (input : Octets) : Prop :=
  ∃ before h l rest, input = before ++ 37 :: h :: l :: rest ∧ MisreadAt h l rest

/-! ### Reading byte by byte -/

section

variable {b h l : UInt8} {rest : Octets}

theorem percentBytes_plain (hb : b ≠ 37) :
    percentBytes (b :: rest) = (percentBytes rest).map (plainByte b :: ·) := by
  rcases rest with _ | ⟨h, _ | ⟨l, rest⟩⟩
  · rfl
  · rfl
  · rw [percentBytes, if_neg hb]
    split_ifs with hplus
    · rw [plainByte, if_pos hplus]
      rfl
    · rw [plainByte, if_neg hplus]
      rfl

theorem percentBytes_percent : percentBytes (37 :: h :: l :: rest) =
    if isContinuation h || rest.head?.any isContinuation then .error .panic
    else
      match parseHex h l with
      | some value => (percentBytes rest).map (value :: ·)
      | none => (percentBytes (h :: l :: rest)).map (37 :: ·) := by
  rw [percentBytes, if_neg (by decide), if_pos rfl]
  rfl

theorem standsFor_plain (hb : b ≠ 37) : standsFor (b :: rest) = plainByte b :: standsFor rest := by
  rcases rest with _ | ⟨h, _ | ⟨l, rest⟩⟩
  · rfl
  · rfl
  · rw [standsFor, escapedByte, if_neg hb]

theorem misread_plain (hb : b ≠ 37) : Misread (b :: rest) ↔ Misread rest := by
  constructor
  · rintro ⟨before, h, l, after, heq, hat⟩
    cases before with
    | nil =>
      rw [List.nil_append] at heq
      exact absurd (List.cons.inj heq).1 hb
    | cons d before => exact ⟨before, h, l, after, (List.cons.inj heq).2, hat⟩
  · rintro ⟨before, h, l, after, rfl, hat⟩
    exact ⟨b :: before, h, l, after, rfl, hat⟩

theorem misread_percent : Misread (37 :: h :: l :: rest) ↔ MisreadAt h l rest ∨ Misread (h :: l :: rest) := by
  constructor
  · rintro ⟨before, h', l', after, heq, hat⟩
    cases before with
    | nil =>
      cases heq
      exact .inl hat
    | cons d before => exact .inr ⟨before, h', l', after, (List.cons.inj heq).2, hat⟩
  · rintro (hat | ⟨before, h', l', after, heq, hat⟩)
    · exact ⟨[], h, l, rest, rfl, hat⟩
    · exact ⟨37 :: before, h', l', after, by rw [heq]; rfl, hat⟩

theorem not_misread_short (hshort : rest.length < 3) : ¬ Misread rest := by
  rintro ⟨before, h, l, after, rfl, -⟩
  rw [List.length_append, List.length_cons, List.length_cons, List.length_cons] at hshort
  omega

/-! ### Numbers of two digits -/

theorem hexDigitValue_eq_some {n v : ℕ} (hn : hexDigitValue n = some v) :
    v < 16 ∧ n ≠ 37 ∧ n ≠ 43 ∧ n < 128 := by
  rw [hexDigitValue] at hn
  split_ifs at hn with hdigit hlower hupper
  all_goals
    obtain rfl := Option.some.inj hn
    omega

theorem hexDigitValue_hexUpper {n : ℕ} (hn : n < 16) : hexDigitValue (hexUpper n).toNat = some n := by
  have hall : ∀ n < 16, hexDigitValue (hexUpper n).toNat = some n := by decide
  exact hall n hn

theorem parseHex_eq (hno : ¬ (h = 43 ∧ (hexDigitValue l.toNat).isSome = true)) :
    parseHex h l = escapedByte 37 h l := by
  rw [parseHex, escapedByte, if_pos rfl]
  cases hhigh : hexDigitValue h.toNat with
  | some high =>
    cases hlow : hexDigitValue l.toNat with
    | some low => rfl
    | none => rfl
  | none =>
    cases hlow : hexDigitValue l.toNat with
    | some low =>
      have hsign : h ≠ 43 := fun heq => hno ⟨heq, by rw [hlow]; rfl⟩
      exact if_neg hsign
    | none => rfl

theorem escapedByte_eq_some {value : UInt8} (hvalue : escapedByte b h l = some value) : h ≠ 37 ∧ l ≠ 37 := by
  rw [escapedByte] at hvalue
  split_ifs at hvalue
  obtain ⟨high, hhigh, hvalue⟩ := Option.bind_eq_some_iff.mp hvalue
  obtain ⟨low, hlow, -⟩ := Option.bind_eq_some_iff.mp hvalue
  refine ⟨?_, ?_⟩
  · rintro rfl
    exact (hexDigitValue_eq_some hhigh).2.1 rfl
  · rintro rfl
    exact (hexDigitValue_eq_some hlow).2.1 rfl

theorem misread_escaped {value : UInt8} (hvalue : escapedByte b h l = some value) :
    Misread (h :: l :: rest) ↔ Misread rest := by
  obtain ⟨hh, hl⟩ := escapedByte_eq_some hvalue
  rw [misread_plain hh, misread_plain hl]

/-! ### Texts in which nothing is misread -/

/-- What is not misread is read as it stands, by recursion over the bytes. -/
theorem percentBytes_eq_ok : ∀ {input : Octets}, ¬ Misread input → percentBytes input = .ok (standsFor input)
  | [], _ => rfl
  | [_], _ => rfl
  | [_, _], _ => rfl
  | b :: h :: l :: rest, hnot => by
    by_cases hb : b = 37
    · subst hb
      rw [misread_percent, MisreadAt, not_or, not_or] at hnot
      obtain ⟨⟨hcut, hsign⟩, hnot⟩ := hnot
      rw [percentBytes_percent, if_neg hcut, parseHex_eq hsign, standsFor]
      cases hvalue : escapedByte 37 h l with
      | some value =>
        have hrest := percentBytes_eq_ok fun hm => hnot ((misread_escaped hvalue).mpr hm)
        change (percentBytes rest).map (value :: ·) = _
        rw [hrest]
        rfl
      | none =>
        change (percentBytes (h :: l :: rest)).map (37 :: ·) = _
        rw [percentBytes_eq_ok hnot]
        rfl
    · have hrest := percentBytes_eq_ok fun hm => hnot ((misread_plain hb).mpr hm)
      rw [percentBytes_plain hb, standsFor_plain hb, hrest]
      rfl
  termination_by input => input.length

/-- Two readings part at a percent sign. -/
def Parts (output expected : Octets) : Prop :=
  ∃ before value after after', output = before ++ value :: after ∧ expected = before ++ 37 :: after' ∧
    value.toNat < 16

theorem Parts.cons {output expected : Octets} (hp : Parts output expected) (b : UInt8) :
    Parts (b :: output) (b :: expected) := by
  obtain ⟨before, value, after, after', rfl, rfl, hvalue⟩ := hp
  exact ⟨b :: before, value, after, after', rfl, rfl, hvalue⟩

/-- What is misread and not cut is another byte in the place of a percent sign. -/
theorem Misread.parts : ∀ {input output : Octets}, Misread input → percentBytes input = .ok output →
    Parts output (standsFor input)
  | [], _, hm, _ | [_], _, hm, _ | [_, _], _, hm, _ => absurd hm (not_misread_short (by simp))
  | b :: h :: l :: rest, output, hm, hout => by
    by_cases hb : b = 37
    · subst hb
      rw [percentBytes_percent] at hout
      split_ifs at hout with hcut
      rw [misread_percent, MisreadAt, or_iff_right hcut] at hm
      by_cases hsign : h = 43 ∧ (hexDigitValue l.toNat).isSome = true
      · obtain ⟨rfl, hdigit⟩ := hsign
        obtain ⟨low, hlow⟩ := Option.isSome_iff_exists.mp hdigit
        have hlt := (hexDigitValue_eq_some hlow).1
        have hparse : parseHex 43 l = some (.ofNat low) := by
          rw [parseHex, hlow]
          rfl
        rw [hparse] at hout
        obtain ⟨after, -, rfl⟩ := map_eq_ok.mp hout
        refine ⟨[], .ofNat low, after, standsFor (43 :: l :: rest), rfl, ?_, ?_⟩
        · rfl
        · rw [toNat_byte (by omega)]
          exact hlt
      · have hm := hm.resolve_left hsign
        rw [parseHex_eq hsign] at hout
        rw [standsFor]
        cases hvalue : escapedByte 37 h l with
        | some value =>
          rw [hvalue] at hout
          obtain ⟨after, hafter, rfl⟩ := map_eq_ok.mp hout
          exact (Misread.parts ((misread_escaped hvalue).mp hm) hafter).cons value
        | none =>
          rw [hvalue] at hout
          obtain ⟨after, hafter, rfl⟩ := map_eq_ok.mp hout
          exact (Misread.parts hm hafter).cons 37
    · rw [percentBytes_plain hb] at hout
      obtain ⟨after, hafter, rfl⟩ := map_eq_ok.mp hout
      rw [standsFor_plain hb]
      exact (Misread.parts ((misread_plain hb).mp hm) hafter).cons _
  termination_by input => input.length

/-- Readings that part are different texts. -/
theorem Parts.fromUtf8Lossy_ne {output expected : Octets} (hp : Parts output expected) :
    fromUtf8Lossy output ≠ fromUtf8Lossy expected := by
  obtain ⟨before, value, after, after', rfl, rfl, hvalue⟩ := hp
  rw [fromUtf8Lossy_append before after (by omega), fromUtf8Lossy_append before after' (by decide)]
  intro heq
  have hchar : Char.ofNat value.toNat = '%' := (List.cons.inj (List.append_cancel_left heq)).1
  have hsame : value.toNat = 37 := by
    rw [← toNat_ofNat_of_lt (n := value.toNat) (by omega), hchar]
    rfl
  omega

/-! ### What the encoder writes -/

theorem isContinuation_of_lt (hb : b.toNat < 128) : isContinuation b = false := by
  simp only [isContinuation, Bool.and_eq_false_iff, decide_eq_false_iff_not]
  exact .inl (by omega)

theorem isUnreserved_lt (hb : isUnreserved b = true) : b.toNat < 128 ∧ b ≠ 37 ∧ b ≠ 43 := by
  simp only [isUnreserved, Bool.or_eq_true, Bool.and_eq_true, decide_eq_true_eq] at hb
  refine ⟨?_, ?_, ?_⟩
  · rcases hb with (((((hb | hb) | hb) | rfl) | rfl) | rfl) | rfl
    all_goals first | omega | decide
  · rintro rfl
    revert hb
    decide
  · rintro rfl
    revert hb
    decide

theorem toNat_hexUpper_lt {n : ℕ} (hn : n < 16) : (hexUpper n).toNat < 128 :=
  (hexDigitValue_eq_some (hexDigitValue_hexUpper hn)).2.2.2

theorem escapeByte_lt {c : UInt8} (hc : c ∈ escapeByte b) : c.toNat < 128 := by
  have hlt : b.toNat < 256 := b.toNat_lt
  rw [escapeByte] at hc
  split_ifs at hc with hb
  · obtain rfl := List.mem_singleton.mp hc
    exact (isUnreserved_lt hb).1
  · simp only [List.mem_cons, List.not_mem_nil, or_false] at hc
    rcases hc with rfl | rfl | rfl
    · decide
    · exact toNat_hexUpper_lt (by omega)
    · exact toNat_hexUpper_lt (by omega)

theorem utf8Bytes_percentEncode (input : Text) :
    utf8Bytes (percentEncode input) = (utf8Bytes input).flatMap escapeByte := by
  have hlt : ∀ c ∈ (utf8Bytes input).flatMap escapeByte, c.toNat < 128 := by
    intro c hc
    obtain ⟨b, -, hb⟩ := List.mem_flatMap.mp hc
    exact escapeByte_lt hb
  rw [utf8Bytes, percentEncode, List.flatMap_map]
  refine (List.flatMap_congr fun c hc => utf8EncodeChar_ofNat (hlt c hc)).trans ?_
  exact List.flatMap_singleton' _

/-- The bytes of a text, escaped, are read again. -/
theorem percentBytes_flatMap_escapeByte (bytes : Octets) :
    percentBytes (bytes.flatMap escapeByte) = .ok bytes := by
  induction bytes with
  | nil => rfl
  | cons b bytes ih =>
    rw [List.flatMap_cons, escapeByte]
    split_ifs with hb
    · obtain ⟨-, hpercent, hplus⟩ := isUnreserved_lt hb
      rw [List.singleton_append, percentBytes_plain hpercent, ih, plainByte, if_neg hplus]
      rfl
    · have hlt : b.toNat < 256 := b.toNat_lt
      have hhigh := hexDigitValue_hexUpper (n := b.toNat / 16) (by omega)
      have hlow := hexDigitValue_hexUpper (n := b.toNat % 16) (by omega)
      have hcut : (isContinuation (hexUpper (b.toNat / 16)) ||
          (bytes.flatMap escapeByte).head?.any isContinuation) = false := by
        rw [isContinuation_of_lt (toNat_hexUpper_lt (by omega)), Bool.false_or]
        cases hhead : (bytes.flatMap escapeByte).head? with
        | none => rfl
        | some c =>
          obtain ⟨a, -, ha⟩ := List.mem_flatMap.mp (List.mem_of_head? hhead)
          exact isContinuation_of_lt (escapeByte_lt ha)
      have hparse : parseHex (hexUpper (b.toNat / 16)) (hexUpper (b.toNat % 16)) = some b := by
        rw [parseHex, hhigh, hlow]
        refine congrArg some (UInt8.toNat_inj.mp ?_)
        rw [toNat_byte (by omega)]
        omega
      change percentBytes (37 :: _ :: _ :: bytes.flatMap escapeByte) = _
      rw [percentBytes_percent, if_neg (by rw [hcut]; decide), hparse, ih]
      rfl

end

/-! ### The decoder -/

/-- **What the encoder writes is read again.** -/
theorem percentDecode_percentEncode (input : Text) : percentDecode (percentEncode input) = .ok input := by
  rw [percentDecode, utf8Bytes_percentEncode, percentBytes_flatMap_escapeByte]
  exact congrArg _ (fromUtf8Lossy_utf8Bytes input)

/-- **A text is decoded as it should be, and what is encoded is decoded again, if and only if nothing in the
text is misread.** -/
theorem percentDecode_eq_iff (input : Text) :
    percentDecode input = .ok (fromUtf8Lossy (standsFor (utf8Bytes input))) ∧
        percentDecode (percentEncode input) = .ok input ↔
      ¬ Misread (utf8Bytes input) := by
  constructor
  · rintro ⟨hdecode, -⟩ hm
    obtain ⟨output, hout, heq⟩ := bind_eq_ok.mp hdecode
    exact (hm.parts hout).fromUtf8Lossy_ne (Except.ok.inj heq)
  · intro hnot
    refine ⟨?_, percentDecode_percentEncode input⟩
    rw [percentDecode, percentBytes_eq_ok hnot]
    rfl

/-- A character of three bytes after a percent sign is cut, and a sign with a digit is a number. -/
theorem percentDecode_cut :
    percentDecode ['%', '€'] = .error .panic ∧ percentDecode ['%', '+', '5'] = .ok [Char.ofNat 5] ∧
      fromUtf8Lossy (standsFor (utf8Bytes ['%', '+', '5'])) = ['%', ' ', '5'] := by
  decide

end Workbench

end Ao2
