import Mathlib.Algebra.GroupWithZero.Nat
import Mathlib.Data.List.Basic
import Mathlib.Data.List.Chain
import Mathlib.Tactic.Common

/-!
# Strings of code points, and JSON strings in ASCII

A string of Python is a list of code points, and a surrogate is one of them: such a string can hold
a pair of surrogates that is not the character the pair stands for. A JSON string in ASCII spells
what is beyond the basic plane with such a pair, and a reader takes every pair for the character.
Writing and reading a string therefore gives it back exactly if it holds no pair.

## Main results

* `normal_eq_self_iff` — exactly the strings without pairs survive
* `scanString_quoted` — what is written is read back
* `scanString_of_torn` — a string that is cut off cannot be read
-/

namespace Ao2

namespace Python

/-- A code point; surrogates are code points too. -/
abbrev CodePoint := Fin 1114112

abbrev PyStr := List CodePoint

instance neZero_codePoints : NeZero 1114112 := ⟨by decide⟩

instance lawfulBEq_pyStr : LawfulBEq PyStr := inferInstance

def ofChar (c : Char) : CodePoint :=
  ⟨c.toNat, by
    have h : c.toNat < 0xd800 ∨ 0xdfff < c.toNat ∧ c.toNat < 0x110000 := c.valid
    omega⟩

/-- A text as a string of Python. -/
def ofString (s : String) : PyStr := s.toList.map ofChar

theorem ofChar_injective : Function.Injective ofChar := by
  intro c d h
  exact Char.ext (UInt32.toNat_inj.mp (by simpa [ofChar] using h))

@[simp]
theorem ofString_inj {s t : String} : ofString s = ofString t ↔ s = t := by
  rw [ofString, ofString, (List.map_injective_iff.mpr ofChar_injective).eq_iff, String.toList_inj]

@[simp]
theorem ofString_beq (s t : String) : (ofString s == ofString t) = (s == t) := by
  rw [Bool.eq_iff_iff, beq_iff_eq, beq_iff_eq, ofString_inj]

/-! ### Surrogates -/

def IsHigh (c : CodePoint) : Prop := 0xd800 ≤ c.val ∧ c.val < 0xdc00

def IsLow (c : CodePoint) : Prop := 0xdc00 ≤ c.val ∧ c.val < 0xe000

instance (c : CodePoint) : Decidable (IsHigh c) := inferInstanceAs (Decidable (_ ∧ _))

instance (c : CodePoint) : Decidable (IsLow c) := inferInstanceAs (Decidable (_ ∧ _))

/-- The character that a pair of surrogates stands for. -/
def pair (high low : CodePoint) : CodePoint :=
  ⟨0x10000 + (high.val - 0xd800) % 0x400 * 0x400 + (low.val - 0xdc00) % 0x400, by omega⟩

/-- A code point as one or two units of sixteen bits. -/
def units (c : CodePoint) : List CodePoint :=
  if c.val < 0x10000 then [c]
  else [⟨0xd800 + (c.val - 0x10000) / 0x400, by omega⟩,
    ⟨0xdc00 + (c.val - 0x10000) % 0x400, by omega⟩]

/-- Every pair of surrogates becomes the character it stands for. -/
def joinSurrogates : List CodePoint → PyStr
  | [] => []
  | [c] => [c]
  | c :: d :: rest =>
    if IsHigh c ∧ IsLow d then pair c d :: joinSurrogates rest
    else c :: joinSurrogates (d :: rest)

/-- A string without a pair of surrogates. -/
def Joined (s : PyStr) : Prop := s.IsChain fun c d => ¬ (IsHigh c ∧ IsLow d)

instance (s : PyStr) : Decidable (Joined s) := inferInstanceAs (Decidable (List.IsChain _ s))

theorem joinSurrogates_cons {c : CodePoint} {s : List CodePoint}
    (h : ∀ d ∈ s.head?, ¬ (IsHigh c ∧ IsLow d)) : joinSurrogates (c :: s) = c :: joinSurrogates s := by
  cases s with
  | nil => rfl
  | cons d rest => exact if_neg (h d rfl)

theorem units_lt {c u : CodePoint} (h : u ∈ units c) : u.val < 0x10000 := by
  unfold units at h
  split at h
  case isTrue hc => rwa [List.mem_singleton.mp h]
  case isFalse =>
    simp only [List.mem_cons, List.not_mem_nil, or_false] at h
    rcases h with rfl | rfl
    · change 0xd800 + (c.val - 0x10000) / 0x400 < 0x10000
      omega
    · change 0xdc00 + (c.val - 0x10000) % 0x400 < 0x10000
      omega

/-- The units of a character beyond the basic plane are joined again. -/
theorem joinSurrogates_units_append (c : CodePoint) (h : 0x10000 ≤ c.val) (s : List CodePoint) :
    joinSurrogates (units c ++ s) = c :: joinSurrogates s := by
  rw [units, if_neg (by omega)]
  have hpair : IsHigh ⟨0xd800 + (c.val - 0x10000) / 0x400, by omega⟩ ∧
      IsLow ⟨0xdc00 + (c.val - 0x10000) % 0x400, by omega⟩ :=
    ⟨⟨by simp, by simp; omega⟩, by simp, by simp; omega⟩
  change (if _ then _ else _) = _
  rw [if_pos hpair]
  refine congrArg (· :: joinSurrogates s) (Fin.ext ?_)
  change 0x10000 + (0xd800 + (c.val - 0x10000) / 0x400 - 0xd800) % 0x400 * 0x400 +
    (0xdc00 + (c.val - 0x10000) % 0x400 - 0xdc00) % 0x400 = c.val
  omega

/-- Some string begins with a low surrogate if its units do. -/
theorem isLow_of_units {s : PyStr} {u : CodePoint} (hu : u ∈ (s.flatMap units).head?)
    (hlow : IsLow u) : u ∈ s.head? := by
  cases s with
  | nil => cases hu
  | cons c s =>
    rw [List.flatMap_cons] at hu
    unfold units at hu
    split at hu
    case isTrue => exact hu
    case isFalse hc =>
      obtain rfl : (⟨0xd800 + (c.val - 0x10000) / 0x400, by omega⟩ : CodePoint) = u :=
        Option.some.inj hu
      have hlow : 0xdc00 ≤ 0xd800 + (c.val - 0x10000) / 0x400 := hlow.1
      omega

theorem joinSurrogates_units {s : PyStr} (h : Joined s) : joinSurrogates (s.flatMap units) = s := by
  induction s with
  | nil => rfl
  | cons c s ih =>
    have hs : Joined s := List.IsChain.tail h
    rw [List.flatMap_cons]
    by_cases hc : c.val < 0x10000
    · rw [units, if_pos hc, List.singleton_append, joinSurrogates_cons, ih hs]
      rintro d hd ⟨hhigh, hlow⟩
      have hd : d ∈ s.head? := isLow_of_units hd hlow
      cases s with
      | nil => cases hd
      | cons e s =>
        cases hd
        exact (List.isChain_cons_cons.mp h).1 ⟨hhigh, hlow⟩
    · rw [joinSurrogates_units_append c (by omega), ih hs]

/-- What is joined holds no pair, and begins with a low surrogate only where the units do. -/
theorem joined_joinSurrogates (s : List CodePoint) :
    Joined (joinSurrogates s) ∧ ∀ d ∈ (joinSurrogates s).head?, IsLow d → d ∈ s.head? := by
  fun_induction joinSurrogates s with
  | case1 => exact ⟨.nil, fun _ hd => nomatch hd⟩
  | case2 c => exact ⟨.singleton c, fun _ hd _ => hd⟩
  | case3 c d rest hpair ih =>
    have hnot : ¬ IsHigh (pair c d) ∧ ¬ IsLow (pair c d) := by
      simp only [IsHigh, IsLow, pair]
      omega
    refine ⟨List.IsChain.cons ih.1 fun _ _ h => hnot.1 h.1, fun e he hlow => ?_⟩
    rw [← Option.some.inj he] at hlow
    exact absurd hlow hnot.2
  | case4 c d rest hpair ih =>
    refine ⟨List.IsChain.cons ih.1 fun e he h => ?_, fun e he _ => he⟩
    obtain rfl := Option.some.inj (ih.2 e he h.2)
    exact hpair h

/-- A string as it is read back: with every pair of surrogates joined. -/
def normal (s : PyStr) : PyStr := joinSurrogates (s.flatMap units)

theorem joined_normal (s : PyStr) : Joined (normal s) := (joined_joinSurrogates _).1

/-- **Exactly the strings without pairs survive** being taken apart and joined. -/
theorem normal_eq_self_iff {s : PyStr} : normal s = s ↔ Joined s := by
  refine ⟨fun h => ?_, joinSurrogates_units⟩
  rw [← h]
  exact joined_normal s

theorem joinSurrogates_ne_nil {s : List CodePoint} (h : s ≠ []) : joinSurrogates s ≠ [] := by
  fun_cases joinSurrogates s with
  | case1 => exact absurd rfl h
  | case2 => exact List.cons_ne_nil _ _
  | case3 => exact List.cons_ne_nil _ _
  | case4 => exact List.cons_ne_nil _ _

theorem normal_ne_nil {s : PyStr} (h : s ≠ []) : normal s ≠ [] := by
  cases s with
  | nil => exact absurd rfl h
  | cons c s =>
    refine joinSurrogates_ne_nil ?_
    rw [List.flatMap_cons, units]
    split <;> exact List.cons_ne_nil _ _

/-! ### JSON strings -/

/-- A number below 2 ^ 16 in four hexadecimal digits. -/
def hexDigits (n : ℕ) : List Char :=
  [(n / 4096 % 16).digitChar, (n / 256 % 16).digitChar, (n / 16 % 16).digitChar, (n % 16).digitChar]

/-- The escape of a character that has a short one. -/
def shortEscape (n : ℕ) : Option Char :=
  if n = 34 then some '"'
  else if n = 92 then some '\\'
  else if n = 10 then some 'n'
  else if n = 13 then some 'r'
  else if n = 9 then some 't'
  else if n = 12 then some 'f'
  else if n = 8 then some 'b'
  else none

/-- A unit within a JSON string in ASCII. -/
def escapeUnit (u : CodePoint) : List Char :=
  match shortEscape u.val with
  | some e => ['\\', e]
  | none =>
    if 32 ≤ u.val ∧ u.val ≤ 126 then [.ofNat u.val]
    else '\\' :: 'u' :: hexDigits u.val

/-- What a string is between its quotes. -/
def quoted (s : PyStr) : List Char := (s.flatMap units).flatMap escapeUnit

/-- A string as a JSON string in ASCII. -/
def quote (s : PyStr) : List Char := '"' :: (quoted s ++ ['"'])

def hexValue (c : Char) : Option ℕ :=
  if '0' ≤ c ∧ c ≤ '9' then some (c.toNat - '0'.toNat)
  else if 'a' ≤ c ∧ c ≤ 'f' then some (c.toNat - 'a'.toNat + 10)
  else if 'A' ≤ c ∧ c ≤ 'F' then some (c.toNat - 'A'.toNat + 10)
  else none

/-- The value of four hexadecimal digits. -/
def hexUnit (a b c d : Char) : Option CodePoint := do
  let a ← hexValue a
  let b ← hexValue b
  let c ← hexValue c
  let d ← hexValue d
  pure (Fin.ofNat _ (a * 4096 + b * 256 + c * 16 + d))

/-- The character of a short escape. -/
def unescape (e : Char) : Option CodePoint :=
  if e = '"' then some 34
  else if e = '\\' then some 92
  else if e = '/' then some 47
  else if e = 'n' then some 10
  else if e = 'r' then some 13
  else if e = 't' then some 9
  else if e = 'f' then some 12
  else if e = 'b' then some 8
  else none

/-- Read what follows a backslash. -/
def scanEscape : List Char → Option (CodePoint × List Char)
  | 'u' :: a :: b :: c :: d :: rest => (hexUnit a b c d).map (·, rest)
  | e :: rest => (unescape e).map (·, rest)
  | [] => none

/-- Read the units of a JSON string after its first quote, and what follows its last one. The number
bounds the units. -/
def scanUnits : ℕ → List Char → Option (List CodePoint × List Char)
  | 0, _ => none
  | _, [] => none
  | n + 1, c :: rest =>
    if c = '"' then some ([], rest)
    else if c = '\\' then do
      let (u, rest) ← scanEscape rest
      let (us, rest) ← scanUnits n rest
      pure (u :: us, rest)
    else if c.toNat < 32 then none
    else do
      let (us, rest) ← scanUnits n rest
      pure (ofChar c :: us, rest)

/-- A character that may stand between the parts of a JSON text. -/
def isSpace (c : Char) : Bool := c = ' ' ∨ c = '\t' ∨ c = '\n' ∨ c = '\r'

/-- Read a JSON string after its first quote. -/
def scanString (text : List Char) : Option (PyStr × List Char) :=
  (scanUnits (text.length + 1) text).map fun (us, rest) => (joinSurrogates us, rest)

/-! ### What is written is read back -/

theorem hexValue_digitChar : ∀ n < 16, hexValue n.digitChar = some n := by decide

theorem hexUnit_hexDigits {u : CodePoint} (hu : u.val < 0x10000) :
    hexUnit (u.val / 4096 % 16).digitChar (u.val / 256 % 16).digitChar (u.val / 16 % 16).digitChar
      (u.val % 16).digitChar = some u := by
  unfold hexUnit
  rw [hexValue_digitChar _ (Nat.mod_lt _ (by omega)), hexValue_digitChar _ (Nat.mod_lt _ (by omega)),
    hexValue_digitChar _ (Nat.mod_lt _ (by omega)), hexValue_digitChar _ (Nat.mod_lt _ (by omega))]
  refine congrArg some (Fin.ext ?_)
  rw [Fin.val_ofNat]
  omega

/-- A short escape is read as the character it is one of, and starts no code. -/
theorem unescape_shortEscape {u : CodePoint} {e : Char} (h : shortEscape u.val = some e) :
    unescape e = some u ∧ e ≠ 'u' := by
  unfold shortEscape at h
  split_ifs at h with h1 h2 h3 h4 h5 h6 h7
  all_goals
    cases h
    refine ⟨?_, by decide⟩
    first
    | rw [show u = 34 from Fin.ext h1]; rfl
    | rw [show u = 92 from Fin.ext h2]; rfl
    | rw [show u = 10 from Fin.ext h3]; rfl
    | rw [show u = 13 from Fin.ext h4]; rfl
    | rw [show u = 9 from Fin.ext h5]; rfl
    | rw [show u = 12 from Fin.ext h6]; rfl
    | rw [show u = 8 from Fin.ext h7]; rfl

theorem scanEscape_of_ne {e : Char} (he : e ≠ 'u') (rest : List Char) :
    scanEscape (e :: rest) = (unescape e).map (·, rest) := by
  unfold scanEscape
  split
  case h_1 heq => exact absurd (List.cons.inj heq).1 he
  case h_2 heq => cases heq; rfl
  case h_3 heq => cases heq

theorem toNat_ofNat : ∀ n < 127, (Char.ofNat n).toNat = n := by decide

/-- What has no short escape is neither a quote nor a backslash. -/
theorem shortEscape_none {n : ℕ} (h : shortEscape n = none) :
    n ≠ ('"').toNat ∧ n ≠ ('\\').toNat := by
  constructor
  · rintro rfl
    cases h
  · rintro rfl
    cases h

/-- A unit that is written is read. -/
theorem scanUnits_escapeUnit (n : ℕ) {u : CodePoint} (hu : u.val < 0x10000) (rest : List Char) :
    scanUnits (n + 1) (escapeUnit u ++ rest) =
      (scanUnits n rest).map fun r => (u :: r.1, r.2) := by
  unfold escapeUnit
  cases hshort : shortEscape u.val with
  | some e =>
    obtain ⟨hunescape, he⟩ := unescape_shortEscape hshort
    change (scanEscape (e :: rest)).bind _ = _
    rw [scanEscape_of_ne he, hunescape]
    change (scanUnits n rest).bind _ = _
    cases scanUnits n rest <;> rfl
  | none =>
    dsimp only
    split
    case isTrue hprintable =>
      have hval : (Char.ofNat u.val).toNat = u.val := toNat_ofNat _ (by omega)
      have hchar : ofChar (.ofNat u.val) = u := Fin.ext hval
      have hne (c : Char) (hc : u.val ≠ c.toNat) : Char.ofNat u.val ≠ c := by
        rintro rfl
        exact hc hval.symm
      have hplain := shortEscape_none hshort
      rw [List.singleton_append, scanUnits, if_neg (hne _ hplain.1), if_neg (hne _ hplain.2),
        if_neg (by omega), hchar]
      change (scanUnits n rest).bind _ = _
      cases scanUnits n rest <;> rfl
    case isFalse =>
      change (scanEscape ('u' :: _ :: _ :: _ :: _ :: rest)).bind _ = _
      rw [scanEscape, hexUnit_hexDigits hu]
      change (scanUnits n rest).bind _ = _
      cases scanUnits n rest <;> rfl

/-- Units that are written are read, up to the quote that ends them. -/
theorem scanUnits_escaped {us : List CodePoint} (hus : ∀ u ∈ us, u.val < 0x10000) {n : ℕ}
    (hn : us.length < n) (rest : List Char) :
    scanUnits n (us.flatMap escapeUnit ++ '"' :: rest) = some (us, rest) := by
  induction us generalizing n with
  | nil =>
    cases n with
    | zero => exact absurd hn (Nat.not_lt_zero _)
    | succ n => rfl
  | cons u us ih =>
    cases n with
    | zero => exact absurd hn (Nat.not_lt_zero _)
    | succ n =>
      rw [List.flatMap_cons, List.append_assoc, scanUnits_escapeUnit n (hus u List.mem_cons_self),
        ih (fun v hv => hus v (List.mem_cons_of_mem u hv)) (Nat.lt_of_succ_lt_succ hn)]
      rfl

theorem escapeUnit_ne_nil (u : CodePoint) : escapeUnit u ≠ [] := by
  unfold escapeUnit
  split
  · exact List.cons_ne_nil _ _
  · split <;> exact List.cons_ne_nil _ _

theorem length_le_flatMap_escapeUnit (us : List CodePoint) :
    us.length ≤ (us.flatMap escapeUnit).length := by
  induction us with
  | nil => exact Nat.le_refl 0
  | cons u us ih =>
    have hu : 0 < (escapeUnit u).length := List.length_pos_iff.mpr (escapeUnit_ne_nil u)
    rw [List.flatMap_cons, List.length_append, List.length_cons]
    omega

/-- **A string that is written is read back**, with every pair joined. -/
theorem scanString_quoted (s : PyStr) (rest : List Char) :
    scanString (quoted s ++ '"' :: rest) = some (normal s, rest) := by
  unfold scanString quoted
  rw [scanUnits_escaped]
  · rfl
  · intro u hu
    obtain ⟨c, -, hc⟩ := List.mem_flatMap.mp hu
    exact units_lt hc
  · have := length_le_flatMap_escapeUnit (s.flatMap units)
    rw [List.length_append]
    omega

/-! ### What is cut off is not read -/

/-- A text before which a string or a value may have been cut off: the end, or a new value. -/
def OpensOrEnds (text : List Char) : Prop := text = [] ∨ ∃ rest, text = '{' :: rest

/-- Nothing in a record goes on with this text. -/
def Blocked (text : List Char) : Prop :=
  ∀ c ∈ text.head?, isSpace c = false ∧ c ≠ ':' ∧ c ≠ ',' ∧ c ≠ '}'

theorem blocked_cons {c : Char} {text : List Char} :
    Blocked (c :: text) ↔ isSpace c = false ∧ c ≠ ':' ∧ c ≠ ',' ∧ c ≠ '}' := by
  simp [Blocked]

instance : DecidablePred Blocked
  | [] => .isTrue fun _ h => nomatch h
  | _ :: _ => decidable_of_iff _ blocked_cons.symm

/-- What was read, if anything, is followed by nothing that goes on. -/
def Stuck {V : Type} (read : Option (V × List Char)) : Prop := ∀ r ∈ read, Blocked r.2

theorem stuck_none {V : Type} : Stuck (none : Option (V × List Char)) := fun _ h => nomatch h

theorem Stuck.map {V W : Type} {read : Option (V × List Char)} (h : Stuck read) (f : V → W) :
    Stuck (read.map fun r => (f r.1, r.2)) := by
  intro r hr
  obtain ⟨r', hr', rfl⟩ := Option.map_eq_some_iff.mp hr
  exact h r' hr'

theorem OpensOrEnds.blocked {text : List Char} (h : OpensOrEnds text) : Blocked text := by
  intro c hc
  obtain rfl | ⟨rest, rfl⟩ := h
  · cases hc
  · obtain rfl : '{' = c := Option.some.inj hc
    decide

/-- A text that is cut off is cut off in its first part, or later. -/
theorem prefix_append_cases {α : Type} {p a b : List α} (h : p <+: a ++ b) :
    (p <+: a ∧ p ≠ a) ∨ ∃ p', p = a ++ p' ∧ p' <+: b := by
  obtain ⟨t, ht⟩ := h
  obtain ⟨c, rfl, hc⟩ | ⟨c, rfl, hc⟩ := List.append_eq_append_iff.mp ht
  · cases c with
    | nil => exact .inr ⟨[], by simp, List.nil_prefix⟩
    | cons x c => exact .inl ⟨List.prefix_append p _, by simp⟩
  · exact .inr ⟨c, rfl, t, hc.symm⟩

theorem prefix_singleton {α : Type} {p : List α} {a : α} : p <+: [a] ↔ p = [] ∨ p = [a] := by
  rw [List.prefix_cons_iff]
  simp

theorem scanEscape_code {text : List Char}
    (h : ∀ a b c d rest, text = a :: b :: c :: d :: rest → hexUnit a b c d = none) :
    scanEscape ('u' :: text) = none := by
  match text with
  | [] => rfl
  | [a] => rfl
  | [a, b] => rfl
  | [a, b, c] => rfl
  | a :: b :: c :: d :: rest => rw [scanEscape, h a b c d rest rfl]; rfl

/-- A brace is no hexadecimal digit. -/
theorem hexUnit_brace {a b c d : Char} (h : '{' ∈ [a, b, c, d]) : hexUnit a b c d = none := by
  have hbrace : hexValue '{' = none := by decide
  simp only [List.mem_cons, List.not_mem_nil, or_false] at h
  rcases h with rfl | rfl | rfl | rfl
  · simp [hexUnit, hbrace]
  · cases ha : hexValue a <;> simp [hexUnit, ha, hbrace]
  · cases ha : hexValue a <;> cases hb : hexValue b <;> simp [hexUnit, ha, hb, hbrace]
  · cases ha : hexValue a <;> cases hb : hexValue b <;> cases hc : hexValue c <;>
      simp [hexUnit, ha, hb, hc, hbrace]

/-- An escape that is cut off cannot be read, nor can one with a brace in it. -/
theorem scanEscape_of_torn {n : ℕ} {q more : List Char} (hq : q <+: 'u' :: hexDigits n)
    (hne : q ≠ 'u' :: hexDigits n) (hmore : OpensOrEnds more) : scanEscape (q ++ more) = none := by
  cases q with
  | nil =>
    obtain rfl | ⟨rest, rfl⟩ := hmore
    · rfl
    · rw [List.nil_append, scanEscape_of_ne (by decide)]
      rfl
  | cons c q =>
    obtain ⟨rfl, hdigits⟩ := List.cons_prefix_cons.mp hq
    have hlength : q.length < 4 := by
      refine lt_of_le_of_ne hdigits.length_le fun h => hne ?_
      rw [hdigits.eq_of_length h]
    refine scanEscape_code fun a b c d rest heq => hexUnit_brace ?_
    change q ++ more = _ at heq
    have htake : [a, b, c, d] = (q ++ more).take 4 := by rw [heq]; rfl
    rw [htake, List.take_append, List.take_of_length_le hlength.le]
    obtain rfl | ⟨rest', rfl⟩ := hmore
    · have := congrArg List.length heq
      simp at this
      omega
    · obtain ⟨k, hk⟩ : ∃ k, 4 - q.length = k + 1 := ⟨3 - q.length, by omega⟩
      rw [hk, List.take_succ_cons]
      simp

/-- A unit that is cut off is the beginning of an escape, or nothing. -/
theorem scanUnits_of_torn_unit (n : ℕ) {u : CodePoint} {p more : List Char}
    (hp : p <+: escapeUnit u) (hne : p ≠ escapeUnit u) (hmore : OpensOrEnds more) :
    p = [] ∨ scanUnits n (p ++ more) = none := by
  cases p with
  | nil => exact .inl rfl
  | cons c q =>
    right
    cases n with
    | zero => rfl
    | succ n =>
      -- only an escape has a beginning that is not empty
      obtain ⟨q', hescape, hq⟩ : ∃ q', escapeUnit u = '\\' :: q' ∧
          ∀ q, q <+: q' → q ≠ q' → scanEscape (q ++ more) = none := by
        unfold escapeUnit at hp hne ⊢
        cases hshort : shortEscape u.val with
        | some e =>
          refine ⟨[e], rfl, fun q hq hqe => ?_⟩
          obtain rfl | rfl := prefix_singleton.mp hq
          · exact scanEscape_of_torn (n := 0) List.nil_prefix (by simp) hmore
          · exact absurd rfl hqe
        | none =>
          rw [hshort] at hp hne
          dsimp only at hp hne ⊢
          split at hp
          case isTrue hprintable =>
            rw [if_pos hprintable] at hne
            obtain h | h := prefix_singleton.mp hp
            · cases h
            · exact absurd h hne
          case isFalse hprintable =>
            exact ⟨_, if_neg hprintable, fun q hq hqe => scanEscape_of_torn hq hqe hmore⟩
      rw [hescape] at hp hne
      obtain ⟨rfl, hq'⟩ := List.cons_prefix_cons.mp hp
      change (scanEscape (q ++ more)).bind _ = none
      rw [hq q hq' fun h => hne (h ▸ rfl)]
      rfl

/-- Units that are cut off, with something after them. -/
theorem scanUnits_of_torn {us : List CodePoint} (hus : ∀ u ∈ us, u.val < 0x10000) (n : ℕ)
    {p more : List Char} (hp : p <+: us.flatMap escapeUnit) (hmore : OpensOrEnds more)
    (hstuck : ∀ n, Stuck (scanUnits n more)) : Stuck (scanUnits n (p ++ more)) := by
  induction us generalizing n p with
  | nil =>
    rw [List.prefix_nil.mp hp]
    exact hstuck n
  | cons u us ih =>
    rw [List.flatMap_cons] at hp
    obtain ⟨hunit, hne⟩ | ⟨p, rfl, hrest⟩ := prefix_append_cases hp
    · obtain rfl | hnone := scanUnits_of_torn_unit n hunit hne hmore
      · exact hstuck n
      · rw [hnone]
        exact stuck_none
    · cases n with
      | zero => exact stuck_none
      | succ n =>
        rw [List.append_assoc, scanUnits_escapeUnit n (hus u List.mem_cons_self)]
        exact (ih (fun v hv => hus v (List.mem_cons_of_mem u hv)) n hrest).map _

/-- **A string that is cut off cannot be read**, or it ends in what comes after it. -/
theorem scanString_of_torn {s : PyStr} {p more : List Char} (hp : p <+: quoted s)
    (hmore : OpensOrEnds more) (hstuck : ∀ n, Stuck (scanUnits n more)) :
    Stuck (scanString (p ++ more)) := by
  refine (scanUnits_of_torn (fun u hu => ?_) _ hp hmore hstuck).map _
  obtain ⟨c, -, hc⟩ := List.mem_flatMap.mp hu
  exact units_lt hc

/-! ### Lines -/

/-- A character at which a text is split into lines. -/
def isLineBreak (c : Char) : Bool := c.toNat ∈ [10, 11, 12, 13, 28, 29, 30, 133, 8232, 8233]

/-- The lines of a text, of which a part of the first has been read. -/
def splitlinesFrom (line : List Char) : List Char → List (List Char)
  | [] => if line = [] then [] else [line]
  | '\r' :: '\n' :: rest => line :: splitlinesFrom [] rest
  | c :: rest =>
    if isLineBreak c then line :: splitlinesFrom [] rest else splitlinesFrom (line ++ [c]) rest

/-- The lines of a text. What follows the last line break is a line if there is anything. -/
def splitlines (text : List Char) : List (List Char) := splitlinesFrom [] text

theorem splitlinesFrom_append {line : List Char} (h : ∀ c ∈ line, isLineBreak c = false)
    (read rest : List Char) : splitlinesFrom read (line ++ rest) = splitlinesFrom (read ++ line) rest := by
  induction line generalizing read with
  | nil => rw [List.nil_append, List.append_nil]
  | cons c line ih =>
    have hc : isLineBreak c = false := h c List.mem_cons_self
    have hr : c ≠ '\r' := by
      rintro rfl
      cases hc
    rw [List.cons_append, splitlinesFrom, if_neg (by rw [hc]; exact Bool.false_ne_true),
      ih (fun d hd => h d (List.mem_cons_of_mem c hd)), List.append_assoc, List.singleton_append]
    exact fun _ heq _ => hr heq

/-- A line that ends is the first one. -/
theorem splitlines_line {line : List Char} (h : ∀ c ∈ line, isLineBreak c = false)
    (rest : List Char) : splitlines (line ++ '\n' :: rest) = line :: splitlines rest := by
  rw [splitlines, splitlinesFrom_append h, splitlinesFrom, if_pos (by decide)]
  · rfl
  · exact fun _ heq => absurd heq (by decide)

/-- What follows the last line break. -/
theorem splitlines_unbroken {line : List Char} (h : ∀ c ∈ line, isLineBreak c = false) :
    splitlines line = if line = [] then [] else [line] := by
  have := splitlinesFrom_append h [] []
  rwa [List.append_nil] at this

/-- A text splits where its lines end, by induction on them. -/
theorem splitlines_lines {lines : List (List Char)}
    (h : ∀ line ∈ lines, ∀ c ∈ line, isLineBreak c = false) (rest : List Char) :
    splitlines (lines.flatMap (· ++ ['\n']) ++ rest) = lines ++ splitlines rest := by
  induction lines with
  | nil => rfl
  | cons line lines ih =>
    rw [List.flatMap_cons, List.append_assoc, List.append_assoc, List.singleton_append,
      splitlines_line (h line List.mem_cons_self), List.cons_append,
      ih fun line hline => h line (List.mem_cons_of_mem _ hline)]

end Python

end Ao2
