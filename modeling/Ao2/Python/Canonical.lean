import Ao2.Checks
import Ao2.Json.Printed
import Ao2.Python.Values

/-!
# Canonical forms tell values apart

Two values with the same canonical form have the same members in them, whatever the order of their
keys. Characters end where their bytes end, and values where their texts end; of a floating point
number nothing is used but that its text is one, with a point or an exponent, and that of no other.

## Main results

* `canonicalText_append_inj` — a value and what follows it
-/

namespace Ao2

namespace Python

/-! ### Characters in UTF-8 -/

/-- **The bytes of a character end where they end**: no other character goes on with them. -/
theorem utf8Char_append_inj {c d : CodePoint} {a b r r' : Bytes} (hc : utf8Char c = some a)
    (hd : utf8Char d = some b) (h : a ++ r = b ++ r') : c = d ∧ r = r' := by
  have hclt := c.isLt
  have hdlt := d.isLt
  rw [utf8Char] at hc hd
  -- the first byte tells how many there are
  split_ifs at hc with hc0 hc1 hc2 hc3 <;> split_ifs at hd with hd0 hd1 hd2 hd3 <;>
    obtain rfl := Option.some.inj hc <;> obtain rfl := Option.some.inj hd <;>
    simp only [List.cons_append, List.nil_append, List.cons.injEq, ← UInt8.toNat_inj,
      UInt8.toNat_ofNat'] at h
  all_goals first
    | omega
    | exact ⟨Fin.ext (by omega), by simp only [h]⟩

theorem encodeUtf8_cons_eq_ok {c : CodePoint} {s : PyStr} {bytes : Bytes} :
    encodeUtf8 (c :: s) = .ok bytes ↔ ∃ a rest, utf8Char c = some a ∧ encodeUtf8 s = .ok rest ∧
      a ++ rest = bytes := by
  rw [encodeUtf8]
  cases utf8Char c with
  | none => simp
  | some a => simp [map_eq_ok]

theorem utf8Char_ne_nil {c : CodePoint} : utf8Char c ≠ some [] := by
  rw [utf8Char]
  split_ifs <;> simp

theorem encodeUtf8_injective {s t : PyStr} {bytes : Bytes} (hs : encodeUtf8 s = .ok bytes)
    (ht : encodeUtf8 t = .ok bytes) : s = t := by
  have hempty {c : CodePoint} {s : PyStr} : encodeUtf8 (c :: s) ≠ .ok [] := fun h => by
    obtain ⟨a, rest, ha, -, happend⟩ := encodeUtf8_cons_eq_ok.mp h
    rw [(List.append_eq_nil_iff.mp happend).1] at ha
    exact utf8Char_ne_nil ha
  induction s generalizing t bytes with
  | nil =>
    obtain rfl := Except.ok.inj hs
    cases t with
    | nil => rfl
    | cons d t => exact absurd ht hempty
  | cons c s ih =>
    cases t with
    | nil =>
      obtain rfl := Except.ok.inj ht
      exact absurd hs hempty
    | cons d t =>
      obtain ⟨a, rest, ha, hrest, rfl⟩ := encodeUtf8_cons_eq_ok.mp hs
      obtain ⟨b, rest', hb, hrest', happend⟩ := encodeUtf8_cons_eq_ok.mp ht
      obtain ⟨rfl, rfl⟩ := utf8Char_append_inj ha hb happend.symm
      rw [ih hrest hrest']

/-! ### Texts -/

/-- A character has a short escape, or a code, or stands for itself. -/
theorem escapeChar_cases (c : CodePoint) :
    (∃ e, shortEscape c.val = some e ∧ escapeChar c = [ofChar '\\', ofChar e]) ∨
      (c.val < 0x10000 ∧
        escapeChar c = ofChar '\\' :: ofChar 'u' :: (hexDigits c.val).map ofChar) ∨
      (c ≠ ofChar '\\' ∧ c ≠ ofChar '"' ∧ escapeChar c = [c]) := by
  rw [escapeChar]
  cases hshort : shortEscape c.val with
  | some e => exact .inl ⟨e, rfl, rfl⟩
  | none =>
    dsimp only
    split
    · next hcontrol => exact .inr (.inl ⟨by omega, rfl⟩)
    · refine .inr (.inr ⟨?_, ?_, rfl⟩)
      · rintro rfl
        cases hshort
      · rintro rfl
        cases hshort

theorem hexDigits_injective {c d : CodePoint} (hc : c.val < 0x10000) (hd : d.val < 0x10000)
    (h : hexDigits c.val = hexDigits d.val) : c = d := by
  have hread := hexUnit_hexDigits hc
  simp only [hexDigits, List.cons.injEq, and_true] at h
  obtain ⟨h1, h2, h3, h4⟩ := h
  rw [h1, h2, h3, h4, hexUnit_hexDigits hd] at hread
  exact (Option.some.inj hread).symm

/-- **A character ends where its escape ends.** -/
theorem escapeChar_append_inj {c d : CodePoint} {r r' : PyStr}
    (h : escapeChar c ++ r = escapeChar d ++ r') : c = d ∧ r = r' := by
  have hu {e : Char} {v : CodePoint} (he : shortEscape v.val = some e) : ofChar e ≠ ofChar 'u' :=
    fun heq => (unescape_shortEscape he).2 (ofChar_injective heq)
  rcases escapeChar_cases c with ⟨e, he, hc⟩ | ⟨hlow, hc⟩ | ⟨hslash, -, hc⟩ <;>
    rcases escapeChar_cases d with ⟨e', he', hd⟩ | ⟨hlow', hd⟩ | ⟨hslash', -, hd⟩ <;>
    rw [hc, hd] at h <;>
    simp only [List.cons_append, List.nil_append, List.cons.injEq, true_and] at h
  · obtain ⟨hee, rfl⟩ := h
    obtain rfl := ofChar_injective hee
    have hread := (unescape_shortEscape he).1.symm.trans (unescape_shortEscape he').1
    exact ⟨Option.some.inj hread, rfl⟩
  · exact absurd h.1 (hu he)
  · exact absurd h.1.symm hslash'
  · exact absurd h.1.symm (hu he')
  · have hlen : ((hexDigits c.val).map ofChar).length = ((hexDigits d.val).map ofChar).length := by
      rw [List.length_map, List.length_map]
      rfl
    obtain ⟨hdigits, rfl⟩ := List.append_inj h hlen
    have heq := List.map_injective_iff.mpr ofChar_injective hdigits
    exact ⟨hexDigits_injective hlow hlow' heq, rfl⟩
  · exact absurd h.1.symm hslash'
  · exact absurd h.1 hslash
  · exact absurd h.1 hslash
  · exact h

/-- **A string ends where its last quote is.** -/
theorem quoteChars_append_inj {s t r r' : PyStr} (h : quoteChars s ++ r = quoteChars t ++ r') :
    s = t ∧ r = r' := by
  have hbody :
      s.flatMap escapeChar ++ ofChar '"' :: r = t.flatMap escapeChar ++ ofChar '"' :: r' := by
    simpa [quoteChars] using h
  clear h
  have hquote {c : CodePoint} {s x y : PyStr} :
      ofChar '"' :: x ≠ (c :: s).flatMap escapeChar ++ y := by
    rw [List.flatMap_cons, List.append_assoc]
    intro h
    rcases escapeChar_cases c with ⟨e, -, hc⟩ | ⟨-, hc⟩ | ⟨-, hne, hc⟩
    · rw [hc] at h
      exact absurd (List.cons.inj h).1 (by decide)
    · rw [hc] at h
      exact absurd (List.cons.inj h).1 (by decide)
    · rw [hc] at h
      exact hne (List.cons.inj h).1.symm
  induction s generalizing t with
  | nil =>
    cases t with
    | nil => exact ⟨rfl, (List.cons.inj hbody).2⟩
    | cons d t => exact absurd hbody hquote
  | cons c s ih =>
    cases t with
    | nil => exact absurd hbody.symm hquote
    | cons d t =>
      rw [List.flatMap_cons, List.flatMap_cons, List.append_assoc, List.append_assoc] at hbody
      obtain ⟨rfl, hrest⟩ := escapeChar_append_inj hbody
      obtain ⟨rfl, rfl⟩ := ih hrest
      exact ⟨rfl, rfl⟩

/-! ### Values -/

/-- The texts of floating point numbers: those of finite numbers consist of what numbers consist of,
among it a point or an exponent, and no two of them are the same. -/
structure ReprTexts (F : Type) [FloatValue F] : Prop where
  unique : ∀ x y : F, floatFinite x = true → floatFinite y = true → floatRepr x = floatRepr y →
    x = y
  number : ∀ x : F, floatFinite x = true → ∀ c ∈ floatRepr x, isNumberChar c = true
  marked : ∀ x : F, floatFinite x = true → ∃ c ∈ floatRepr x, c = '.' ∨ c = 'e'

/-- What a text begins with, by its first character. -/
inductive Head where
  | null | true | false | number | string | list | dict | other
  deriving DecidableEq

def headOf (c : CodePoint) : Head :=
  if c = ofChar 'n' then .null
  else if c = ofChar 't' then .true
  else if c = ofChar 'f' then .false
  else if c = ofChar '"' then .string
  else if c = ofChar '[' then .list
  else if c = ofChar '{' then .dict
  else if isNumberChar (.ofNat c.val) then .number
  else .other

theorem headOf_number {d : Char} (h : isNumberChar d = true) : headOf (ofChar d) = .number := by
  have hne {e : Char} (he : isNumberChar e = false) : ofChar d ≠ ofChar e := fun heq => by
    rw [ofChar_injective heq, he] at h
    cases h
  have hval : Char.ofNat (ofChar d).val = d := Char.ofNat_toNat d
  rw [headOf, if_neg (hne rfl), if_neg (hne rfl), if_neg (hne rfl), if_neg (hne rfl),
    if_neg (hne rfl), if_neg (hne rfl), hval, if_pos h]

variable {F : Type}

def kindOf : PyJson F → Head
  | .null => .null
  | .bool true => .true
  | .bool false => .false
  | .int _ | .float _ => .number
  | .str _ => .string
  | .list _ => .list
  | .dict _ => .dict

/-- A number that stands before a text ends there. -/
def NumberStops (r : PyStr) : Prop := ∀ c ∈ r.head?, headOf c ≠ .number

theorem numberStops_cons {c : CodePoint} (h : headOf c ≠ .number) (r : PyStr) :
    NumberStops (c :: r) := by
  rintro _ ⟨⟩
  exact h

theorem numberStops_nil : NumberStops [] := by
  rintro _ ⟨⟩

theorem number_append_inj {s t : List Char} (hs : ∀ c ∈ s, isNumberChar c = true)
    (ht : ∀ c ∈ t, isNumberChar c = true) {r r' : PyStr} (hr : NumberStops r) (hr' : NumberStops r')
    (h : s.map ofChar ++ r = t.map ofChar ++ r') : s = t ∧ r = r' := by
  induction s generalizing t with
  | nil =>
    cases t with
    | nil => exact ⟨rfl, h⟩
    | cons d t =>
      rw [show r = _ from h] at hr
      exact absurd (headOf_number (ht d List.mem_cons_self)) (hr _ rfl)
  | cons c s ih =>
    cases t with
    | nil =>
      rw [show r' = _ from h.symm] at hr'
      exact absurd (headOf_number (hs c List.mem_cons_self)) (hr' _ rfl)
    | cons d t =>
      obtain ⟨hcd, hrest⟩ := List.cons.inj h
      obtain rfl := ofChar_injective hcd
      obtain ⟨rfl, rfl⟩ := ih (fun e he => hs e (List.mem_cons_of_mem _ he))
        (fun e he => ht e (List.mem_cons_of_mem _ he)) hrest
      exact ⟨rfl, rfl⟩

theorem toString_injective {m n : ℤ} (h : (toString m).toList = (toString n).toList) : m = n := by
  have hread := SerdeValue.integerOf_toString m
  rw [h, SerdeValue.integerOf_toString] at hread
  exact (Option.some.inj hread).symm

/-! ### What follows an item -/

section

variable {V W : Type} {rest : List V} {rest' : List W} {x x' r r' : PyStr} {q : CodePoint}

/-- After an item comes a comma or the closing bracket. -/
theorem numberStops_separator (hrest : rest = [] → x = []) (hq : headOf q ≠ .number) :
    NumberStops (separator rest ++ (x ++ q :: r)) := by
  rw [separator]
  split
  · next hnil =>
    rw [hrest hnil]
    exact numberStops_cons hq r
  · exact numberStops_cons (by decide) _

theorem separator_append_inj (hrest : rest = [] → x = []) (hrest' : rest' = [] → x' = [])
    (hq : q ≠ ofChar ',')
    (h : separator rest ++ (x ++ q :: r) = separator rest' ++ (x' ++ q :: r')) :
    x ++ q :: r = x' ++ q :: r' := by
  rw [separator, separator] at h
  split at h <;> split at h
  · exact h
  · next hnil _ =>
    rw [hrest hnil] at h
    exact absurd (List.cons.inj h).1 hq
  · next _ hnil =>
    rw [hrest' hnil] at h
    exact absurd (List.cons.inj h).1.symm hq
  · exact List.append_cancel_left h

end

section

variable [FloatValue F]

theorem canonicalText_float {x : F} {s : PyStr} (h : canonicalText (.float x) = some s) :
    floatFinite x = true ∧ s = (floatRepr x).map ofChar := by
  rw [canonicalText] at h
  split at h
  · next hx => exact ⟨hx, (Option.some.inj h).symm⟩
  · cases h

theorem canonicalItems_cons {item : PyJson F} {items : List (PyJson F)} {s : PyStr}
    (h : canonicalItems (item :: items) = some s) : ∃ text rest, canonicalText item = some text ∧
      canonicalItems items = some rest ∧ s = text ++ separator items ++ rest := by
  rw [canonicalItems] at h
  obtain ⟨text, htext, h⟩ := Option.bind_eq_some_iff.mp h
  obtain ⟨rest, hrest, h⟩ := Option.bind_eq_some_iff.mp h
  exact ⟨text, rest, htext, hrest, (Option.some.inj h).symm⟩

theorem canonicalMembers_cons {key : PyStr} {v : PyJson F} {members : List (PyStr × PyJson F)}
    {s : PyStr} (h : canonicalMembers ((key, v) :: members) = some s) :
    ∃ text rest, canonicalText v = some text ∧ canonicalMembers members = some rest ∧
      s = quoteChars key ++ ofString ":" ++ text ++ separator members ++ rest := by
  rw [canonicalMembers] at h
  obtain ⟨text, htext, h⟩ := Option.bind_eq_some_iff.mp h
  obtain ⟨rest, hrest, h⟩ := Option.bind_eq_some_iff.mp h
  exact ⟨text, rest, htext, hrest, (Option.some.inj h).symm⟩

variable (hF : ReprTexts F)

include hF

/-- The text of an integer has no point and no exponent. -/
theorem floatRepr_ne_toString {x : F} (hx : floatFinite x = true) (n : ℤ) :
    floatRepr x ≠ (toString n).toList := by
  intro h
  obtain ⟨c, hc, hmark⟩ := hF.marked x hx
  have hnone : SerdeValue.integerOf (floatRepr x) = none := by
    refine SerdeValue.integerOf_eq_none ⟨c, hc, ?_⟩
    rcases hmark with rfl | rfl <;> decide
  rw [h, SerdeValue.integerOf_toString] at hnone
  cases hnone

theorem canonicalText_head {v : PyJson F} {s : PyStr} (h : canonicalText v = some s) :
    ∃ c rest, s = c :: rest ∧ headOf c = kindOf v := by
  cases v with
  | null =>
    obtain rfl := Option.some.inj h
    exact ⟨_, _, rfl, rfl⟩
  | bool b =>
    cases b with
    | true =>
      obtain rfl := Option.some.inj h
      exact ⟨_, _, rfl, rfl⟩
    | false =>
      obtain rfl := Option.some.inj h
      exact ⟨_, _, rfl, rfl⟩
  | int n =>
    obtain rfl := Option.some.inj h
    obtain ⟨c, hc, -⟩ := SerdeValue.head?_toString n
    obtain ⟨rest, hn⟩ := List.head?_eq_some_iff.mp hc
    refine ⟨ofChar c, rest.map ofChar, ?_, headOf_number ?_⟩
    · rw [ofString, hn]
      rfl
    · exact SerdeValue.isNumberChar_toString n c (hn ▸ List.mem_cons_self)
  | float x =>
    rw [canonicalText] at h
    split at h
    · next hx =>
      obtain rfl := Option.some.inj h
      obtain ⟨d, hd, -⟩ := hF.marked x hx
      obtain ⟨c, rest, hn⟩ := List.exists_cons_of_ne_nil (List.ne_nil_of_mem hd)
      refine ⟨ofChar c, rest.map ofChar, ?_, headOf_number ?_⟩
      · rw [hn]
        rfl
      · exact hF.number x hx c (hn ▸ List.mem_cons_self)
    · cases h
  | str s =>
    obtain rfl := Option.some.inj h
    exact ⟨_, _, rfl, rfl⟩
  | list items =>
    rw [canonicalText, Option.map_eq_some_iff] at h
    obtain ⟨text, -, rfl⟩ := h
    exact ⟨_, _, rfl, rfl⟩
  | dict members =>
    rw [canonicalText, Option.map_eq_some_iff] at h
    obtain ⟨text, -, rfl⟩ := h
    exact ⟨_, _, rfl, rfl⟩

/-- Values with the same first character in their texts are of the same kind. -/
theorem kindOf_eq {v w : PyJson F} {s t r r' : PyStr} (hs : canonicalText v = some s)
    (ht : canonicalText w = some t) (h : s ++ r = t ++ r') : kindOf v = kindOf w := by
  obtain ⟨c, s, rfl, hc⟩ := canonicalText_head hF hs
  obtain ⟨d, t, rfl, hd⟩ := canonicalText_head hF ht
  rw [← hc, ← hd, (List.cons.inj h).1]

/-- The text of a value does not begin like another text. -/
theorem canonicalText_ne {v : PyJson F} {s r r' : PyStr} {c : CodePoint}
    (hs : canonicalText v = some s)
    (hc : headOf c = .other) : s ++ r ≠ c :: r' := by
  obtain ⟨d, s, rfl, hd⟩ := canonicalText_head hF hs
  intro h
  rw [(List.cons.inj h).1, hc] at hd
  cases v with
  | bool b => cases b <;> cases hd
  | _ => cases hd

/-- The text of a number, whatever it is. -/
theorem canonicalText_number {v : PyJson F} {s : PyStr} (hkind : kindOf v = .number)
    (h : canonicalText v = some s) : ∃ text : List Char, s = text.map ofChar ∧
      (∀ c ∈ text, isNumberChar c = true) ∧
      ((∃ n, v = .int n ∧ text = (toString n).toList) ∨
        ∃ x, v = .float x ∧ floatFinite x = true ∧ text = floatRepr x) := by
  cases v with
  | int n =>
    obtain rfl := Option.some.inj h
    exact ⟨_, rfl, SerdeValue.isNumberChar_toString n, .inl ⟨n, rfl, rfl⟩⟩
  | float x =>
    obtain ⟨hx, rfl⟩ := canonicalText_float h
    exact ⟨_, rfl, hF.number x hx, .inr ⟨x, rfl, hx, rfl⟩⟩
  | bool b => cases b <;> cases hkind
  | _ => cases hkind

theorem numbers_append_inj {v w : PyJson F} {s t r r' : PyStr} (hv : kindOf v = .number)
    (hw : kindOf w = .number) (hs : canonicalText v = some s) (ht : canonicalText w = some t)
    (hr : NumberStops r) (hr' : NumberStops r') (h : s ++ r = t ++ r') : v = w ∧ r = r' := by
  obtain ⟨text, rfl, hchars, hv⟩ := canonicalText_number hF hv hs
  obtain ⟨text', rfl, hchars', hw⟩ := canonicalText_number hF hw ht
  obtain ⟨rfl, rfl⟩ := number_append_inj hchars hchars' hr hr' h
  refine ⟨?_, rfl⟩
  rcases hv with ⟨n, rfl, htext⟩ | ⟨x, rfl, hx, htext⟩
  · rcases hw with ⟨m, rfl, htext'⟩ | ⟨y, rfl, hy, htext'⟩
    · rw [toString_injective (htext.symm.trans htext')]
    · exact absurd (htext'.symm.trans htext) (floatRepr_ne_toString hF hy n)
  · rcases hw with ⟨m, rfl, htext'⟩ | ⟨y, rfl, hy, htext'⟩
    · exact absurd (htext.symm.trans htext') (floatRepr_ne_toString hF hx m)
    · rw [hF.unique x y hx hy (htext.symm.trans htext')]

mutual

/-- **A value ends where its text ends**, by induction on it: what follows goes on with no
number. -/
theorem canonicalText_append_inj : ∀ {v w : PyJson F} {s t r r' : PyStr}, canonicalText v = some s →
    canonicalText w = some t → NumberStops r → NumberStops r' → s ++ r = t ++ r' → v = w ∧ r = r'
  | .null, w, s, t, r, r', hs, ht, _, _, h => by
    have hkind := kindOf_eq hF hs ht h
    cases w with
    | null =>
      obtain rfl := Option.some.inj (hs.symm.trans ht)
      exact ⟨rfl, List.append_cancel_left h⟩
    | bool b => cases b <;> cases hkind
    | _ => cases hkind
  | .bool b, w, s, t, r, r', hs, ht, _, _, h => by
    have hkind := kindOf_eq hF hs ht h
    cases w with
    | bool b' =>
      obtain rfl : b = b' := by cases b <;> cases b' <;> first | rfl | cases hkind
      obtain rfl := Option.some.inj (hs.symm.trans ht)
      exact ⟨rfl, List.append_cancel_left h⟩
    | _ => cases b <;> cases hkind
  | .int n, w, s, t, r, r', hs, ht, hr, hr', h =>
    numbers_append_inj hF rfl (kindOf_eq hF hs ht h).symm hs ht hr hr' h
  | .float x, w, s, t, r, r', hs, ht, hr, hr', h =>
    numbers_append_inj hF rfl (kindOf_eq hF hs ht h).symm hs ht hr hr' h
  | .str u, w, s, t, r, r', hs, ht, _, _, h => by
    have hkind := kindOf_eq hF hs ht h
    cases w with
    | str u' =>
      obtain rfl := Option.some.inj hs
      obtain rfl := Option.some.inj ht
      obtain ⟨rfl, rfl⟩ := quoteChars_append_inj h
      exact ⟨rfl, rfl⟩
    | bool b => cases b <;> cases hkind
    | _ => cases hkind
  | .list items, w, s, t, r, r', hs, ht, _, _, h => by
    have hkind := kindOf_eq hF hs ht h
    cases w with
    | list items' =>
      rw [canonicalText, Option.map_eq_some_iff] at hs ht
      obtain ⟨text, htext, rfl⟩ := hs
      obtain ⟨text', htext', rfl⟩ := ht
      obtain ⟨rfl, rfl⟩ := canonicalItems_append_inj htext htext' (by simpa [ofString] using h)
      exact ⟨rfl, rfl⟩
    | bool b => cases b <;> cases hkind
    | _ => cases hkind
  | .dict members, w, s, t, r, r', hs, ht, _, _, h => by
    have hkind := kindOf_eq hF hs ht h
    cases w with
    | dict members' =>
      rw [canonicalText, Option.map_eq_some_iff] at hs ht
      obtain ⟨text, htext, rfl⟩ := hs
      obtain ⟨text', htext', rfl⟩ := ht
      obtain ⟨rfl, rfl⟩ := canonicalMembers_append_inj htext htext' (by simpa [ofString] using h)
      exact ⟨rfl, rfl⟩
    | bool b => cases b <;> cases hkind
    | _ => cases hkind

theorem canonicalItems_append_inj : ∀ {items items' : List (PyJson F)} {s t r r' : PyStr},
    canonicalItems items = some s → canonicalItems items' = some t →
    s ++ ofChar ']' :: r = t ++ ofChar ']' :: r' → items = items' ∧ r = r'
  | [], [], s, t, r, r', hs, ht, h => by
    obtain rfl := Option.some.inj hs
    obtain rfl := Option.some.inj ht
    exact ⟨rfl, (List.cons.inj h).2⟩
  | [], item :: items, s, t, r, r', hs, ht, h => by
    obtain rfl := Option.some.inj hs
    obtain ⟨text, rest, htext, -, rfl⟩ := canonicalItems_cons ht
    rw [List.append_assoc, List.append_assoc] at h
    exact absurd h.symm (canonicalText_ne hF htext rfl)
  | item :: items, [], s, t, r, r', hs, ht, h => by
    obtain ⟨text, rest, htext, -, rfl⟩ := canonicalItems_cons hs
    obtain rfl := Option.some.inj ht
    rw [List.append_assoc, List.append_assoc] at h
    exact absurd h (canonicalText_ne hF htext rfl)
  | item :: items, item' :: items', s, t, r, r', hs, ht, h => by
    obtain ⟨text, rest, htext, hrest, rfl⟩ := canonicalItems_cons hs
    obtain ⟨text', rest', htext', hrest', rfl⟩ := canonicalItems_cons ht
    rw [List.append_assoc, List.append_assoc, List.append_assoc, List.append_assoc] at h
    have hnil : items = [] → rest = [] := by
      rintro rfl
      exact (Option.some.inj hrest).symm
    have hnil' : items' = [] → rest' = [] := by
      rintro rfl
      exact (Option.some.inj hrest').symm
    obtain ⟨rfl, htail⟩ := canonicalText_append_inj htext htext'
      (numberStops_separator hnil (by decide)) (numberStops_separator hnil' (by decide)) h
    obtain ⟨rfl, rfl⟩ := canonicalItems_append_inj hrest hrest'
      (separator_append_inj hnil hnil' (by decide) htail)
    exact ⟨rfl, rfl⟩

theorem canonicalMembers_append_inj : ∀ {members members' : List (PyStr × PyJson F)}
    {s t r r' : PyStr}, canonicalMembers members = some s → canonicalMembers members' = some t →
    s ++ ofChar '}' :: r = t ++ ofChar '}' :: r' → members = members' ∧ r = r'
  | [], [], s, t, r, r', hs, ht, h => by
    obtain rfl := Option.some.inj hs
    obtain rfl := Option.some.inj ht
    exact ⟨rfl, (List.cons.inj h).2⟩
  | [], (key, v) :: members, s, t, r, r', hs, ht, h => by
    obtain rfl := Option.some.inj hs
    obtain ⟨text, rest, -, -, rfl⟩ := canonicalMembers_cons ht
    exact absurd (List.cons.inj h).1 (by decide)
  | (key, v) :: members, [], s, t, r, r', hs, ht, h => by
    obtain ⟨text, rest, -, -, rfl⟩ := canonicalMembers_cons hs
    obtain rfl := Option.some.inj ht
    exact absurd (List.cons.inj h).1 (by decide)
  | (key, v) :: members, (key', v') :: members', s, t, r, r', hs, ht, h => by
    obtain ⟨text, rest, htext, hrest, rfl⟩ := canonicalMembers_cons hs
    obtain ⟨text', rest', htext', hrest', rfl⟩ := canonicalMembers_cons ht
    simp only [List.append_assoc] at h
    obtain ⟨rfl, hmember⟩ := quoteChars_append_inj h
    have hnil : members = [] → rest = [] := by
      rintro rfl
      exact (Option.some.inj hrest).symm
    have hnil' : members' = [] → rest' = [] := by
      rintro rfl
      exact (Option.some.inj hrest').symm
    obtain ⟨rfl, htail⟩ := canonicalText_append_inj htext htext'
      (numberStops_separator hnil (by decide)) (numberStops_separator hnil' (by decide))
      (List.append_cancel_left hmember)
    obtain ⟨rfl, rfl⟩ := canonicalMembers_append_inj hrest hrest'
      (separator_append_inj hnil hnil' (by decide) htail)
    exact ⟨rfl, rfl⟩

end

/-- **Values with the same canonical form** are the same, whatever the order of their keys. -/
theorem canonicalJsonBytes_injective {v w : PyJson F} {bytes : Bytes}
    (hv : canonicalJsonBytes v = .ok bytes) (hw : canonicalJsonBytes w = .ok bytes) :
    sortKeys v = sortKeys w := by
  rw [canonicalJsonBytes] at hv hw
  split at hv
  · cases hv
  next text hs =>
    split at hw
    · cases hw
    next text' ht =>
      obtain rfl := encodeUtf8_injective hv hw
      exact (canonicalText_append_inj hF hs ht numberStops_nil numberStops_nil rfl).1

end

end Python

end Ao2
