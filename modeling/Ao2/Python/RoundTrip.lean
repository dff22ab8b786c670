import Ao2.Python.Json

/-!
# What Python reads back of what it has written

A value without numbers is read back as it was written, except that every pair of surrogates in it is
joined. If a part is missing at the end of a record of texts, that is, of a value built from strings and
dictionaries, the text is no JSON text.
-/

namespace Ao2

namespace Python

variable {F : Type}

/-- A value built from strings and dictionaries. -/
inductive Textual : PyJson F → Prop
  | str (s : PyStr) : Textual (.str s)
  | dict (members : List (PyStr × PyJson F)) (h : ∀ m ∈ members, Textual m.2) : Textual (.dict members)

/-- A value without numbers. -/
inductive Numberless : PyJson F → Prop
  | null : Numberless .null
  | bool (b : Bool) : Numberless (.bool b)
  | str (s : PyStr) : Numberless (.str s)
  | list (items : List (PyJson F)) (h : ∀ item ∈ items, Numberless item) : Numberless (.list items)
  | dict (members : List (PyStr × PyJson F)) (h : ∀ m ∈ members, Numberless m.2) :
      Numberless (.dict members)

theorem Textual.numberless {v : PyJson F} (h : Textual v) : Numberless v := by
  induction h with
  | str s => exact .str s
  | dict members _ ih => exact .dict members ih

mutual

/-- A value with every pair of surrogates joined. -/
def reread : PyJson F → PyJson F
  | .str s => .str (normal s)
  | .list items => .list (rereadItems items)
  | .dict members => .dict (ofPairs (rereadMembers members))
  | .null => .null
  | .bool b => .bool b
  | .int n => .int n
  | .float x => .float x

def rereadItems : List (PyJson F) → List (PyJson F)
  | [] => []
  | item :: items => reread item :: rereadItems items

def rereadMembers : List (PyStr × PyJson F) → List (PyStr × PyJson F)
  | [] => []
  | (key, value) :: members => (normal key, reread value) :: rereadMembers members

end

/-! ### Spaces -/

theorem skipSpace_append {spaces : List Char} (h : ∀ c ∈ spaces, isSpace c = true)
    (text : List Char) : skipSpace (spaces ++ text) = skipSpace text := by
  induction spaces with
  | nil => rfl
  | cons c spaces ih =>
    rw [skipSpace, List.cons_append, List.dropWhile_cons, if_pos (h c List.mem_cons_self)]
    exact ih fun d hd => h d (List.mem_cons_of_mem c hd)

theorem skipSpace_spaces {spaces : List Char} (h : ∀ c ∈ spaces, isSpace c = true) :
    skipSpace spaces = [] := by
  have := skipSpace_append h []
  rwa [List.append_nil] at this

theorem skipSpace_cons {c : Char} (h : isSpace c = false) (text : List Char) :
    skipSpace (c :: text) = c :: text := by
  rw [skipSpace, List.dropWhile_cons, if_neg (by rw [h]; exact Bool.false_ne_true)]

variable [FloatText F] {L : Layout}

/-! ### The beginning of a text -/

/-- A text does not begin with a space. -/
theorem dumps_head {v : PyJson F} (hv : Numberless v) (L : Layout) (depth : ℕ) :
    ∃ c text, dumps L depth v = c :: text ∧ isSpace c = false ∧ c ≠ ']' := by
  cases hv with
  | null => exact ⟨_, _, by rw [dumps], rfl, by decide⟩
  | bool b => cases b <;> exact ⟨_, _, by rw [dumps], rfl, by decide⟩
  | str s => exact ⟨_, _, by rw [dumps, quote], rfl, by decide⟩
  | list items h =>
    cases items with
    | nil => exact ⟨_, _, by rw [dumps], rfl, by decide⟩
    | cons item items => exact ⟨_, _, by rw [dumps], rfl, by decide⟩
  | dict members h =>
    cases members with
    | nil => exact ⟨_, _, by rw [dumps], rfl, by decide⟩
    | cons m members => exact ⟨_, _, by rw [dumps], rfl, by decide⟩

theorem skipSpace_dumps {v : PyJson F} (hv : Numberless v) (depth : ℕ) (rest : List Char) :
    skipSpace (dumps L depth v ++ rest) = dumps L depth v ++ rest := by
  obtain ⟨c, text, heq, hc, -⟩ := dumps_head hv L depth
  rw [heq, List.cons_append, skipSpace_cons hc]

theorem dumpsMembers_cons (depth : ℕ) (key : PyStr) (v : PyJson F)
    (members : List (PyStr × PyJson F)) :
    dumpsMembers L depth ((key, v) :: members) =
      quote key ++ ':' :: ' ' :: (dumps L (depth + 1) v ++
        match members with
        | [] => L.closing depth ++ ['}']
        | _ :: _ => ',' :: (L.comma depth ++ dumpsMembers L depth members)) := by
  cases members <;> rfl

/-- The members begin with the quote of the first key. -/
theorem dumpsMembers_head (depth : ℕ) (m : PyStr × PyJson F) (members : List (PyStr × PyJson F)) :
    ∃ text, dumpsMembers L depth (m :: members) = '"' :: text :=
  ⟨_, by rw [dumpsMembers_cons, quote, List.cons_append]⟩

theorem dumpsItems_cons (depth : ℕ) (v : PyJson F) (items : List (PyJson F)) :
    dumpsItems L depth (v :: items) =
      dumps L (depth + 1) v ++
        match items with
        | [] => L.closing depth ++ [']']
        | _ :: _ => ',' :: (L.comma depth ++ dumpsItems L depth items) := by
  cases items <;> rfl

/-- The items begin with the first one. -/
theorem dumpsItems_head {v : PyJson F} (hv : Numberless v) (depth : ℕ) (items : List (PyJson F)) :
    ∃ c text, dumpsItems L depth (v :: items) = c :: text ∧ isSpace c = false ∧ c ≠ ']' := by
  obtain ⟨c, text, heq, hc⟩ := dumps_head hv L (depth + 1)
  exact ⟨c, _, by rw [dumpsItems_cons, heq, List.cons_append], hc⟩

/-! ### Reading what was written -/

theorem scanMember_dumps {value : List Char → Option (PyJson F × List Char)} {key : PyStr}
    {v : PyJson F} (hv : Numberless v) {depth : ℕ} {rest : List Char}
    (hvalue : value (dumps L depth v ++ rest) = some (reread v, rest)) :
    scanMember value (quote key ++ ':' :: ' ' :: (dumps L depth v ++ rest)) =
      some ((normal key, reread v), rest) := by
  have hcolon : scanColon (skipSpace (':' :: ' ' :: (dumps L depth v ++ rest))) =
      some (' ' :: (dumps L depth v ++ rest)) := by
    rw [skipSpace_cons rfl, scanColon]
  have hspace : skipSpace (' ' :: (dumps L depth v ++ rest)) = dumps L depth v ++ rest := by
    change skipSpace ([' '] ++ (dumps L depth v ++ rest)) = _
    rw [skipSpace_append (by simp [isSpace]), skipSpace_dumps hv]
  rw [quote, List.cons_append, List.append_assoc, List.singleton_append, scanMember,
    scanString_quoted]
  simp only [Option.bind_eq_bind, Option.bind_some, hcolon, hspace, hvalue]
  rfl

/-- **The members of a dictionary**, by induction on them. -/
theorem scanMembers_dumpsMembers (hL : L.Blank) {depth : ℕ}
    {value : List Char → Option (PyJson F × List Char)} {members : List (PyStr × PyJson F)}
    (hne : members ≠ []) (hwritten : ∀ m ∈ members, Numberless m.2)
    (hvalue : ∀ m ∈ members, ∀ rest,
      value (dumps L (depth + 1) m.2 ++ rest) = some (reread m.2, rest))
    {n : ℕ} (hn : members.length ≤ n) (rest : List Char) :
    scanMembers value n (dumpsMembers L depth members ++ rest) =
      some (rereadMembers members, rest) := by
  induction members generalizing n with
  | nil => exact absurd rfl hne
  | cons m members ih =>
    obtain ⟨key, v⟩ := m
    cases n with
    | zero => exact absurd hn (Nat.not_succ_le_zero _)
    | succ n =>
      have hv : Numberless v := hwritten (key, v) List.mem_cons_self
      have hread := hvalue (key, v) List.mem_cons_self
      rw [dumpsMembers_cons, List.append_assoc, List.cons_append, List.cons_append,
        List.append_assoc, scanMembers, scanMember_dumps hv (hread _)]
      cases members with
      | nil =>
        have hclosing : skipSpace (L.closing depth ++ ['}'] ++ rest) = '}' :: rest := by
          rw [List.append_assoc, skipSpace_append (hL.closing depth), List.singleton_append,
            skipSpace_cons rfl]
        simp only [Option.bind_eq_bind, Option.bind_some, hclosing]
        rfl
      | cons m' members =>
        obtain ⟨text, htext⟩ := dumpsMembers_head (L := L) depth m' members
        have hrest := ih (List.cons_ne_nil _ _)
          (fun m hm => hwritten m (List.mem_cons_of_mem _ hm))
          (fun m hm => hvalue m (List.mem_cons_of_mem _ hm)) (Nat.le_of_succ_le_succ hn)
        have hcomma : skipSpace (',' :: (L.comma depth ++ dumpsMembers L depth (m' :: members)) ++
            rest) = ',' :: (L.comma depth ++ (dumpsMembers L depth (m' :: members) ++ rest)) := by
          rw [List.cons_append, List.append_assoc, skipSpace_cons rfl]
        have hskip : skipSpace (L.comma depth ++ (dumpsMembers L depth (m' :: members) ++ rest)) =
            dumpsMembers L depth (m' :: members) ++ rest := by
          rw [skipSpace_append (hL.comma depth), htext, List.cons_append, skipSpace_cons rfl]
        simp only [Option.bind_eq_bind, Option.bind_some, hcomma, hskip, hrest]
        rfl

theorem length_lt_dumpsMembers (L : Layout) (depth : ℕ) (members : List (PyStr × PyJson F)) :
    members.length ≤ (dumpsMembers L depth members).length ∧
      ∀ m ∈ members, (dumps L (depth + 1) m.2).length < (dumpsMembers L depth members).length := by
  induction members with
  | nil => exact ⟨Nat.le_refl 0, fun _ hm => nomatch hm⟩
  | cons m members ih =>
    obtain ⟨key, v⟩ := m
    have hlength : (dumps L (depth + 1) v).length + (dumpsMembers L depth members).length <
        (dumpsMembers L depth ((key, v) :: members)).length := by
      rw [dumpsMembers_cons]
      simp only [quote, List.length_append, List.length_cons]
      cases members with
      | nil =>
        rw [dumpsMembers, List.length_nil]
        omega
      | cons m' members =>
        dsimp only
        rw [List.length_cons, List.length_append]
        omega
    refine ⟨?_, fun m hm => ?_⟩
    · rw [List.length_cons]
      omega
    · obtain rfl | hm := List.mem_cons.mp hm
      · change (dumps L (depth + 1) v).length < _
        omega
      · have := ih.2 m hm
        omega

/-- **The items of a list**, by induction on them. -/
theorem scanItems_dumpsItems (hL : L.Blank) {depth : ℕ}
    {value : List Char → Option (PyJson F × List Char)} {items : List (PyJson F)} (hne : items ≠ [])
    (hwritten : ∀ item ∈ items, Numberless item)
    (hvalue : ∀ item ∈ items, ∀ rest,
      value (dumps L (depth + 1) item ++ rest) = some (reread item, rest))
    {n : ℕ} (hn : items.length ≤ n) (rest : List Char) :
    scanItems value n (dumpsItems L depth items ++ rest) = some (rereadItems items, rest) := by
  induction items generalizing n with
  | nil => exact absurd rfl hne
  | cons item items ih =>
    cases n with
    | zero => exact absurd hn (Nat.not_succ_le_zero _)
    | succ n =>
      have hread := hvalue item List.mem_cons_self
      rw [dumpsItems_cons, List.append_assoc, scanItems, hread]
      cases items with
      | nil =>
        have hclosing : skipSpace (L.closing depth ++ [']'] ++ rest) = ']' :: rest := by
          rw [List.append_assoc, skipSpace_append (hL.closing depth), List.singleton_append,
            skipSpace_cons rfl]
        simp only [Option.bind_eq_bind, Option.bind_some, hclosing]
        rfl
      | cons item' items =>
        obtain ⟨c, text, htext, hc, -⟩ :=
          dumpsItems_head (L := L) (hwritten item' (List.mem_cons_of_mem _ List.mem_cons_self)) depth items
        have hrest := ih (List.cons_ne_nil _ _)
          (fun item hitem => hwritten item (List.mem_cons_of_mem _ hitem))
          (fun item hitem => hvalue item (List.mem_cons_of_mem _ hitem)) (Nat.le_of_succ_le_succ hn)
        have hcomma : skipSpace (',' :: (L.comma depth ++ dumpsItems L depth (item' :: items)) ++ rest) =
            ',' :: (L.comma depth ++ (dumpsItems L depth (item' :: items) ++ rest)) := by
          rw [List.cons_append, List.append_assoc, skipSpace_cons rfl]
        have hskip : skipSpace (L.comma depth ++ (dumpsItems L depth (item' :: items) ++ rest)) =
            dumpsItems L depth (item' :: items) ++ rest := by
          rw [skipSpace_append (hL.comma depth), htext, List.cons_append, skipSpace_cons hc]
        simp only [Option.bind_eq_bind, Option.bind_some, hcomma, hskip, hrest]
        rfl

theorem length_le_dumpsItems (L : Layout) (depth : ℕ) {items : List (PyJson F)}
    (hwritten : ∀ item ∈ items, Numberless item) :
    items.length ≤ (dumpsItems L depth items).length ∧
      ∀ item ∈ items, (dumps L (depth + 1) item).length ≤ (dumpsItems L depth items).length := by
  induction items with
  | nil => exact ⟨Nat.le_refl 0, fun _ hm => nomatch hm⟩
  | cons item items ih =>
    rw [List.forall_mem_cons] at hwritten
    obtain ⟨hcount, hlengths⟩ := ih hwritten.2
    obtain ⟨c, text, heq, -⟩ := dumps_head hwritten.1 L (depth + 1)
    have hpos : 0 < (dumps L (depth + 1) item).length := by
      rw [heq]
      exact Nat.succ_pos _
    have hlength : (dumps L (depth + 1) item).length + (dumpsItems L depth items).length ≤
        (dumpsItems L depth (item :: items)).length := by
      rw [dumpsItems_cons, List.length_append]
      cases items with
      | nil =>
        rw [dumpsItems, List.length_nil]
        omega
      | cons item' items =>
        dsimp only
        rw [List.length_cons, List.length_append]
        omega
    refine ⟨?_, List.forall_mem_cons.mpr ⟨by omega, fun item' hitem' => ?_⟩⟩
    · rw [List.length_cons]
      omega
    · have := hlengths item' hitem'
      omega

/-- **A value that is written is read back**, by induction on it. -/
theorem scanValue_dumps (hL : L.Blank) {v : PyJson F} (hv : Numberless v) (depth : ℕ) {n : ℕ}
    (hn : (dumps L depth v).length < n) (rest : List Char) :
    scanValue n (dumps L depth v ++ rest) = some (reread v, rest) := by
  induction hv generalizing depth n rest with
  | null =>
    cases n with
    | zero => exact absurd hn (Nat.not_lt_zero _)
    | succ n => rfl
  | bool b =>
    cases n with
    | zero => exact absurd hn (Nat.not_lt_zero _)
    | succ n => cases b <;> rfl
  | str s =>
    cases n with
    | zero => exact absurd hn (Nat.not_lt_zero _)
    | succ n =>
      rw [dumps, quote, List.cons_append, List.append_assoc, List.singleton_append, scanValue,
        scanString_quoted]
      rfl
  | list items hwritten ih =>
    cases n with
    | zero => exact absurd hn (Nat.not_lt_zero _)
    | succ n =>
      cases items with
      | nil => rw [dumps]; rfl
      | cons item items =>
        have hlength := length_le_dumpsItems L depth hwritten
        rw [dumps, List.length_cons, List.length_append] at hn
        have hitems : scanItems (scanValue n) n (dumpsItems L depth (item :: items) ++ rest) =
            some (rereadItems (item :: items), rest) := by
          refine scanItems_dumpsItems hL (List.cons_ne_nil item items) hwritten ?_ ?_ rest
          · intro item' hitem' rest'
            have := hlength.2 item' hitem'
            exact ih item' hitem' (depth + 1) (by omega) rest'
          · omega
        obtain ⟨c, text, htext, hc, hclosing⟩ :=
          dumpsItems_head (L := L) (hwritten item List.mem_cons_self) depth items
        have hskip : skipSpace (L.opening depth ++ (dumpsItems L depth (item :: items) ++ rest)) =
            dumpsItems L depth (item :: items) ++ rest := by
          rw [skipSpace_append (hL.opening depth), htext, List.cons_append, skipSpace_cons hc]
        rw [dumps, List.cons_append, List.append_assoc, scanValue, scanList, hskip]
        rw [htext, List.cons_append] at hitems ⊢
        split
        · rename_i rest' heq
          exact absurd (List.cons.inj heq).1 hclosing
        · rename_i heq _ _
          rw [hitems]
          rfl
  | dict members hwritten ih =>
    cases n with
    | zero => exact absurd hn (Nat.not_lt_zero _)
    | succ n =>
      cases members with
      | nil => rw [dumps]; rfl
      | cons m members =>
        have hlength := length_lt_dumpsMembers L depth (m :: members)
        rw [dumps, List.length_cons, List.length_append] at hn
        have hmembers : scanMembers (scanValue n) n (dumpsMembers L depth (m :: members) ++ rest) =
            some (rereadMembers (m :: members), rest) := by
          refine scanMembers_dumpsMembers hL (List.cons_ne_nil m members) hwritten ?_ ?_ rest
          · intro m' hm' rest'
            have := hlength.2 m' hm'
            exact ih m' hm' (depth + 1) (by omega) rest'
          · omega
        obtain ⟨text, htext⟩ := dumpsMembers_head (L := L) depth m members
        have hskip : skipSpace (L.opening depth ++ (dumpsMembers L depth (m :: members) ++ rest)) =
            dumpsMembers L depth (m :: members) ++ rest := by
          rw [skipSpace_append (hL.opening depth), htext, List.cons_append, skipSpace_cons rfl]
        rw [dumps, List.cons_append, List.append_assoc, scanValue, scanDict, hskip]
        rw [htext, List.cons_append] at hmembers ⊢
        change (scanMembers (scanValue n) n _).map _ = _
        rw [hmembers]
        rfl

/-! ### The whole text -/

/-- **A value without numbers is read back**, whatever spaces follow it. -/
theorem loads_dumps (hL : L.Blank) {v : PyJson F} (hv : Numberless v) {spaces : List Char}
    (hspaces : ∀ c ∈ spaces, isSpace c = true) :
    loads (dumps L 0 v ++ spaces) = some (reread v) := by
  have hlength : (dumps L 0 v).length < (dumps L 0 v ++ spaces).length + 1 := by
    rw [List.length_append]
    omega
  rw [loads, skipSpace_dumps hv, scanValue_dumps hL hv 0 hlength]
  simp only [Option.bind_eq_bind, Option.bind_some, skipSpace_spaces hspaces]
  rfl

/-! ### Reading what is cut off

A record may be cut off, and what is written next comes right after it: the end, or a new record. -/

/-- What comes after a value that was cut off and goes on with none of it. -/
structure Interrupts (F : Type) [FloatText F] (more : List Char) : Prop where
  opens : OpensOrEnds more
  units : ∀ n, Stuck (scanUnits n more)
  value : ∀ n, more.length < n → Stuck (scanValue (F := F) n more)

theorem interrupts_nil : Interrupts F [] where
  opens := .inl rfl
  units n := by cases n <;> exact stuck_none
  value n _ := by cases n <;> exact stuck_none

theorem Blocked.skipSpace {text : List Char} (h : Blocked text) : skipSpace text = text := by
  cases text with
  | nil => rfl
  | cons c text => exact skipSpace_cons (h c rfl).1 text

theorem Blocked.scanColon {text : List Char} (h : Blocked text) : scanColon text = none := by
  cases text with
  | nil => rfl
  | cons c text =>
    have hc : c ≠ ':' := (h c rfl).2.1
    rw [Python.scanColon]
    exact fun _ heq => hc (List.cons.inj heq).1

section

variable {more : List Char} (hmore : Interrupts F more)

include hmore

theorem scanString_of_torn_quote {key : PyStr} {p : List Char} (hp : '"' :: p <+: quote key)
    (hne : '"' :: p ≠ quote key) : Stuck (scanString (p ++ more)) := by
  have hp : p <+: quoted key ++ ['"'] := (List.cons_prefix_cons.mp hp).2
  obtain ⟨hp, -⟩ | ⟨p', rfl, hp'⟩ := prefix_append_cases hp
  · exact scanString_of_torn hp hmore.opens hmore.units
  · obtain rfl | rfl := prefix_singleton.mp hp'
    · rw [List.append_nil]
      exact scanString_of_torn List.prefix_rfl hmore.opens hmore.units
    · exact absurd rfl hne

/-- A value that is cut off begins with no space. -/
theorem skipSpace_of_torn {v : PyJson F} (hv : Textual v) {depth : ℕ} {p : List Char}
    (hp : p <+: dumps L depth v) : skipSpace (p ++ more) = p ++ more := by
  obtain ⟨c, text, heq, hc, -⟩ := dumps_head hv.numberless L depth
  cases p with
  | nil => exact hmore.opens.blocked.skipSpace
  | cons d p =>
    rw [heq] at hp
    obtain ⟨rfl, -⟩ := List.cons_prefix_cons.mp hp
    exact skipSpace_cons hc _

theorem scanMember_of_torn {value : List Char → Option (PyJson F × List Char)} {key : PyStr}
    {v : PyJson F} (hv : Textual v) {depth : ℕ} {p : List Char}
    (hvalue : ∀ q, q.length < p.length → q <+: dumps L depth v → q ≠ dumps L depth v →
      Stuck (value (q ++ more)))
    (hp : p <+: quote key ++ ':' :: ' ' :: dumps L depth v)
    (hne : p ≠ quote key ++ ':' :: ' ' :: dumps L depth v) :
    Stuck (scanMember value (p ++ more)) := by
  obtain ⟨c, text, heq, hc, -⟩ := dumps_head hv.numberless L depth
  have hpure (key : PyStr) {text : List Char} (h : Stuck (value text)) :
      Stuck ((value text).bind fun r => pure ((key, r.1), r.2)) := by
    have := h.map fun v => (key, v)
    cases hread : value text with
    | none => exact stuck_none
    | some r => rwa [hread] at this
  obtain ⟨hkey, hkeyne⟩ | ⟨q, rfl, hq⟩ := prefix_append_cases hp
  · cases p with
    | nil =>
      obtain rfl | ⟨rest, rfl⟩ := hmore.opens <;> exact stuck_none
    | cons d p =>
      obtain rfl : d = '"' := (List.cons_prefix_cons.mp hkey).1
      have hstuck := scanString_of_torn_quote hmore hkey hkeyne
      rw [List.cons_append, scanMember]
      cases hread : scanString (p ++ more) with
      | none => exact stuck_none
      | some r =>
        have hblocked : Blocked r.2 := hstuck r hread
        simp only [Option.bind_eq_bind, Option.bind_some, hblocked.skipSpace, hblocked.scanColon,
          Option.bind_none]
        exact stuck_none
  · rw [List.length_append] at hvalue
    rw [quote, List.append_assoc, List.cons_append, List.append_assoc, List.singleton_append,
      scanMember, scanString_quoted]
    simp only [Option.bind_eq_bind, Option.bind_some]
    have hblocked := hmore.opens.blocked
    cases q with
    | nil =>
      rw [List.nil_append, hblocked.skipSpace, hblocked.scanColon]
      exact stuck_none
    | cons d q =>
      obtain ⟨rfl, hspace⟩ := List.cons_prefix_cons.mp hq
      rw [List.cons_append, skipSpace_cons rfl, scanColon]
      simp only [Option.bind_some]
      cases q with
      | nil =>
        rw [List.nil_append, hblocked.skipSpace]
        exact hpure _ (hvalue [] (by simp) List.nil_prefix (by rw [heq]; simp))
      | cons d q =>
        obtain ⟨rfl, hvalues⟩ := List.cons_prefix_cons.mp hspace
        have hskip : skipSpace (' ' :: q ++ more) = q ++ more := skipSpace_of_torn hmore hv hvalues
        rw [hskip]
        exact hpure _ (hvalue q (by simp; omega) hvalues fun h => hne (by rw [h]))

omit hmore [FloatText F] in
/-- Members end if nothing goes on after one of them. -/
theorem scanMembers_of_blocked {m : PyStr × PyJson F} {rest : List Char} (h : Blocked (skipSpace rest))
    (value : List Char → Option (PyJson F × List Char)) (n : ℕ) {text : List Char}
    (hmember : scanMember value text = some (m, rest)) : scanMembers value (n + 1) text = none := by
  rw [scanMembers, hmember]
  simp only [Option.bind_eq_bind, Option.bind_some]
  cases hrest : skipSpace rest with
  | nil => rfl
  | cons c text =>
    rw [hrest] at h
    obtain ⟨-, -, hcomma, hbracket⟩ := h c rfl
    split
    · next heq => exact absurd (List.cons.inj heq).1 hcomma
    · next heq => exact absurd (List.cons.inj heq).1 hbracket
    · rfl

theorem scanMembers_more (value : List Char → Option (PyJson F × List Char)) (n : ℕ) :
    scanMembers value n more = none := by
  cases n with
  | zero => rfl
  | succ n => obtain rfl | ⟨rest, rfl⟩ := hmore.opens <;> rfl

theorem scanMembers_of_torn (hL : L.Blank) {depth : ℕ}
    {value : List Char → Option (PyJson F × List Char)} {members : List (PyStr × PyJson F)}
    (htextual : ∀ m ∈ members, Textual m.2) (n : ℕ) {p : List Char}
    (hvalue : ∀ m ∈ members, (dumps L (depth + 1) m.2).length < p.length → ∀ rest,
      value (dumps L (depth + 1) m.2 ++ rest) = some (reread m.2, rest))
    (htorn : ∀ m ∈ members, ∀ q, q.length < p.length → q <+: dumps L (depth + 1) m.2 →
      q ≠ dumps L (depth + 1) m.2 → Stuck (value (q ++ more)))
    (hp : p <+: dumpsMembers L depth members) (hne : p ≠ dumpsMembers L depth members) :
    scanMembers value n (p ++ more) = none := by
  have hblocked := hmore.opens.blocked
  induction members generalizing n p with
  | nil => exact absurd (List.prefix_nil.mp hp) hne
  | cons m members ih =>
    obtain ⟨key, v⟩ := m
    cases n with
    | zero => rfl
    | succ n =>
      have hv : Textual v := htextual (key, v) List.mem_cons_self
      rw [dumpsMembers_cons, ← List.cons_append, ← List.cons_append, ← List.append_assoc] at hp hne
      obtain ⟨hmember, hmemberne⟩ | ⟨q, rfl, hq⟩ := prefix_append_cases hp
      · have hstuck := scanMember_of_torn hmore hv (htorn (key, v) List.mem_cons_self) hmember hmemberne
        cases hread : scanMember value (p ++ more) with
        | none => rw [scanMembers, hread]; rfl
        | some r =>
          have hrest : Blocked r.2 := hstuck r hread
          exact scanMembers_of_blocked (by rwa [hrest.skipSpace]) value n hread
      · have hqne := fun h => hne (congrArg (quote key ++ ':' :: ' ' :: dumps L (depth + 1) v ++ ·) h)
        have hmember : scanMember value (quote key ++ ':' :: ' ' :: dumps L (depth + 1) v ++ q ++ more) =
            some ((normal key, reread v), q ++ more) := by
          rw [List.append_assoc, List.append_assoc, List.cons_append, List.cons_append]
          exact scanMember_dumps hv.numberless (hvalue (key, v) List.mem_cons_self (by simp; omega) (q ++ more))
        cases members with
        | nil =>
          refine scanMembers_of_blocked ?_ value n hmember
          have hskip : skipSpace (q ++ more) = more := by
            obtain ⟨hclosing, -⟩ | ⟨q, rfl, hbracket⟩ := prefix_append_cases hq
            · rw [skipSpace_append fun c hc => hL.closing depth c (hclosing.subset hc),
                hblocked.skipSpace]
            · obtain rfl | rfl := prefix_singleton.mp hbracket
              · rw [List.append_nil, skipSpace_append (hL.closing depth), hblocked.skipSpace]
              · exact absurd rfl hqne
          rwa [hskip]
        | cons m' members =>
          cases q with
          | nil =>
            refine scanMembers_of_blocked ?_ value n hmember
            rwa [List.nil_append, hblocked.skipSpace]
          | cons d q =>
            obtain ⟨rfl, hcomma⟩ := List.cons_prefix_cons.mp hq
            have hrest : scanMembers value n (skipSpace (q ++ more)) = none := by
              obtain ⟨hspaces, -⟩ | ⟨q, rfl, hmembers⟩ := prefix_append_cases hcomma
              · rw [skipSpace_append fun c hc => hL.comma depth c (hspaces.subset hc),
                  hblocked.skipSpace]
                exact scanMembers_more hmore value n
              · rw [List.append_assoc, skipSpace_append (hL.comma depth)]
                obtain ⟨text, htext⟩ := dumpsMembers_head (L := L) depth m' members
                have hskip : skipSpace (q ++ more) = q ++ more := by
                  cases q with
                  | nil => exact hblocked.skipSpace
                  | cons d q =>
                    rw [htext] at hmembers
                    rw [(List.cons_prefix_cons.mp hmembers).1]
                    exact skipSpace_cons rfl _
                rw [hskip]
                simp only [List.length_append, List.length_cons] at hvalue htorn
                refine ih (fun m hm => htextual m (List.mem_cons_of_mem _ hm)) n ?_ ?_ hmembers
                  fun h => hqne (by rw [h])
                · intro m hm hlength
                  exact hvalue m (List.mem_cons_of_mem _ hm) (by omega)
                · intro m hm q' hlength
                  exact htorn m (List.mem_cons_of_mem _ hm) q' (by omega)
            rw [scanMembers, hmember]
            simp only [Option.bind_eq_bind, Option.bind_some]
            rw [List.cons_append, skipSpace_cons rfl]
            simp only [hrest, Option.bind_none]

omit hmore [FloatText F] in
/-- A dictionary whose members cannot be read cannot be read. -/
theorem scanDict_of_torn {value : List Char → Option (PyJson F × List Char)} {n : ℕ}
    {q : List Char} (hhead : ∀ rest, skipSpace q ≠ '}' :: rest)
    (hmembers : scanMembers value n (skipSpace q) = none) : scanDict value n q = none := by
  rw [scanDict]
  split
  · next heq => exact absurd heq (hhead _)
  · rw [hmembers]
    rfl

theorem more_ne_bracket (rest : List Char) : more ≠ '}' :: rest := by
  rintro rfl
  exact (hmore.opens.blocked '}' rfl).2.2.2 rfl

/-- A dictionary that is cut off cannot be read, if its values that are cut off end. -/
theorem scanValue_dict_of_torn (hL : L.Blank) {members : List (PyStr × PyJson F)}
    (htextual : ∀ m ∈ members, Textual m.2) (depth : ℕ) {n : ℕ}
    (htorn : ∀ m ∈ members, ∀ q : List Char, q.length + more.length < n →
      q <+: dumps L (depth + 1) m.2 → q ≠ dumps L (depth + 1) m.2 →
      Stuck (scanValue (F := F) n (q ++ more)))
    {c : Char} {p : List Char} (hn : p.length + more.length < n) (hp : c :: p <+: dumps L depth (.dict members))
    (hne : c :: p ≠ dumps L depth (.dict members)) :
    scanValue (F := F) (n + 1) (c :: p ++ more) = none := by
  have hblocked := hmore.opens.blocked
  cases members with
  | nil =>
    rw [dumps] at hp hne
    obtain ⟨rfl, hbracket⟩ := List.cons_prefix_cons.mp hp
    obtain rfl | rfl := prefix_singleton.mp hbracket
    · rw [List.cons_append, scanValue]
      refine scanDict_of_torn ?_ ?_
      · rw [List.nil_append, hblocked.skipSpace]
        exact more_ne_bracket hmore
      · rw [List.nil_append, hblocked.skipSpace]
        exact scanMembers_more hmore _ n
    · exact absurd rfl hne
  | cons m members =>
    rw [dumps] at hp hne
    obtain ⟨rfl, hopening⟩ := List.cons_prefix_cons.mp hp
    rw [List.cons_append, scanValue]
    obtain ⟨hspaces, -⟩ | ⟨q, rfl, hmembers⟩ := prefix_append_cases hopening
    · have hskip : skipSpace (p ++ more) = more := by
        rw [skipSpace_append fun c hc => hL.opening depth c (hspaces.subset hc), hblocked.skipSpace]
      refine scanDict_of_torn ?_ ?_
      · rw [hskip]
        exact more_ne_bracket hmore
      · rw [hskip]
        exact scanMembers_more hmore _ n
    · have hq : skipSpace (q ++ more) = q ++ more ∧ ∀ rest, q ++ more ≠ '}' :: rest := by
        obtain ⟨text, htext⟩ := dumpsMembers_head (L := L) depth m members
        cases q with
        | nil => exact ⟨hblocked.skipSpace, more_ne_bracket hmore⟩
        | cons d q =>
          rw [htext] at hmembers
          rw [(List.cons_prefix_cons.mp hmembers).1]
          exact ⟨skipSpace_cons rfl _, by simp⟩
      have hskip : skipSpace (L.opening depth ++ q ++ more) = q ++ more := by
        rw [List.append_assoc, skipSpace_append (hL.opening depth), hq.1]
      rw [List.length_append] at hn
      refine scanDict_of_torn (by rw [hskip]; exact hq.2) ?_
      rw [hskip]
      refine scanMembers_of_torn hmore hL htextual n ?_ ?_ hmembers fun h => hne (by rw [h])
      · intro m' hm' hlength rest
        exact scanValue_dumps hL (htextual m' hm').numberless (depth + 1) (by omega) rest
      · intro m' hm' q' hlength
        exact htorn m' hm' q' (by omega)

/-- **After a value that is cut off nothing goes on**, by induction on it. -/
theorem scanValue_of_torn (hL : L.Blank) {v : PyJson F} (hv : Textual v) (depth : ℕ) {n : ℕ}
    {p : List Char} (hn : p.length + more.length < n) (hp : p <+: dumps L depth v) (hne : p ≠ dumps L depth v) :
    Stuck (scanValue (F := F) n (p ++ more)) := by
  induction hv generalizing depth n p with
  | str s =>
    cases n with
    | zero => exact stuck_none
    | succ n =>
      rw [dumps] at hp hne
      cases p with
      | nil => exact hmore.value (n + 1) (by rw [List.length_nil] at hn; omega)
      | cons c p =>
        obtain rfl : c = '"' := (List.cons_prefix_cons.mp hp).1
        rw [List.cons_append, scanValue]
        exact (scanString_of_torn_quote hmore hp hne).map _
  | dict members htextual ih =>
    cases n with
    | zero => exact stuck_none
    | succ n =>
      cases p with
      | nil => exact hmore.value (n + 1) (by rw [List.length_nil] at hn; omega)
      | cons c p =>
        rw [List.length_cons] at hn
        rw [scanValue_dict_of_torn hmore hL htextual depth
          (fun m hm q hq hp hne => ih m hm (depth + 1) hq hp hne) (by omega) hp hne]
        exact stuck_none

/-- **A record that is cut off cannot be read**, whatever comes right after it. -/
theorem loads_of_torn (hL : L.Blank) {members : List (PyStr × PyJson F)}
    (htextual : ∀ m ∈ members, Textual m.2) {c : Char} {p : List Char}
    (hp : c :: p <+: dumps L 0 (.dict members)) (hne : c :: p ≠ dumps L 0 (.dict members)) :
    loads (F := F) (c :: p ++ more) = none := by
  have hv : Textual (.dict members : PyJson F) := .dict members htextual
  have hlength : p.length + more.length < (c :: p ++ more).length := by
    rw [List.length_append, List.length_cons]
    omega
  rw [loads, skipSpace_of_torn hmore hv hp, scanValue_dict_of_torn hmore hL htextual 0
    (fun m hm q hq hp hne => scanValue_of_torn hmore hL (htextual m hm) 1 hq hp hne) hlength hp hne]
  rfl

/-- Nothing may follow a record. -/
theorem loads_of_followed (hL : L.Blank) {v : PyJson F} (hv : Textual v) (hne : more ≠ []) :
    loads (F := F) (dumps L 0 v ++ more) = none := by
  have hlength : (dumps L 0 v).length < (dumps L 0 v ++ more).length + 1 := by
    rw [List.length_append]
    omega
  rw [loads, skipSpace_dumps hv.numberless, scanValue_dumps hL hv.numberless 0 hlength]
  simp only [Option.bind_eq_bind, Option.bind_some, hmore.opens.blocked.skipSpace]
  exact if_neg hne

/-- A record on one line, or its beginning, is such a text: its first key does not go on with what
was cut off either. -/
theorem Interrupts.record {m : PyStr × PyJson F} {members : List (PyStr × PyJson F)}
    (htextual : ∀ m' ∈ m :: members, Textual m'.2) (hkey : Blocked (quoted m.1)) {c : Char}
    {q : List Char} (hq : c :: q <+: dumps .line 0 (.dict (m :: members))) :
    Interrupts F (c :: q ++ more) := by
  obtain ⟨text, hmembers⟩ : ∃ text, dumpsMembers .line 0 (m :: members) =
      '"' :: (quoted m.1 ++ '"' :: text) :=
    ⟨_, by rw [dumpsMembers_cons, quote, List.cons_append, List.append_assoc, List.singleton_append]⟩
  have hline : dumps .line 0 (.dict (m :: members)) = '{' :: '"' :: (quoted m.1 ++ '"' :: text) := by
    rw [← hmembers, dumps]
    rfl
  have hv : Textual (.dict (m :: members) : PyJson F) := .dict _ htextual
  obtain rfl : c = '{' := by
    rw [hline] at hq
    exact (List.cons_prefix_cons.mp hq).1
  refine ⟨.inr ⟨q ++ more, rfl⟩, fun n => ?_, fun n hn => ?_⟩
  · cases n with
    | zero => exact stuck_none
    | succ n =>
      -- the brace belongs to the string; a quote after it ends it
      have hstuck : Stuck (scanUnits n (q ++ more)) := by
        cases q with
        | nil => exact hmore.units n
        | cons d q =>
          rw [hline] at hq
          obtain ⟨rfl, hafter⟩ := List.cons_prefix_cons.mp (List.cons_prefix_cons.mp hq).2
          cases n with
          | zero => exact stuck_none
          | succ n =>
            intro r hr
            rw [← Option.some.inj hr]
            cases q with
            | nil => exact hmore.opens.blocked
            | cons e q =>
              intro e' he'
              obtain rfl : e = e' := Option.some.inj he'
              cases hquoted : quoted m.1 with
              | nil =>
                rw [hquoted] at hafter
                rw [(List.cons_prefix_cons.mp hafter).1]
                decide
              | cons e' text' =>
                rw [hquoted] at hafter
                rw [(List.cons_prefix_cons.mp hafter).1]
                exact hkey e' (by rw [hquoted]; rfl)
      change Stuck ((scanUnits n (q ++ more)).bind fun r => some (ofChar '{' :: r.1, r.2))
      cases hread : scanUnits n (q ++ more) with
      | none => exact stuck_none
      | some r =>
        intro r' hr'
        rw [← Option.some.inj hr']
        exact hstuck r hread
  · by_cases hne : '{' :: q = dumps .line 0 (.dict (m :: members))
    · rw [hne, List.length_append] at hn
      rw [hne, scanValue_dumps Layout.line_blank hv.numberless 0 (by omega)]
      rintro r hr
      rw [← Option.some.inj hr]
      exact hmore.opens.blocked
    · cases n with
      | zero => exact stuck_none
      | succ n =>
        rw [List.length_append, List.length_cons] at hn
        rw [scanValue_dict_of_torn hmore Layout.line_blank htextual 0 (fun m' hm' q' hq' hp' hne' =>
          scanValue_of_torn hmore Layout.line_blank (htextual m' hm') 1 hq' hp' hne') (by omega) hq hne]
        exact stuck_none

end

end Python

end Ao2
