import Ao2.Checks
import Ao2.Policy
import Ao2.Texts.Split
import Ao2.Versions.SemVer
import Mathlib.Data.List.TakeDrop

/-!
# The order of release versions

Two versions that both parse are compared by their numbers and pre-releases; any others by all the
numbers in their texts. A number is one of 64 bits.

The comparison mixes two orders, each of which is transitive. Three texts are in order as long as not
exactly two of them parse.

Directories are listed by the numbers in their names, the greatest first, and by their names where the
numbers are the same. So many of them as are to be kept are kept, and the others are removed.

The numbers of a pre-release are those of its release with more after them, so that it stands before
its release.

## Main results

* `compareVersions_spells` — versions whose numbers fit are compared by their precedence
-/

namespace Ao2

namespace Release

open SemVer

/-! ### Parsing -/

inductive SemverIdentifier where
  | numeric (n : ℕ)
  | text (s : String)
  deriving DecidableEq

structure ParsedSemver where
  core : ℕ × ℕ × ℕ
  prerelease : Option (List SemverIdentifier)
  deriving DecidableEq

/-- A number of 64 bits; a plus may be before it. -/
def parseU64 (text : List Char) : Option ℕ :=
  let digits := if text.head? = some '+' then text.tail else text
  if digits = [] ∨ digits.all Char.isDigit = false then none
  else if Nat.ofDigitChars 10 digits 0 < 18446744073709551616 then some (Nat.ofDigitChars 10 digits 0)
  else none

/-- Three numbers with dots between them. -/
def parseCore (core : List Char) : Option (ℕ × ℕ × ℕ) :=
  match core.splitOn '.' with
  | [major, minor, patch] => do return (← parseU64 major, ← parseU64 minor, ← parseU64 patch)
  | _ => none

def parseIdentifier (part : List Char) : SemverIdentifier :=
  match parseU64 part with
  | some n => .numeric n
  | none => .text (.ofList part)

/-- The core and the pre-release of a version without its build. -/
def splitPrerelease (withoutBuild : List Char) : List Char × Option (List Char) :=
  match splitOnce ['-'] withoutBuild with
  | some (core, prerelease) => (core, some prerelease)
  | none => (withoutBuild, none)

def parseSemver (version : String) : Option ParsedSemver := do
  let withoutBuild := (version.toList.dropWhile (· = 'v')).takeWhile (· ≠ '+')
  let (core, prerelease) := splitPrerelease withoutBuild
  let core ← parseCore core
  return ⟨core, prerelease.map fun value => (value.splitOn '.').map parseIdentifier⟩

/-- All the numbers in a text; one that does not fit is read as 0. -/
def numbersIn (text : List Char) : List ℕ :=
  ((text.splitOnP (!·.isDigit)).filter (· ≠ [])).map fun part => (parseU64 part).getD 0

def parseVersionTuple (version : String) : List ℕ := numbersIn version.toList

/-! ### Comparing -/

def SemverIdentifier.cmp : SemverIdentifier → SemverIdentifier → Ordering
  | numeric left, numeric right => compare left right
  | numeric _, text _ => .lt
  | text _, numeric _ => .gt
  | text left, text right => compare left right

instance : Ord SemverIdentifier := ⟨SemverIdentifier.cmp⟩

def compareCores : ℕ × ℕ × ℕ → ℕ × ℕ × ℕ → Ordering :=
  compareLex (compareOn fun core => core.1)
    (compareLex (compareOn fun core => core.2.1) (compareOn fun core => core.2.2))

def comparePrereleases : Option (List SemverIdentifier) → Option (List SemverIdentifier) → Ordering
  | none, none => .eq
  | none, some _ => .gt
  | some _, none => .lt
  | some left, some right => compare left right

def ParsedSemver.cmp (self other : ParsedSemver) : Ordering :=
  (compareCores self.core other.core).then (comparePrereleases self.prerelease other.prerelease)

instance : Ord ParsedSemver := ⟨ParsedSemver.cmp⟩

def compareVersions (left right : String) : Ordering :=
  match parseSemver left, parseSemver right with
  | some left, some right => compare left right
  | _, _ => compare (parseVersionTuple left) (parseVersionTuple right)

/-! ### Both orders are transitive -/

instance : Std.TransOrd SemverIdentifier where
  eq_swap {a b} := by
    cases a with
    | numeric m =>
      cases b with
      | numeric n => exact @Std.OrientedOrd.eq_swap ℕ _ _ m n
      | text t => rfl
    | text s =>
      cases b with
      | numeric n => rfl
      | text t => exact @Std.OrientedOrd.eq_swap String _ _ s t
  isLE_trans {a b c} hab hbc := by
    cases a with
    | numeric m =>
      cases c with
      | numeric k =>
        cases b with
        | numeric n => exact @Std.TransOrd.isLE_trans ℕ _ _ m n k hab hbc
        | text t => cases hbc
      | text u => rfl
    | text s =>
      cases b with
      | numeric n => cases hab
      | text t =>
        cases c with
        | numeric k => cases hbc
        | text u => exact @Std.TransOrd.isLE_trans String _ _ s t u hab hbc

instance : Std.TransCmp compareCores :=
  inferInstanceAs (Std.TransCmp (compareLex _ (compareLex _ _)))

instance : Std.TransCmp comparePrereleases where
  eq_swap {a b} := by
    cases a with
    | none => cases b <;> rfl
    | some l =>
      cases b with
      | none => rfl
      | some l' => exact @Std.OrientedOrd.eq_swap (List SemverIdentifier) _ _ l l'
  isLE_trans {a b c} hab hbc := by
    cases c with
    | none =>
      cases a <;> rfl
    | some l'' =>
      cases b with
      | none => cases hbc
      | some l' =>
        cases a with
        | none => cases hab
        | some l => exact @Std.TransOrd.isLE_trans (List SemverIdentifier) _ _ l l' l'' hab hbc

instance : Std.TransOrd ParsedSemver :=
  have := @transCmp_on _ _ compareCores _ ParsedSemver.core
  have := @transCmp_on _ _ comparePrereleases _ ParsedSemver.prerelease
  inferInstanceAs (Std.TransCmp (compareLex (fun p q : ParsedSemver => compareCores p.core q.core)
    fun p q => comparePrereleases p.prerelease q.prerelease))

variable {a b c : String}

theorem compareVersions_of_some {p q : ParsedSemver} (ha : parseSemver a = some p)
    (hb : parseSemver b = some q) : compareVersions a b = compare p q := by
  rw [compareVersions, ha, hb]

theorem compareVersions_of_none (h : parseSemver a = none ∨ parseSemver b = none) :
    compareVersions a b = compare (parseVersionTuple a) (parseVersionTuple b) := by
  rw [compareVersions]
  rcases h with h | h
  · rw [h]
  · rw [h]
    cases parseSemver a <;> rfl

theorem compareVersions_self (a : String) : compareVersions a a = .eq := by
  cases ha : parseSemver a with
  | none =>
    rw [compareVersions_of_none (.inl ha)]
    exact Std.ReflOrd.compare_self
  | some p =>
    rw [compareVersions_of_some ha ha]
    exact Std.ReflOrd.compare_self

theorem compareVersions_swap (a b : String) : compareVersions b a = (compareVersions a b).swap := by
  by_cases h : parseSemver a = none ∨ parseSemver b = none
  · rw [compareVersions_of_none h, compareVersions_of_none h.symm]
    exact Std.OrientedOrd.eq_swap
  · rw [not_or] at h
    obtain ⟨p, ha⟩ := Option.ne_none_iff_exists'.mp h.1
    obtain ⟨q, hb⟩ := Option.ne_none_iff_exists'.mp h.2
    rw [compareVersions_of_some ha hb, compareVersions_of_some hb ha]
    exact Std.OrientedOrd.eq_swap

/-- Exactly two of three texts parse. -/
def TwoParse (a b c : String) : Prop :=
  [a, b, c].countP (fun version => (parseSemver version).isSome) = 2

/-- Three texts all of which parse, or two of which do not. -/
theorem parses_of_not_twoParse (h : ¬ TwoParse a b c) :
    (∃ p q r, parseSemver a = some p ∧ parseSemver b = some q ∧ parseSemver c = some r) ∨
      ((parseSemver a = none ∨ parseSemver b = none) ∧
        (parseSemver b = none ∨ parseSemver c = none) ∧
        (parseSemver a = none ∨ parseSemver c = none)) := by
  rw [TwoParse, List.countP_cons, List.countP_cons, List.countP_singleton] at h
  cases ha : parseSemver a with
  | none =>
    cases hb : parseSemver b with
    | none => exact .inr ⟨.inl rfl, .inl rfl, .inl rfl⟩
    | some q =>
      cases hc : parseSemver c with
      | none => exact .inr ⟨.inl rfl, .inr rfl, .inl rfl⟩
      | some r =>
        rw [ha, hb, hc] at h
        exact absurd rfl h
  | some p =>
    cases hb : parseSemver b with
    | none =>
      cases hc : parseSemver c with
      | none => exact .inr ⟨.inr rfl, .inl rfl, .inr rfl⟩
      | some r =>
        rw [ha, hb, hc] at h
        exact absurd rfl h
    | some q =>
      cases hc : parseSemver c with
      | none =>
        rw [ha, hb, hc] at h
        exact absurd rfl h
      | some r => exact .inl ⟨p, q, r, rfl, rfl, rfl⟩

/-- The comparison is transitive unless both orders are mixed. -/
theorem compareVersions_trans (h : ¬ TwoParse a b c) (hab : (compareVersions a b).isLE)
    (hbc : (compareVersions b c).isLE) : (compareVersions a c).isLE := by
  rcases parses_of_not_twoParse h with ⟨p, q, r, ha, hb, hc⟩ | ⟨hnab, hnbc, hnac⟩
  · rw [compareVersions_of_some ha hb] at hab
    rw [compareVersions_of_some hb hc] at hbc
    rw [compareVersions_of_some ha hc]
    exact Std.TransOrd.isLE_trans hab hbc
  · rw [compareVersions_of_none hnab] at hab
    rw [compareVersions_of_none hnbc] at hbc
    rw [compareVersions_of_none hnac]
    exact Std.TransOrd.isLE_trans hab hbc

/-! ### Versions -/

/-- The numbers of a version fit into 64 bits. -/
def Fits (v : Version) : Prop :=
  (v.core.major < 18446744073709551616 ∧ v.core.minor < 18446744073709551616 ∧
    v.core.patch < 18446744073709551616) ∧
  ∀ n, .numeric n ∈ v.prerelease → n < 18446744073709551616

/-- A text is a version, with or without a leading `v`. -/
def Spells (s : String) (v : Version) : Prop := s.toList = v.text ∨ s.toList = 'v' :: v.text

theorem parseU64_digits {n : ℕ} (h : n < 18446744073709551616) : parseU64 (digits n) = some n := by
  have hdigits : (digits n).all Char.isDigit = true :=
    List.all_eq_true.mpr fun c hc => isDigit_of_mem_digits hc
  have hplus : (digits n).head? ≠ some '+' := by
    intro hhead
    exact absurd (isDigit_of_mem_digits (List.mem_of_head? hhead)) (by decide)
  rw [parseU64, if_neg hplus]
  rw [if_neg (by rw [hdigits]; simp [digits_ne_nil]), digits, Nat.ofDigitChars_ten_toDigits, if_pos h]

theorem parseU64_alphanumeric {text : List Char} (h : IsAlphanumeric text) : parseU64 text = none := by
  obtain ⟨hchars, c, hc, hdigit⟩ := h
  have hplus : text.head? ≠ some '+' := by
    intro hhead
    exact absurd (hchars _ (List.mem_of_head? hhead)) (by decide)
  have hnot : text.all Char.isDigit = false := by
    rw [List.all_eq_false]
    exact ⟨c, hc, by rw [hdigit]; decide⟩
  rw [parseU64, if_neg hplus]
  rw [if_pos (.inr hnot)]

/-- An identifier as it is parsed. -/
def identifierOf : Identifier → SemverIdentifier
  | .numeric n => .numeric n
  | .alphanumeric s _ => .text s

theorem parseIdentifier_text {i : Identifier} (h : ∀ n, i = .numeric n → n < 18446744073709551616) :
    parseIdentifier i.text = identifierOf i := by
  cases i with
  | numeric n =>
    rw [Identifier.text, parseIdentifier, parseU64_digits (h n rfl)]
    rfl
  | alphanumeric s hs =>
    rw [Identifier.text, parseIdentifier, parseU64_alphanumeric hs, String.ofList_toList]
    rfl

theorem parseCore_text {core : Core} (hmajor : core.major < 18446744073709551616)
    (hminor : core.minor < 18446744073709551616) (hpatch : core.patch < 18446744073709551616) :
    parseCore core.text = some (core.major, core.minor, core.patch) := by
  have hsplit : core.text.splitOn '.' =
      [digits core.major, digits core.minor, digits core.patch] := by
    refine List.splitOn_intercalate _ ?_ (List.cons_ne_nil _ _)
    intro l hl hdot
    simp only [List.mem_cons, List.not_mem_nil, or_false] at hl
    have hdigit : Char.isDigit '.' = true := by
      rcases hl with rfl | rfl | rfl <;> exact isDigit_of_mem_digits hdot
    exact absurd hdigit (by decide)
  rw [parseCore, hsplit]
  simp only [parseU64_digits hmajor, parseU64_digits hminor, parseU64_digits hpatch]
  rfl

theorem text_eq (v : Version) : v.text = digits v.core.major ++ '.' :: (digits v.core.minor ++ '.' ::
    (digits v.core.patch ++ (marked '-' (v.prerelease.map Identifier.text) ++
      marked '+' (v.build.map BuildIdentifier.text)))) := by
  rw [Version.text, Core.text, intercalate_cons (List.cons_ne_nil _ _),
    intercalate_cons (List.cons_ne_nil _ _), List.intercalate_singleton]
  simp only [List.append_assoc, List.cons_append]

/-- The text of a version begins with a digit. -/
theorem head_text (v : Version) : ∃ c rest, v.text = c :: rest ∧ c.isDigit = true := by
  obtain ⟨c, rest, heq⟩ := List.exists_cons_of_ne_nil (digits_ne_nil v.core.major)
  have hc : c.isDigit = true := isDigit_of_mem_digits (n := v.core.major) (by
    rw [heq]
    exact List.mem_cons_self)
  rw [text_eq, heq]
  exact ⟨c, _, rfl, hc⟩

theorem dropWhile_spells {s : String} {v : Version} (h : Spells s v) :
    s.toList.dropWhile (· = 'v') = v.text := by
  obtain ⟨c, rest, htext, hc⟩ := head_text v
  have hne : c ≠ 'v' := by
    rintro rfl
    exact absurd hc (by decide)
  have hdrop : v.text.dropWhile (· = 'v') = v.text := by
    rw [htext, List.dropWhile_cons_of_neg (by simpa using hne)]
  rcases h with h | h
  · rw [h, hdrop]
  · rw [h, List.dropWhile_cons_of_pos (by decide), hdrop]

theorem takeWhile_marked {mark : Char} {text : List Char} (h : mark ∉ text)
    (texts : List (List Char)) : (text ++ marked mark texts).takeWhile (· ≠ mark) = text := by
  have htext : ∀ c ∈ text, decide (c ≠ mark) = true := fun c hc =>
    decide_eq_true fun heq => h (heq ▸ hc)
  rw [List.takeWhile_append_of_pos htext, marked]
  split
  · rw [List.takeWhile_nil, List.append_nil]
  · rw [List.takeWhile_cons_of_neg (by simp), List.append_nil]

theorem splitPrerelease_marked {core : List Char} (h : '-' ∉ core) (texts : List (List Char)) :
    splitPrerelease (core ++ marked '-' texts) =
      (core, if texts = [] then none else some (['.'].intercalate texts)) := by
  rw [splitPrerelease, marked]
  split_ifs with htexts
  · have hnone : splitOnce ['-'] (core ++ []) = none := by
      rw [splitOnce_eq_none_iff, List.append_nil]
      exact fun hpart => h (hpart.subset List.mem_cons_self)
    rw [hnone, List.append_nil]
  · rw [splitOnce_singleton_iff.mpr ⟨rfl, h⟩]

theorem not_mem_core {core : Core} {c : Char} (hdot : c ≠ '.') (hc : c.isDigit = false) :
    c ∉ core.text := by
  intro hmem
  rcases mem_core_text hmem with rfl | hdigit
  · exact hdot rfl
  · exact Bool.false_ne_true (hc.symm.trans hdigit)

theorem plus_not_mem (v : Version) :
    '+' ∉ v.core.text ++ marked '-' (v.prerelease.map Identifier.text) := by
  rw [List.mem_append, not_or]
  refine ⟨not_mem_core (by decide) (by decide), fun hmem => ?_⟩
  have hchars : ∀ text ∈ v.prerelease.map Identifier.text, ∀ c ∈ text, isIdentifierChar c = true := by
    intro text htext c hc
    obtain ⟨i, -, rfl⟩ := List.mem_map.mp htext
    exact isIdentifierChar_of_mem_text hc
  rcases mem_marked hchars hmem with h | h | h
  · exact absurd h (by decide)
  · exact absurd h (by decide)
  · exact absurd h (by decide)

/-- The pre-release as it is parsed. -/
def prereleaseOf (l : List Identifier) : Option (List SemverIdentifier) :=
  if l = [] then none else some (l.map identifierOf)

theorem splitOn_identifiers {l : List Identifier} (hne : l ≠ [])
    (h : ∀ n, .numeric n ∈ l → n < 18446744073709551616) :
    ((['.'].intercalate (l.map Identifier.text)).splitOn '.').map parseIdentifier =
      l.map identifierOf := by
  rw [List.splitOn_intercalate, List.map_map]
  · refine List.map_congr_left fun i hi => ?_
    exact parseIdentifier_text fun n hn => h n (hn ▸ hi)
  · intro text htext hdot
    obtain ⟨i, -, rfl⟩ := List.mem_map.mp htext
    exact absurd (isIdentifierChar_of_mem_text hdot) (by decide)
  · exact fun hnil => hne (List.map_eq_nil_iff.mp hnil)

/-- A version that is spelled is parsed. -/
theorem parseSemver_spells {s : String} {v : Version} (h : Spells s v) (hfits : Fits v) :
    parseSemver s =
      some ⟨(v.core.major, v.core.minor, v.core.patch), prereleaseOf v.prerelease⟩ := by
  have hbody : v.text.takeWhile (· ≠ '+') =
      v.core.text ++ marked '-' (v.prerelease.map Identifier.text) := by
    rw [Version.text, ← List.append_assoc]
    exact takeWhile_marked (plus_not_mem v) _
  rw [parseSemver, dropWhile_spells h, hbody,
    splitPrerelease_marked (not_mem_core (by decide) (by decide))]
  dsimp only
  rw [parseCore_text hfits.1.1 hfits.1.2.1 hfits.1.2.2, prereleaseOf]
  by_cases hnil : v.prerelease = []
  · rw [hnil]
    rfl
  · have hne : v.prerelease.map Identifier.text ≠ [] := fun h => hnil (List.map_eq_nil_iff.mp h)
    rw [if_neg hne, if_neg hnil, Option.map_some, splitOn_identifiers hnil hfits.2]
    rfl

/-! ### Precedence -/

theorem compareLex_map {α β : Type} {cmp : α → α → Ordering} {cmp' : β → β → Ordering} (f : α → β)
    (h : ∀ a b, cmp' (f a) (f b) = cmp a b) (l l' : List α) :
    List.compareLex cmp' (l.map f) (l'.map f) = List.compareLex cmp l l' := by
  induction l generalizing l' with
  | nil =>
    cases l' with
    | nil => rfl
    | cons b l' => rfl
  | cons a l ih =>
    cases l' with
    | nil => rfl
    | cons b l' =>
      rw [List.map_cons, List.map_cons, List.compareLex_cons_cons, List.compareLex_cons_cons, h, ih]

theorem compare_identifierOf (i j : Identifier) :
    compare (identifierOf i) (identifierOf j) = i.precedence j := by
  cases i <;> cases j <;> rfl

theorem comparePrereleases_of (l l' : List Identifier) :
    comparePrereleases (prereleaseOf l) (prereleaseOf l') = prereleasePrecedence l l' := by
  cases l with
  | nil =>
    cases l' with
    | nil => rfl
    | cons j l' => rfl
  | cons i l =>
    cases l' with
    | nil => rfl
    | cons j l' => exact compareLex_map identifierOf compare_identifierOf (i :: l) (j :: l')

/-- **Versions whose numbers fit are compared by their precedence.** -/
theorem compareVersions_spells {s t : String} {v w : Version} (hs : Spells s v) (ht : Spells t w)
    (hv : Fits v) (hw : Fits w) : compareVersions s t = v.precedence w := by
  rw [compareVersions_of_some (parseSemver_spells hs hv) (parseSemver_spells ht hw)]
  change (compareCores _ _).then (comparePrereleases _ _) = _
  rw [comparePrereleases_of]
  rfl

/-! ### The numbers of a text -/

theorem numbersIn_digits {n : ℕ} (h : n < 18446744073709551616) : numbersIn (digits n) = [n] := by
  rw [numbersIn, List.splitOnP_eq_singleton]
  · rw [List.filter_singleton, decide_eq_true (digits_ne_nil n)]
    simp [parseU64_digits h]
  · intro c hc
    rw [isDigit_of_mem_digits hc]
    rfl

theorem numbersIn_append {text rest : List Char} {c : Char} (hc : c.isDigit = false) :
    numbersIn (text ++ c :: rest) = numbersIn text ++ numbersIn rest := by
  rw [numbersIn, List.splitOnP_append_cons _ _ (by rw [hc]; rfl), List.filter_append,
    List.map_append]
  rfl

/-- What is marked is nothing, or begins with the mark. -/
theorem marked_cases (mark mark' : Char) (texts texts' : List (List Char)) :
    marked mark texts ++ marked mark' texts' = [] ∨
      ∃ c rest, marked mark texts ++ marked mark' texts' = c :: rest ∧ (c = mark ∨ c = mark') := by
  rw [marked, marked]
  split_ifs with h h'
  · exact .inl rfl
  · exact .inr ⟨mark', _, rfl, .inr rfl⟩
  · exact .inr ⟨mark, _, rfl, .inl rfl⟩
  · exact .inr ⟨mark, _, rfl, .inl rfl⟩

/-- The numbers of a version begin with those of its core. -/
theorem numbersIn_text {v : Version} (hfits : Fits v) :
    ∃ rest, numbersIn v.text = v.core.major :: v.core.minor :: v.core.patch :: rest := by
  rw [text_eq, numbersIn_append (by decide), numbersIn_append (by decide),
    numbersIn_digits hfits.1.1, numbersIn_digits hfits.1.2.1]
  rcases marked_cases '-' '+' (v.prerelease.map Identifier.text) (v.build.map BuildIdentifier.text)
    with htail | ⟨c, rest, htail, hc⟩
  · rw [htail, List.append_nil, numbersIn_digits hfits.1.2.2]
    exact ⟨[], rfl⟩
  · have hdigit : c.isDigit = false := by
      rcases hc with rfl | rfl <;> decide
    rw [htail, numbersIn_append hdigit, numbersIn_digits hfits.1.2.2]
    exact ⟨numbersIn rest, rfl⟩

end Release

end Ao2

/-! ## The releases that are kept -/

namespace Ao2

namespace Release

open SemVer

/-! ### Directories -/

/-- An entry of a directory. A name that is no Unicode has no text. -/
structure DirEntry where
  fileName : Option String
  isDir : Bool

/-- What is found where the directories should be. -/
inductive Root where
  | missing
  | unreadable
  | listed (entries : List (Option DirEntry))

/-- The names of the directories that are looked at. An entry that cannot be read is left out. -/
def matchingDirs (includeName : String → Bool) (entries : List (Option DirEntry)) : List String :=
  entries.filterMap fun entry => entry.bind fun entry =>
    if entry.isDir then entry.fileName.filter includeName else none

/-- The order of the list, the greatest first. -/
def retentionOrder (sortKey : String → List ℕ) (left right : String) : Ordering :=
  (compare (sortKey right) (sortKey left)).then (compare right left)

/-- The directories that are kept and those that are removed. -/
def releaseRetentionPlanDirs (rootPath : String) (root : Root) (keep : ℕ) (includeName : String → Bool)
    (sortKey : String → List ℕ) : Except String (List String × List String) :=
  match root with
  | .missing => .ok ([], [])
  | .unreadable => .error ("read " ++ rootPath)
  | .listed entries =>
    let dirs := (matchingDirs includeName entries).mergeSort fun left right =>
      (retentionOrder sortKey left right).isLE
    .ok (dirs.take keep, dirs.drop keep)

def releaseTagSortKey (tag : String) : List ℕ := numbersIn (tag.toList.dropWhile (· = 'v'))

/-- A text without a word at its start, however often it stands there. -/
def trimStartMatches (word : List Char) : ℕ → List Char → List Char
  | 0, text => text
  | n + 1, text => if word <+: text then trimStartMatches word n (text.drop word.length) else text

def releaseComparisonDirSortKey (name : String) : List ℕ :=
  numbersIn (trimStartMatches "release-comparison-".toList name.length name.toList)

def isReleaseName (name : String) : Bool := "v".toList <+: name.toList

def isBundleName (name : String) : Bool := "release-comparison-".toList <+: name.toList

/-! ### Pruning -/

/-- A field of a form that is not blank. -/
def pathField (form : List (String × String)) (key default : String) : String :=
  ((form.lookup key).filter fun value => trim value ≠ "").getD default

def keepField (form : List (String × String)) (key : String) : ℕ :=
  ((form.lookup key).bind fun value => parseU64 (trim value).toList).getD 5

def dryRunField (form : List (String × String)) : Bool :=
  ((form.lookup "dry_run").map fun value => decide (trim value ∈ ["1", "true", "yes", "on"])).getD true

structure PruneReport where
  dryRun : Bool
  keptReleaseDirs : List String
  removedReleaseDirs : List String
  keptBundleDirs : List String
  removedBundleDirs : List String
  /-- What was deleted below the roots. -/
  deleted : List String

/-- Pruning, given what is found at a path. -/
def workbenchReleaseRetentionPrune (rootAt : String → Root) (form : List (String × String)) :
    Except String PruneReport := do
  let releaseDownloadDir := pathField form "release_download_dir" "target/release-download"
  let bundleRoot := pathField form "bundle_root" "target/release-comparison-bundles"
  let keepReleases := keepField form "keep_releases"
  let keepBundles := keepField form "keep_bundles"
  if keepReleases = 0 ∨ keepBundles = 0 then
    throw "release retention keep counts must be greater than 0"
  let (keptReleases, removedReleases) ← releaseRetentionPlanDirs releaseDownloadDir
    (rootAt releaseDownloadDir) keepReleases isReleaseName releaseTagSortKey
  let (keptBundles, removedBundles) ← releaseRetentionPlanDirs bundleRoot (rootAt bundleRoot)
    keepBundles isBundleName releaseComparisonDirSortKey
  return ⟨dryRunField form, keptReleases, removedReleases, keptBundles, removedBundles,
    if dryRunField form then [] else removedReleases ++ removedBundles⟩

/-! ### What is kept -/

/-- The directories below a root. -/
def Root.dirs (includeName : String → Bool) : Root → List String
  | listed entries => matchingDirs includeName entries
  | _ => []

theorem transCmp_retentionOrder (sortKey : String → List ℕ) : Std.TransCmp (retentionOrder sortKey) :=
  have := @transCmp_on _ _ compare _ sortKey
  have := @transCmp_swap _ (fun a b => compare (sortKey a) (sortKey b)) _
  have := @transCmp_swap String compare _
  inferInstanceAs (Std.TransCmp (compareLex (fun a b => compare (sortKey b) (sortKey a))
    fun a b => compare b a))

section

variable {rootPath : String} {root : Root} {keep : ℕ} {includeName : String → Bool}
  {sortKey : String → List ℕ} {kept removed : List String}

/-- What is kept and what is removed are all the directories. -/
theorem perm_of_plan
    (h : releaseRetentionPlanDirs rootPath root keep includeName sortKey = .ok (kept, removed)) :
    (kept ++ removed).Perm (root.dirs includeName) := by
  cases root with
  | missing =>
    cases h
    exact List.Perm.refl _
  | unreadable => cases h
  | listed entries =>
    cases h
    rw [List.take_append_drop]
    exact List.mergeSort_perm _ _

theorem length_of_plan
    (h : releaseRetentionPlanDirs rootPath root keep includeName sortKey = .ok (kept, removed)) :
    kept.length = min keep (root.dirs includeName).length := by
  cases root with
  | missing =>
    cases h
    exact (Nat.min_zero _).symm
  | unreadable => cases h
  | listed entries =>
    cases h
    rw [List.length_take, List.length_mergeSort]
    rfl

/-- Nothing that is removed comes before what is kept. -/
theorem order_of_plan
    (h : releaseRetentionPlanDirs rootPath root keep includeName sortKey = .ok (kept, removed)) :
    ∀ k ∈ kept, ∀ r ∈ removed, (retentionOrder sortKey k r).isLE := by
  cases root with
  | missing =>
    cases h
    exact List.forall_mem_nil _
  | unreadable => cases h
  | listed entries =>
    cases h
    have := transCmp_retentionOrder sortKey
    have hsorted := @List.pairwise_mergeSort _
      (fun left right => (retentionOrder sortKey left right).isLE)
      (fun a b c hab hbc => Std.TransCmp.isLE_trans hab hbc)
      (fun a b => by
        rw [@Std.OrientedCmp.eq_swap _ (retentionOrder sortKey) _ b a]
        cases retentionOrder sortKey a b <;> rfl)
      (matchingDirs includeName entries)
    rw [← List.take_append_drop keep (List.mergeSort _ _), List.pairwise_append] at hsorted
    exact hsorted.2.2

end

/-! ### Releases -/

section

variable {k r : String} {v w : Version}

/-- The key of a release begins with its numbers. -/
theorem releaseTagSortKey_spells (h : Spells k v) (hfits : Fits v) :
    ∃ rest, releaseTagSortKey k = v.core.major :: v.core.minor :: v.core.patch :: rest := by
  rw [releaseTagSortKey, dropWhile_spells h]
  exact numbersIn_text hfits

/-- A release that stands before another has no lesser numbers. -/
theorem core_isLE_of_order (hk : Spells k v) (hr : Spells r w) (hv : Fits v) (hw : Fits w)
    (h : (retentionOrder releaseTagSortKey k r).isLE) : (w.core.precedence v.core).isLE := by
  obtain ⟨rest, hkey⟩ := releaseTagSortKey_spells hk hv
  obtain ⟨rest', hkey'⟩ := releaseTagSortKey_spells hr hw
  rw [retentionOrder, Ordering.isLE_then_iff_and, hkey, hkey'] at h
  have hkeys := h.1
  rw [List.compare_cons_cons, List.compare_cons_cons, List.compare_cons_cons] at hkeys
  change ((compare w.core.major v.core.major).then ((compare w.core.minor v.core.minor).then
    (compare w.core.patch v.core.patch))).isLE = true
  rw [← Ordering.then_assoc, ← Ordering.then_assoc, Ordering.isLE_then_iff_and] at hkeys
  rw [← Ordering.then_assoc]
  exact hkeys.1

end

/-- What is kept of the releases, and what is not. -/
structure Retained (dirs : List String) (keep : ℕ) (kept removed : List String) : Prop where
  partition : (kept ++ removed).Perm dirs
  length : kept.length = min keep dirs.length
  /-- No release is removed in favour of one with lesser numbers. -/
  cores : ∀ k ∈ kept, ∀ r ∈ removed, ∀ v w, Spells k v → Spells r w → Fits v → Fits w →
    (w.core.precedence v.core).isLE
  /-- No stable release is removed in favour of a lesser one. -/
  stable : ∀ k ∈ kept, ∀ r ∈ removed, ∀ v w, Spells k v → Spells r w → Fits v → Fits w →
    v.Stable → w.Stable → (compareVersions r k).isLE

theorem retained_of_plan {rootPath : String} {root : Root} {keep : ℕ} {kept removed : List String}
    (h : releaseRetentionPlanDirs rootPath root keep isReleaseName releaseTagSortKey =
      .ok (kept, removed)) : Retained (root.dirs isReleaseName) keep kept removed := by
  have hcores : ∀ k ∈ kept, ∀ r ∈ removed, ∀ v w, Spells k v → Spells r w → Fits v → Fits w →
      (w.core.precedence v.core).isLE := fun k hk r hr v w hkv hrw hv hw =>
    core_isLE_of_order hkv hrw hv hw (order_of_plan h k hk r hr)
  refine ⟨perm_of_plan h, length_of_plan h, hcores, ?_⟩
  intro k hk r hr v w hkv hrw hv hw hvs hws
  rw [compareVersions_spells hrw hkv hw hv, Version.precedence_of_stable hws hvs]
  exact hcores k hk r hr v w hkv hrw hv hw

/-! ### The order of versions -/

/-- Each two versions are in order, and three are unless exactly two of them parse. -/
structure Ordered : Prop where
  self : ∀ a, compareVersions a a = .eq
  swap : ∀ a b, compareVersions b a = (compareVersions a b).swap
  trans : ∀ a b c, ¬ TwoParse a b c → (compareVersions a b).isLE → (compareVersions b c).isLE →
    (compareVersions a c).isLE

/-- Versions whose numbers fit into 64 bits are compared by their precedence. -/
def ByPrecedence : Prop :=
  ∀ s t v w, Spells s v → Spells t w → Fits v → Fits w → compareVersions s t = v.precedence w

/-- A plan, and a pruning, keeps the greatest. -/
structure KeepsGreatest : Prop where
  plan : ∀ rootPath root keep kept removed,
    releaseRetentionPlanDirs rootPath root keep isReleaseName releaseTagSortKey = .ok (kept, removed) →
      Retained (root.dirs isReleaseName) keep kept removed
  prune : ∀ rootAt form report, workbenchReleaseRetentionPrune rootAt form = .ok report →
    0 < keepField form "keep_releases" ∧
      Retained ((rootAt (pathField form "release_download_dir" "target/release-download")).dirs
        isReleaseName) (keepField form "keep_releases") report.keptReleaseDirs
          report.removedReleaseDirs ∧
      report.deleted ⊆ report.removedReleaseDirs ++ report.removedBundleDirs

theorem retained_of_prune {rootAt : String → Root} {form : List (String × String)}
    {report : PruneReport} (h : workbenchReleaseRetentionPrune rootAt form = .ok report) :
    0 < keepField form "keep_releases" ∧
      Retained ((rootAt (pathField form "release_download_dir" "target/release-download")).dirs
        isReleaseName) (keepField form "keep_releases") report.keptReleaseDirs
          report.removedReleaseDirs ∧
      report.deleted ⊆ report.removedReleaseDirs ++ report.removedBundleDirs := by
  rw [workbenchReleaseRetentionPrune] at h
  by_cases hzero : keepField form "keep_releases" = 0 ∨ keepField form "keep_bundles" = 0
  · rw [if_pos hzero] at h
    cases h
  · rw [if_neg hzero] at h
    obtain ⟨releases, hreleases, h⟩ := bind_eq_ok.mp h
    obtain ⟨bundles, hbundles, h⟩ := bind_eq_ok.mp h
    cases h
    rw [not_or] at hzero
    refine ⟨Nat.pos_of_ne_zero hzero.1, retained_of_plan hreleases, ?_⟩
    dsimp only
    split
    · exact List.nil_subset _
    · exact List.Subset.refl _

/-- **Versions are in one order** as far as they are all versions or all none, the precedence is that
order, and the releases with the greatest numbers are kept. -/
theorem versions_ordered : Ordered ∧ ByPrecedence ∧ KeepsGreatest :=
  ⟨⟨compareVersions_self, compareVersions_swap, fun _ _ _ => compareVersions_trans⟩,
    fun _ _ _ _ => compareVersions_spells,
    ⟨fun _ _ _ _ _ => retained_of_plan, fun _ _ _ => retained_of_prune⟩⟩

/-! ### Versions that are out of order -/

/-- A release is before a text with one more number, which is before a pre-release of it. -/
theorem versions_not_ordered :
    ¬ (∀ a b c, (compareVersions a b).isLE → (compareVersions b c).isLE → (compareVersions a c).isLE) ∧
    (∃ s t v w, Spells s v ∧ Spells t w ∧ compareVersions s t ≠ v.precedence w) ∧
    ∃ root kept removed,
      releaseRetentionPlanDirs "d" root 1 isReleaseName releaseTagSortKey = .ok (kept, removed) ∧
        ∃ k ∈ kept, ∃ r ∈ removed, compareVersions k r = .lt := by
  refine ⟨fun htrans => ?_, ?_, ?_⟩
  · exact absurd (htrans "1.0.0" "1.0.0.0" "1.0.0-rc.1" (by decide) (by decide)) (by decide)
  · refine ⟨"18446744073709551616.0.0", "1.0.0", ⟨⟨18446744073709551616, 0, 0⟩, [], []⟩,
      ⟨⟨1, 0, 0⟩, [], []⟩, .inl ?_, .inl (by decide), by decide⟩
    decide
  · refine ⟨.listed [some ⟨some "v1.0.0-rc.1", true⟩, some ⟨some "v1.0.0", true⟩],
      ["v1.0.0-rc.1"], ["v1.0.0"], ?_, _, List.mem_cons_self, _, List.mem_cons_self, by decide⟩
    have hdirs : matchingDirs isReleaseName [some ⟨some "v1.0.0-rc.1", true⟩,
        some ⟨some "v1.0.0", true⟩] = ["v1.0.0-rc.1", "v1.0.0"] := by decide
    rw [releaseRetentionPlanDirs, hdirs, List.mergeSort_of_pairwise (by decide)]
    rfl

end Release

end Ao2
