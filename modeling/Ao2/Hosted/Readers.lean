import Ao2.Hosted.Contract
import Ao2.Selection

/-!
# The rows of a checksum file

A row of a checksum file is read by a script and by the runtime, and comes out the same.

## Main results

* `parseRows_eq_ok_iff` — the same rows
-/

namespace Ao2

namespace Hosted

open Python Files

/-- The exceptions. -/
inductive Raised where
  /-- The input is not exact and safe. -/
  | validation (message : String)
  | osError
  | encodeError
  | decodeError
  | typeError
  | keyError
  deriving DecidableEq

/-! ### Rows -/

/-- A row of a checksum file: a digest, two blanks and a name. -/
def checksumRow (isNameChar : Char → Bool) (row : List Char) : Option (String × String) :=
  match row.drop 64 with
  | ' ' :: ' ' :: name =>
    if (row.take 64).length = 64 ∧ (row.take 64).all isLowerHex ∧ name ≠ [] ∧ name.all isNameChar then
      some (.ofList name, .ofList (row.take 64))
    else none
  | _ => none

/-- The digests of a checksum file, by the names of the files. -/
def parseChecksums (isNameChar : Char → Bool) (message : String) :
    List (List Char) → List (String × String) → Except Raised (List (String × String))
  | [], parsed => .ok parsed
  | row :: rows, parsed =>
    match checksumRow isNameChar row with
    | none => .error (.validation message)
    | some (name, digest) =>
      if (parsed.lookup name).isSome then .error (.validation message)
      else parseChecksums isNameChar message rows (parsed ++ [(name, digest)])

/-- A character of a file name. -/
def isAssetChar (c : Char) : Bool := c.isAlphanum || c ∈ ['.', '_', '-']

/-- The parts of a row. -/
structure IsRow (isNameChar : Char → Bool) (row digest name : List Char) : Prop where
  eq : row = digest ++ ' ' :: ' ' :: name
  length : digest.length = 64
  hex : digest.all isLowerHex = true
  nonempty : name ≠ []
  chars : name.all isNameChar = true

theorem checksumRow_eq_some_iff {isNameChar : Char → Bool} {row : List Char} {name digest : String} :
    checksumRow isNameChar row = some (name, digest) ↔
      IsRow isNameChar row digest.toList name.toList := by
  constructor
  · intro h
    rw [checksumRow] at h
    split at h
    · rename_i rest hrest
      split_ifs at h with hrow
      obtain ⟨hname, hdigest⟩ := Prod.mk.inj (Option.some.inj h)
      rw [← hname, ← hdigest, String.toList_ofList, String.toList_ofList]
      exact ⟨by rw [← hrest, List.take_append_drop], hrow.1, hrow.2.1, hrow.2.2.1, hrow.2.2.2⟩
    · cases h
  · intro h
    have htake : row.take 64 = digest.toList := by rw [h.eq, List.take_left' h.length]
    have hdrop : row.drop 64 = ' ' :: ' ' :: name.toList := by rw [h.eq, List.drop_left' h.length]
    rw [checksumRow, hdrop, htake]
    refine (if_pos ⟨h.length, h.hex, h.nonempty, h.chars⟩).trans ?_
    rw [String.ofList_toList, String.ofList_toList]

theorem blank_not_mem {digest : List Char} (h : digest.all isLowerHex = true) : ' ' ∉ digest := by
  intro hmem
  have := List.all_eq_true.mp h _ hmem
  exact absurd this (by decide)

namespace Contract

/-- The runtime cuts a row at the same place. -/
theorem splitRow_of_isRow {row digest name : List Char} (h : IsRow isNameChar row digest name) :
    splitRow row = some (digest, name) := by
  have hcut : splitOnce [' ', ' '] (' ' :: ' ' :: name) = some ([], name) := by
    rw [splitOnce, if_pos ⟨name, rfl⟩]
    rfl
  rw [splitRow, h.eq, splitOnce_append (blank_not_mem h.hex), hcut, Option.map_some, List.append_nil]

theorem isLowerHexText_ofList {digest : List Char} {n : ℕ} :
    isLowerHexText (.ofList digest) n = true ↔ digest.length = n ∧ digest.all isLowerHex = true := by
  rw [isLowerHexText, Bool.and_eq_true, decide_eq_true_eq, String.toList_ofList]

theorem isRow_of_splitRow {row digest name : List Char} (h : splitRow row = some (digest, name))
    (hdigest : isLowerHexText (.ofList digest) 64 = true) (hne : name ≠ [])
    (hname : name.all isNameChar = true) : IsRow isNameChar row digest name := by
  obtain ⟨hlength, hhex⟩ := isLowerHexText_ofList.mp hdigest
  exact ⟨eq_of_splitOnce h, hlength, hhex, hne, hname⟩

/-- One row more. -/
theorem parseRows_cons (line : List Char) (rest : List (List Char)) (parsed : List (String × String)) :
    parseRows (line :: rest) parsed =
      match checksumRow isNameChar line with
      | none => .error "invalid SHA256SUMS row"
      | some (name, digest) =>
        if (parsed.lookup name).isSome then .error "invalid SHA256SUMS row"
        else parseRows rest (parsed ++ [(name, digest)]) := by
  rw [parseRows]
  cases hrow : checksumRow isNameChar line with
  | some row =>
    obtain ⟨name, digest⟩ := row
    have his := checksumRow_eq_some_iff.mp hrow
    have hhex : isLowerHexText (.ofList digest.toList) 64 = true :=
      isLowerHexText_ofList.mpr ⟨his.length, his.hex⟩
    rw [splitRow_of_isRow his]
    dsimp only
    rw [hhex, his.chars, decide_eq_false his.nonempty, String.ofList_toList, String.ofList_toList]
    rfl
  | none =>
    cases hsplit : splitRow line with
    | none => rfl
    | some parts =>
      obtain ⟨digest, name⟩ := parts
      dsimp only
      rw [if_pos]
      by_contra hno
      rw [Bool.not_eq_true, Bool.or_eq_false_iff, Bool.or_eq_false_iff, Bool.or_eq_false_iff] at hno
      obtain ⟨⟨⟨hdigest, hne⟩, hname⟩, -⟩ := hno
      have his := isRow_of_splitRow hsplit (by simpa using hdigest) (of_decide_eq_false hne)
        (by simpa using hname)
      rw [← String.toList_ofList (l := digest), ← String.toList_ofList (l := name)] at his
      rw [checksumRow_eq_some_iff.mpr his] at hrow
      cases hrow

/-- **The same rows.** -/
theorem parseRows_eq_ok_iff {message : String} {rows : List (List Char)}
    {parsed result : List (String × String)} :
    parseRows rows parsed = .ok result ↔ parseChecksums isAssetChar message rows parsed = .ok result := by
  induction rows generalizing parsed with
  | nil => rw [parseRows, parseChecksums, Except.ok.injEq, Except.ok.injEq]
  | cons row rows ih =>
    have hchars : isNameChar = isAssetChar := rfl
    rw [parseRows_cons, parseChecksums, hchars]
    cases checksumRow isAssetChar row with
    | none => exact ⟨nofun, nofun⟩
    | some r =>
      dsimp only
      split_ifs
      · exact ⟨nofun, nofun⟩
      · exact ih

end Contract

theorem exists_of_forall₂ {α β : Type} {R : α → β → Prop} {l : List α} {l' : List β}
    (h : List.Forall₂ R l l') {a : α} (ha : a ∈ l) : ∃ b ∈ l', R a b := by
  induction h with
  | nil => exact absurd ha List.not_mem_nil
  | cons hhead _ ih =>
    rcases List.mem_cons.mp ha with rfl | ha
    · exact ⟨_, List.mem_cons_self, hhead⟩
    · obtain ⟨b, hb, hR⟩ := ih ha
      exact ⟨b, List.mem_cons_of_mem _ hb, hR⟩

/-- What is known of rows that have been parsed. -/
theorem parseChecksums_eq_ok {isNameChar : Char → Bool} {message : String} {rows : List (List Char)}
    {parsed result : List (String × String)}
    (h : parseChecksums isNameChar message rows parsed = .ok result)
    (hnodup : (parsed.map Prod.fst).Nodup) :
    (result.map Prod.fst).Nodup ∧ ∃ added, result = parsed ++ added ∧
      List.Forall₂ (fun row r => checksumRow isNameChar row = some r) rows added := by
  induction rows generalizing parsed with
  | nil =>
    cases h
    exact ⟨hnodup, [], (List.append_nil _).symm, .nil⟩
  | cons row rows ih =>
    rw [parseChecksums] at h
    cases hrow : checksumRow isNameChar row with
    | none =>
      rw [hrow] at h
      cases h
    | some r =>
      rw [hrow] at h
      dsimp only at h
      split_ifs at h with hseen
      have hnew : r.1 ∉ parsed.map Prod.fst := by
        intro hmem
        obtain ⟨m, hm, hfst⟩ := List.mem_map.mp hmem
        rw [← hfst, lookup_of_nodup hnodup hm] at hseen
        exact hseen rfl
      have hnodup' : ((parsed ++ [r]).map Prod.fst).Nodup := by
        rw [List.map_append, List.map_singleton, List.nodup_append]
        refine ⟨hnodup, List.nodup_singleton _, fun a ha b hb => ?_⟩
        rw [List.mem_singleton.mp hb]
        exact fun heq => hnew (heq ▸ ha)
      obtain ⟨hresult, added, rfl, hadded⟩ := ih h hnodup'
      exact ⟨hresult, r :: added, by rw [List.append_assoc]; rfl, .cons hrow hadded⟩

/-- The rows in the order in which the runtime goes through them. -/
def sortedRows (parsed : List (String × String)) : List (String × String) :=
  parsed.insertionSort fun row row' => row.1 ≤ row'.1

/-! ### Names -/

/-- An archive is named after its platform. -/
theorem archiveName_getLast? (version target : String) :
    (archiveName version target).toList.getLast? = some 'z' := by
  rw [archiveName, String.toList_append]
  have hlast : ".tar.gz".toList = ".tar.g".toList ++ ['z'] := by decide
  rw [hlast, ← List.append_assoc, List.getLast?_concat]

/-- The names of what is published. -/
def publishedNames (version : String) : List String :=
  targets.map (fun target => archiveName version target.name) ++ ["promotion-plan.json"]

theorem nodup_publishedNames (version : String) : (publishedNames version ++ ["SHA256SUMS"]).Nodup := by
  have harchives : (targets.map fun target => archiveName version target.name).Nodup := by
    have hnames : (targets.map Target.name).Nodup := by decide
    have hinjective : Function.Injective (archiveName version) := by
      intro a b h
      rw [archiveName, archiveName, String.append_left_inj, String.append_right_inj] at h
      exact h
    have := hnames.map hinjective
    rwa [List.map_map] at this
  have hother : ∀ name ∈ targets.map fun target => archiveName version target.name,
      name.toList.getLast? = some 'z' := by
    intro name hname
    obtain ⟨target, -, rfl⟩ := List.mem_map.mp hname
    exact archiveName_getLast? version target.name
  rw [publishedNames, List.append_assoc, List.nodup_append]
  refine ⟨harchives, by decide, fun a ha b hb heq => ?_⟩
  have hlast := hother a ha
  rw [heq] at hlast
  simp only [List.mem_append, List.mem_singleton] at hb
  rcases hb with rfl | rfl <;> exact absurd hlast (by decide)

end Hosted

end Ao2
