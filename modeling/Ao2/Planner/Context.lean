import Ao2.Planner.Schema
import Ao2.Selection
import Ao2.Texts
import Mathlib.Data.Finset.Card
import Mathlib.Data.List.Perm.Basic
import Mathlib.Data.String.Basic

/-!
# The context of a draft

The map of a repository is trimmed until its text has no more tokens than the budget. Some files
stay in any case; of the others as many are taken as fit, those first whose words are the words of
the prompt. How many fit is searched for by halving. The tests have a second trimming that adds the
files one by one.

## Main results

* `shrink_eq` — the trimmed map is a choice of ranked files
-/

namespace Ao2

namespace Planner

/-- Letters, tokens and the numbers that scores are. Two counts have a quotient among them. -/
class ContextLibrary where
  isAlphanumeric : Char → Bool
  countTokens : String → ℕ
  Score : Type
  [order : LinearOrder Score]
  zero : Score
  quotient : ℕ → ℕ → Score

export ContextLibrary (isAlphanumeric countTokens Score)

attribute [reducible, instance] ContextLibrary.order

/-! ### Words and scores -/

def forcedBasenames : List String := ["Cargo.toml", "package.json", "README.md"]

/-- What follows the last slash. -/
def basename (path : String) : String := .ofList ((path.toList.splitOn '/').getLastD [])

def isForced (path : String) : Bool := basename path ∈ forcedBasenames

section

variable [ContextLibrary]

def wordTokens (s : String) : Finset String :=
  (((s.toList.splitOnP fun c => !isAlphanumeric c).filter (· ≠ [])).map fun t =>
    String.ofList (t.map Char.toLower)).toFinset

def fileTokens (f : SurfaceFile) : Finset String :=
  wordTokens f.path ∪ (f.publicSymbols.map String.toLower).toFinset

def jaccard (a b : Finset String) : Score :=
  if a = ∅ ∧ b = ∅ then ContextLibrary.zero
  else
    let intersection := (a ∩ b).card
    let union := a.card + b.card - intersection
    if union = 0 then ContextLibrary.zero else ContextLibrary.quotient intersection union

/-! ### Trimming -/

/-- The order of the ranking: by scores that fall, and by paths where they are the same. -/
def Precedes (a b : Score × SurfaceFile) : Prop := b.1 < a.1 ∨ b.1 = a.1 ∧ a.2.path ≤ b.2.path

instance decidablePrecedes : DecidableRel Precedes := fun a b =>
  inferInstanceAs (Decidable (b.1 < a.1 ∨ b.1 = a.1 ∧ a.2.path ≤ b.2.path))

/-- A file that was taken in any case, or has a rank. -/
structure PathCandidate where
  file : SurfaceFile
  rank : Option ℕ

/-- The files with their scores, in the order of the ranking. -/
def rank (files : List SurfaceFile) (promptTokens : Finset String) : List (Score × SurfaceFile) :=
  (files.map fun f => (jaccard promptTokens (fileTokens f), f)).insertionSort Precedes

/-- All files, in the order of their paths. -/
def pathOrdered (forced : List SurfaceFile) (scored : List (Score × SurfaceFile)) :
    List PathCandidate :=
  (forced.map (PathCandidate.mk · none) ++
    scored.zipIdx.map fun s => PathCandidate.mk s.1.2 (some s.2)).insertionSort
      fun a b => a.file.path ≤ b.file.path

def candidateForPrefix (candidates : List PathCandidate) (headSha : String) (prefixLen : ℕ) :
    SurfaceMap where
  files :=
    (candidates.filter fun candidate => candidate.rank.all (· < prefixLen)).map PathCandidate.file
  headSha := headSha

def candidateTokenCount (candidate : SurfaceMap) : ℕ := countTokens candidate.toJson.compact

def shrink (map : SurfaceMap) (prompt : String) (budget : ℕ) : SurfaceMap :=
  let promptTokens := wordTokens prompt
  let forced := map.files.filter (isForced ·.path)
  let scored := rank (map.files.filter (!isForced ·.path)) promptTokens
  let candidate := candidateForPrefix (pathOrdered forced scored) map.headSha
  if budget < candidateTokenCount (candidate 0) then candidate 0
  else candidate (lastFitting (fun k => candidateTokenCount (candidate k) ≤ budget) 0 scored.length)

def referenceSortedByPath (files : List SurfaceFile) : List SurfaceFile :=
  files.insertionSort fun a b => a.path ≤ b.path

/-- The map with these files, in the order of their paths. -/
def sortedMap (headSha : String) (chosen : List SurfaceFile) : SurfaceMap :=
  ⟨referenceSortedByPath chosen, headSha⟩

def referenceShrink (map : SurfaceMap) (prompt : String) (budget : ℕ) : SurfaceMap :=
  let promptTokens := wordTokens prompt
  let forced := map.files.filter (isForced ·.path)
  let scored := rank (map.files.filter (!isForced ·.path)) promptTokens
  sortedMap map.headSha
    (addWhile (fun chosen => candidateTokenCount (sortedMap map.headSha chosen) ≤ budget) forced
      (scored.map Prod.snd))

/-! ### Choices -/

def forcedFiles (map : SurfaceMap) : List SurfaceFile := map.files.filter (isForced ·.path)

def ranking (map : SurfaceMap) (prompt : String) : List SurfaceFile :=
  (rank (map.files.filter (!isForced ·.path)) (wordTokens prompt)).map Prod.snd

/-- The map with the files that are taken in any case and so many of the ranking. -/
def rankPrefix (map : SurfaceMap) (prompt : String) (k : ℕ) : SurfaceMap :=
  sortedMap map.headSha (forcedFiles map ++ (ranking map prompt).take k)

instance totalPrecedes : Std.Total Precedes where
  total a b := by
    rcases lt_trichotomy a.1 b.1 with hlt | heq | hlt
    · exact .inr (.inl hlt)
    · rcases le_total a.2.path b.2.path with hle | hle
      · exact .inl (.inr ⟨heq.symm, hle⟩)
      · exact .inr (.inr ⟨heq, hle⟩)
    · exact .inl (.inl hlt)

instance transPrecedes : IsTrans (Score × SurfaceFile) Precedes where
  trans a b c := by
    rintro (hlt | ⟨heq, hle⟩) (hlt' | ⟨heq', hle'⟩)
    · exact .inl (hlt'.trans hlt)
    · exact .inl (heq'.trans_lt hlt)
    · exact .inl (hlt'.trans_eq heq)
    · exact .inr ⟨heq'.trans heq, hle.trans hle'⟩

/-! ### What is trimmed is a choice -/

/-- The files of a prefix of the ranking, with those that are taken in any case. -/
theorem candidateForPrefix_eq (forced : List SurfaceFile) (scored : List (Score × SurfaceFile))
    (headSha : String) (k : ℕ) : candidateForPrefix (pathOrdered forced scored) headSha k =
      sortedMap headSha (forced ++ (scored.map Prod.snd).take k) := by
  have hforced : (forced.map (PathCandidate.mk · none)).filter (·.rank.all (· < k)) =
      forced.map (PathCandidate.mk · none) := by
    refine List.filter_eq_self.mpr fun c hc => ?_
    obtain ⟨f, -, rfl⟩ := List.mem_map.mp hc
    rfl
  have hscored : ((scored.zipIdx.map fun s => PathCandidate.mk s.1.2 (some s.2)).filter
      (·.rank.all (· < k))).map PathCandidate.file = (scored.map Prod.snd).take k := by
    have hpre := filter_zipIdx scored 0 k
    rw [Nat.zero_add] at hpre
    rw [List.filter_map, List.map_map]
    change (scored.zipIdx.filter fun s => s.2 < k).map (Prod.snd ∘ Prod.fst) = _
    rw [hpre, ← List.map_map, List.zipIdx_map_fst, List.map_take]
  have hmap : (forced.map (PathCandidate.mk · none)).map PathCandidate.file = forced := by
    rw [List.map_map]
    exact List.map_id _
  rw [candidateForPrefix, pathOrdered, filter_insertionSort, List.filter_append, hforced,
    List.map_insertionSort _ (fun a b : SurfaceFile => a.path ≤ b.path) _ _ fun _ _ _ _ => Iff.rfl,
    List.map_append, hscored, hmap]
  rfl

theorem candidateForPrefix_rank (map : SurfaceMap) (prompt : String) (k : ℕ) :
    candidateForPrefix (pathOrdered (map.files.filter (isForced ·.path))
      (rank (map.files.filter (!isForced ·.path)) (wordTokens prompt))) map.headSha k =
        rankPrefix map prompt k :=
  candidateForPrefix_eq _ _ _ k

theorem length_ranking (map : SurfaceMap) (prompt : String) :
    (rank (map.files.filter (!isForced ·.path)) (wordTokens prompt)).length =
      (ranking map prompt).length :=
  (List.length_map _).symm

/-- How many files of the ranking are taken. -/
def taken (map : SurfaceMap) (prompt : String) (budget : ℕ) : ℕ :=
  if candidateTokenCount (rankPrefix map prompt 0) ≤ budget then
    lastFitting (fun k => candidateTokenCount (rankPrefix map prompt k) ≤ budget) 0
      (ranking map prompt).length
  else 0

/-- **The trimmed map** is a choice of files of the ranking. -/
theorem shrink_eq (map : SurfaceMap) (prompt : String) (budget : ℕ) :
    shrink map prompt budget = rankPrefix map prompt (taken map prompt budget) := by
  simp only [shrink, candidateForPrefix_rank, length_ranking, taken]
  by_cases hfits : candidateTokenCount (rankPrefix map prompt 0) ≤ budget
  · rw [if_neg (Nat.not_lt.mpr hfits), if_pos hfits]
  · rw [if_pos (Nat.not_le.mp hfits), if_neg hfits]

/-- The count of the tokens does not fall along the ranking. -/
def Rising (map : SurfaceMap) (prompt : String) : Prop :=
  ∀ k < (ranking map prompt).length,
    candidateTokenCount (rankPrefix map prompt k) ≤
      candidateTokenCount (rankPrefix map prompt (k + 1))

theorem count_le_of_le {map : SurfaceMap} {prompt : String} (hcount : Rising map prompt) {j k : ℕ}
    (hjk : j ≤ k) (hk : k ≤ (ranking map prompt).length) :
    candidateTokenCount (rankPrefix map prompt j) ≤
      candidateTokenCount (rankPrefix map prompt k) := by
  induction k, hjk using Nat.le_induction with
  | base => exact le_rfl
  | succ k _ ih => exact (ih (Nat.le_of_succ_le hk)).trans (hcount k hk)

/-- **Halving agrees with adding one by one**, if the count of the tokens does not fall along the
ranking. -/
theorem shrink_eq_referenceShrink {map : SurfaceMap} {prompt : String} (hcount : Rising map prompt)
    (budget : ℕ) : shrink map prompt budget = referenceShrink map prompt budget := by
  have hmono : ∀ j k, j ≤ k → k ≤ (ranking map prompt).length →
      candidateTokenCount (rankPrefix map prompt k) ≤ budget →
        candidateTokenCount (rankPrefix map prompt j) ≤ budget :=
    fun j k hjk hk => (count_le_of_le hcount hjk hk).trans
  have hall := @addWhile_eq_lastFitting _
    (fun chosen => candidateTokenCount (sortedMap map.headSha chosen) ≤ budget) _ (forcedFiles map)
    (ranking map prompt) hmono
  rw [shrink_eq]
  change _ = sortedMap map.headSha (addWhile
    (fun chosen => candidateTokenCount (sortedMap map.headSha chosen) ≤ budget) (forcedFiles map)
      (ranking map prompt))
  rw [hall, rankPrefix, taken, rankPrefix, List.take_zero, List.append_nil]
  rfl

/-! ### Permuted files -/

omit [ContextLibrary] in
theorem eq_of_path {files : List SurfaceFile} (h : (files.map SurfaceFile.path).Nodup) :
    ∀ a ∈ files, ∀ b ∈ files, a.path = b.path → a = b :=
  fun _ ha _ hb => List.inj_on_of_nodup_map h ha hb

/-- The ranking does not depend on the order of the files. -/
theorem rank_of_perm {files files' : List SurfaceFile} (h : files'.Perm files)
    (hnodup : (files.map SurfaceFile.path).Nodup) (promptTokens : Finset String) :
    rank files' promptTokens = rank files promptTokens := by
  refine (insertionSort_eq_of_perm (h.map _).symm ?_).symm
  rintro a ha b hb hab hba
  obtain ⟨f, hf, rfl⟩ := List.mem_map.mp ha
  obtain ⟨g, hg, rfl⟩ := List.mem_map.mp hb
  -- neither score is above the other, so that the paths decide
  have hpath : f.path = g.path := by
    rcases hab with hlt | ⟨heq, hle⟩
    · rcases hba with hlt' | ⟨heq', -⟩
      · exact absurd hlt hlt'.asymm
      · exact absurd heq' hlt.ne'
    · rcases hba with hlt' | ⟨-, hle'⟩
      · exact absurd heq hlt'.ne'
      · exact le_antisymm hle hle'
  rw [eq_of_path hnodup f hf g hg hpath]

theorem mem_ranking {map : SurfaceMap} {prompt : String} {f : SurfaceFile}
    (h : f ∈ ranking map prompt) :
    f ∈ map.files := by
  obtain ⟨s, hs, rfl⟩ := List.mem_map.mp h
  obtain ⟨f, hf, rfl⟩ := List.mem_map.mp ((List.mem_insertionSort Precedes).mp hs)
  exact List.mem_of_mem_filter hf

variable {map map' : SurfaceMap}

theorem ranking_of_perm (h : map'.files.Perm map.files)
    (hnodup : (map.files.map SurfaceFile.path).Nodup)
    (prompt : String) : ranking map' prompt = ranking map prompt := by
  have hfilter : ((map.files.filter (!isForced ·.path)).map SurfaceFile.path).Nodup :=
    hnodup.sublist (List.filter_sublist.map _)
  rw [ranking, ranking, rank_of_perm (h.filter _) hfilter]

/-- A choice does not depend on the order of the files. -/
theorem rankPrefix_of_perm (h : map'.files.Perm map.files) (hsha : map'.headSha = map.headSha)
    (hnodup : (map.files.map SurfaceFile.path).Nodup) (prompt : String) (k : ℕ) :
    rankPrefix map' prompt k = rankPrefix map prompt k := by
  have hchosen : (forcedFiles map' ++ (ranking map prompt).take k).Perm
      (forcedFiles map ++ (ranking map prompt).take k) := (h.filter _).append_right _
  have hmem : ∀ f ∈ forcedFiles map ++ (ranking map prompt).take k, f ∈ map.files := fun f hf => by
    rcases List.mem_append.mp hf with hf | hf
    · exact List.mem_of_mem_filter hf
    · exact mem_ranking (List.mem_of_mem_take hf)
  have hsort :=
    insertionSort_eq_of_perm (r := fun a b : SurfaceFile => a.path ≤ b.path) hchosen.symm
    fun a ha b hb hab hba => eq_of_path hnodup a (hmem a ha) b (hmem b hb) (le_antisymm hab hba)
  rw [rankPrefix, rankPrefix, ranking_of_perm h hnodup, hsha, sortedMap, sortedMap,
    referenceSortedByPath, referenceSortedByPath, hsort]

theorem shrink_of_perm (h : map'.files.Perm map.files) (hsha : map'.headSha = map.headSha)
    (hnodup : (map.files.map SurfaceFile.path).Nodup) (prompt : String) (budget : ℕ) :
    shrink map' prompt budget = shrink map prompt budget := by
  rw [shrink_eq, shrink_eq, taken, taken, ranking_of_perm h hnodup]
  simp only [rankPrefix_of_perm h hsha hnodup]

/-! ### Trimming -/

theorem taken_spec (map : SurfaceMap) (prompt : String) (budget : ℕ) :
    taken map prompt budget ≤ (ranking map prompt).length ∧
      (candidateTokenCount (rankPrefix map prompt 0) ≤ budget →
        candidateTokenCount (rankPrefix map prompt (taken map prompt budget)) ≤ budget) := by
  by_cases hfits : candidateTokenCount (rankPrefix map prompt 0) ≤ budget
  · have hfound := @lastFitting_spec
      (fun k => candidateTokenCount (rankPrefix map prompt k) ≤ budget) _
      (ranking map prompt).length 0 _ (Nat.zero_le _) hfits le_rfl (.inl rfl)
    rw [taken, if_pos hfits]
    exact ⟨hfound.1, fun _ => hfound.2.1⟩
  · rw [taken, if_neg hfits]
    exact ⟨Nat.zero_le _, id⟩

/-- **Trimming.** The search finds what adding files one by one chooses, if the count of the tokens
does not fall along the ranking. However tokens are counted, the files that are left are those that
stay in any case and the first ones of the ranking, in the order of their paths; they fit if the
files that stay in any case do; and they do not depend on the order of the files, if no two of these
have the same path. -/
theorem shrink_spec (map : SurfaceMap) (prompt : String) (budget : ℕ) :
    (Rising map prompt → shrink map prompt budget = referenceShrink map prompt budget) ∧
    (∃ k ≤ (ranking map prompt).length, (shrink map prompt budget).files.Perm
      (forcedFiles map ++ (ranking map prompt).take k)) ∧
    (shrink map prompt budget).files.Pairwise (fun a b => a.path ≤ b.path) ∧
    (candidateTokenCount (sortedMap map.headSha (forcedFiles map)) ≤ budget →
      candidateTokenCount (shrink map prompt budget) ≤ budget) ∧
    ∀ map' : SurfaceMap, map'.files.Perm map.files → map'.headSha = map.headSha →
      (map.files.map SurfaceFile.path).Nodup →
        shrink map' prompt budget = shrink map prompt budget := by
  obtain ⟨hle, hfits⟩ := taken_spec map prompt budget
  have hnone : rankPrefix map prompt 0 = sortedMap map.headSha (forcedFiles map) := by
    rw [rankPrefix, List.take_zero, List.append_nil]
  refine ⟨fun hcount => shrink_eq_referenceShrink hcount budget, ⟨_, hle, ?_⟩, ?_, ?_,
    fun map' h hsha hnodup => shrink_of_perm h hsha hnodup prompt budget⟩
  · rw [shrink_eq]
    exact List.perm_insertionSort _ _
  · rw [shrink_eq]
    exact List.pairwise_insertionSort _ _
  · rw [shrink_eq, ← hnone]
    exact hfits

end

end Planner

end Ao2
