import Ao2.Planner.Schema
import Ao2.Selection
import Ao2.Texts.Bytes
import Ao2.Texts.Lines
import Mathlib.Data.List.Destutter
import Mathlib.Data.List.Lex
import Mathlib.Data.List.Sort
import Mathlib.Data.String.Basic

/-!
# The map of a repository

A planner sees of a repository its files by their paths, their kinds, their public names and the
digests of their texts, in which a line ends as on every platform. Links are not followed. The size
above which a file is left out is the size that it has on the disk, line endings included, and a
path is shown with its backslashes turned round, whatever is not UTF-8 replaced.

## Main results

* `mem_scan_iff` — the files of a map are the listed files of the tree
* `scan_withCrlf_iff` — when the map does not depend on the line endings, and is strictly sorted
-/

namespace Ao2

namespace Planner

namespace Surface

/-- What the scanner takes from libraries: letters and digits, and the digests of bytes. -/
class SurfaceLibrary where
  isAlphanumeric : Char → Bool
  /-- SHA-256, in hexadecimal digits. -/
  sha256 : Octets → String

/-! ### Line endings -/

/-- Every line feed with its carriage return dropped. -/
def normalizeCrlf : Octets → Octets
  | 13 :: 10 :: bytes => 10 :: normalizeCrlf bytes
  | b :: bytes => b :: normalizeCrlf bytes
  | [] => []

/-- Every line feed with a carriage return before it. -/
def withCrlf (bytes : Octets) : Octets := bytes.flatMap fun b => if b = 10 then [13, 10] else [b]

theorem normalizeCrlf_cons {b : UInt8} (h : b ≠ 13) (bytes : Octets) :
    normalizeCrlf (b :: bytes) = b :: normalizeCrlf bytes := by
  rw [normalizeCrlf]
  intro bytes' heq
  exact absurd heq h

theorem normalizeCrlf_of_not_mem {bytes : Octets} (h : (13 : UInt8) ∉ bytes) :
    normalizeCrlf bytes = bytes := by
  induction bytes with
  | nil => rfl
  | cons b bytes ih =>
    rw [List.mem_cons, not_or] at h
    rw [normalizeCrlf_cons (Ne.symm h.1), ih h.2]

theorem normalizeCrlf_withCrlf {bytes : Octets} (h : (13 : UInt8) ∉ bytes) :
    normalizeCrlf (withCrlf bytes) = bytes := by
  induction bytes with
  | nil => rfl
  | cons b bytes ih =>
    rw [List.mem_cons, not_or] at h
    rw [withCrlf, List.flatMap_cons]
    by_cases hb : b = 10
    · rw [if_pos hb, List.cons_append, List.cons_append, List.nil_append, normalizeCrlf, hb]
      exact congrArg _ (ih h.2)
    · rw [if_neg hb, List.cons_append, List.nil_append, normalizeCrlf_cons (Ne.symm h.1)]
      exact congrArg _ (ih h.2)

theorem length_le_withCrlf (bytes : Octets) : bytes.length ≤ (withCrlf bytes).length := by
  induction bytes with
  | nil => exact Nat.le_refl 0
  | cons b bytes ih =>
    rw [withCrlf] at ih ⊢
    rw [List.flatMap_cons, List.length_append, List.length_cons]
    split_ifs
    · rw [List.length_cons, List.length_singleton]
      omega
    · rw [List.length_singleton]
      omega

/-! ### Trees -/

inductive Node where
  | file (bytes : Octets)
  | dir (entries : List (Octets × Node))
  /-- A link, a socket, a pipe or a device. -/
  | other

/-- A name that an entry of a directory has. -/
def ValidName (name : Octets) : Prop := name ≠ [] ∧ (0 : UInt8) ∉ name ∧ (47 : UInt8) ∉ name

instance (name : Octets) : Decidable (ValidName name) := inferInstanceAs (Decidable (_ ∧ _))

namespace Node

def isDir : Node → Bool
  | dir _ => true
  | _ => false

/-- What is at a place. -/
def find? : Node → List Octets → Option Node
  | node, [] => some node
  | .dir entries, name :: rest => (entries.lookup name).bind (·.find? rest)
  | _, _ :: _ => none

mutual

/-- The entries of every directory have names of their own. -/
def Named : Node → Prop
  | .dir entries => (entries.map Prod.fst).Nodup ∧ NamedEntries entries
  | _ => True

def NamedEntries : List (Octets × Node) → Prop
  | [] => True
  | (name, node) :: rest => ValidName name ∧ node.Named ∧ NamedEntries rest

end

mutual

/-- What is done to the bytes of every file. -/
def map (f : Octets → Octets) : Node → Node
  | .file bytes => .file (f bytes)
  | .dir entries => .dir (mapEntries f entries)
  | .other => .other

def mapEntries (f : Octets → Octets) : List (Octets × Node) → List (Octets × Node)
  | [] => []
  | (name, node) :: rest => (name, node.map f) :: mapEntries f rest

end

end Node

/-- A directory and all that is below it. -/
structure Tree where
  entries : List (Octets × Node)
  named : (Node.dir entries).Named

/-- There is a file at a place of a tree. -/
def Tree.Holds (t : Tree) (place : List Octets) (bytes : Octets) : Prop :=
  (Node.dir t.entries).find? place = some (.file bytes)

/-! ### Files of the map -/

def maxFileSizeBytes : ℕ := 1024 * 1024

def excludedDirs : List String := ["target", ".git", "node_modules"]

def kindForExtension (ext : String) : Option String :=
  if ext = "rs" then some "rust"
  else if ext = "toml" then some "toml"
  else if ext = "md" then some "markdown"
  else if ext = "json" then some "json"
  else if ext = "yml" ∨ ext = "yaml" then some "yaml"
  else if ext = "js" ∨ ext = "mjs" ∨ ext = "cjs" ∨ ext = "jsx" then some "javascript"
  else if ext = "ts" ∨ ext = "tsx" then some "typescript"
  else if ext = "py" then some "python"
  else if ext = "sh" ∨ ext = "bash" then some "shell"
  else if ext = "html" then some "html"
  else if ext = "css" then some "css"
  else if ext = "txt" then some "text"
  else none

/-- A name as it is shown. -/
def shownName (name : Octets) : String := .ofList (fromUtf8Lossy name)

def isSecretBasename (name : String) : Bool :=
  ".env".toList <+: name.toList || ".pem".toList <:+ name.toList || ".key".toList <:+ name.toList

def underExcludedDir (rel : String) : Bool :=
  (rel.toList.splitOn '/').any fun component => .ofList component ∈ excludedDirs

/-- What follows the last dot of a name, which the name must not begin with. -/
def extension (name : Octets) : Option Octets :=
  let suffix := (name.reverse.takeWhile (· ≠ 46)).reverse
  if suffix.length + 1 < name.length then some suffix else none

/-- The kind of a file by its name. -/
def kindOf (name : Octets) : Option String :=
  kindForExtension ((((extension name).bind decodeUtf8).map String.ofList).getD "")

/-- The text of a path below the root, with its backslashes turned round. -/
def shownPath (place : List Octets) : String :=
  .ofList ((fromUtf8Lossy ([(47 : UInt8)].intercalate place)).map fun c => if c = '\\' then '/' else c)

/-- The last name of a place. -/
def basename (place : List Octets) : Octets := place.getLastD []

/-- A file is in the map: its name is no secret, it is not too large and of a known kind, and no part
of its path is the name of an excluded directory. -/
def IsEntry (place : List Octets) (bytes : Octets) : Prop :=
  isSecretBasename (shownName (basename place)) = false ∧ bytes.length ≤ maxFileSizeBytes ∧
    (kindOf (basename place)).isSome ∧ underExcludedDir (shownPath place) = false

instance (place : List Octets) (bytes : Octets) : Decidable (IsEntry place bytes) :=
  inferInstanceAs (Decidable (_ ∧ _))

section

variable [SurfaceLibrary]

/-- The name that a line declares. -/
def declaredSymbol (line : List Char) : Option String :=
  ["fn", "struct", "enum", "trait"].findSome? fun kw =>
    let start := "pub ".toList ++ kw.toList ++ [' ']
    let trimmed := line.dropWhile isWhitespace
    if start <+: trimmed then
      let name := (trimmed.drop start.length).takeWhile fun c =>
        SurfaceLibrary.isAlphanumeric c || c = '_'
      if name = [] then none else some (.ofList name)
    else none

def extractPublicSymbols (src : List Char) : List String :=
  (((lines src).filterMap declaredSymbol).insertionSort (· ≤ ·)).destutter (· ≠ ·)

/-- A file as it is in the map. -/
def entryOf (place : List Octets) (bytes : Octets) : SurfaceFile :=
  let kind := (kindOf (basename place)).getD ""
  { kind := kind
    path := shownPath place
    publicSymbols :=
      if kind = "rust" then extractPublicSymbols (fromUtf8Lossy (normalizeCrlf bytes)) else []
    sha256 := SurfaceLibrary.sha256 (normalizeCrlf bytes) }

def surfaceFile (place : List Octets) (bytes : Octets) : Option SurfaceFile :=
  if isSecretBasename (shownName (basename place)) then none
  else if maxFileSizeBytes < bytes.length then none
  else
    match kindOf (basename place) with
    | none => none
    | some kind =>
      if underExcludedDir (shownPath place) then none
      else
        some {
          kind := kind
          path := shownPath place
          publicSymbols :=
            if kind = "rust" then extractPublicSymbols (fromUtf8Lossy (normalizeCrlf bytes)) else []
          sha256 := SurfaceLibrary.sha256 (normalizeCrlf bytes) }

end

/-! ### The walk -/

mutual

/-- The files from a place on. An excluded directory is not entered. -/
def walk (place : List Octets) : Node → List (List Octets × Octets)
  | .file bytes => [(place, bytes)]
  | .dir entries => walkEntries place entries
  | .other => []

def walkEntries (place : List Octets) : List (Octets × Node) → List (List Octets × Octets)
  | [] => []
  | (name, node) :: rest =>
    (if node.isDir ∧ shownName name ∈ excludedDirs then [] else walk (place ++ [name]) node) ++
      walkEntries place rest

end

/-- **The map of a tree.** -/
def scan [SurfaceLibrary] (t : Tree) (headSha : String) : SurfaceMap :=
  { files := ((walk [] (.dir t.entries)).filterMap fun f => surfaceFile f.1 f.2).insertionSort
      fun a b => a.path ≤ b.path
    headSha := headSha }

/-! ### What is walked -/

namespace Node

theorem mem_of_lookup {entries : List (Octets × Node)} {name : Octets} {node : Node}
    (h : entries.lookup name = some node) : (name, node) ∈ entries := by
  obtain ⟨before, after, rfl, -⟩ := List.lookup_eq_some_iff.mp h
  exact List.mem_append_right _ List.mem_cons_self

theorem NamedEntries.of_mem {entries : List (Octets × Node)} (h : NamedEntries entries)
    {name : Octets} {node : Node} (hmem : (name, node) ∈ entries) : node.Named := by
  induction entries with
  | nil => exact absurd hmem List.not_mem_nil
  | cons entry entries ih =>
    obtain ⟨-, hnode, hrest⟩ := h
    rcases List.mem_cons.mp hmem with rfl | hmem
    · exact hnode
    · exact ih hrest hmem

end Node

/-- No directory on the way to a place is excluded. -/
def IsEntered (place : List Octets) : Prop := ∀ name ∈ place.dropLast, shownName name ∉ excludedDirs

theorem mem_walkEntries {here : List Octets} {entries : List (Octets × Node)}
    {f : List Octets × Octets} :
    f ∈ walkEntries here entries ↔ ∃ name node, (name, node) ∈ entries ∧
      ¬ (node.isDir ∧ shownName name ∈ excludedDirs) ∧ f ∈ walk (here ++ [name]) node := by
  induction entries with
  | nil =>
    rw [walkEntries]
    exact ⟨fun h => absurd h List.not_mem_nil, fun ⟨_, _, h, _⟩ => absurd h List.not_mem_nil⟩
  | cons entry entries ih =>
    obtain ⟨name, node⟩ := entry
    rw [walkEntries, List.mem_append, ih]
    constructor
    · rintro (h | ⟨name', node', hmem, hwalk⟩)
      · split_ifs at h with hskip
        · exact absurd h List.not_mem_nil
        · exact ⟨name, node, List.mem_cons_self, hskip, h⟩
      · exact ⟨name', node', List.mem_cons_of_mem _ hmem, hwalk⟩
    · rintro ⟨name', node', hmem, hskip, hwalk⟩
      rcases List.mem_cons.mp hmem with heq | hmem
      · cases heq
        rw [if_neg hskip]
        exact .inl hwalk
      · exact .inr ⟨name', node', hmem, hskip, hwalk⟩

/-- **What is walked**: the files with no excluded directory on their way. -/
theorem mem_walk {here : List Octets} {node : Node} (h : node.Named) {f : List Octets × Octets} :
    f ∈ walk here node ↔
      ∃ place, f.1 = here ++ place ∧ IsEntered place ∧ node.find? place = some (.file f.2) := by
  obtain ⟨path, bytes⟩ := f
  constructor
  · intro hmem
    induction hn : sizeOf node using Nat.strongRec generalizing here node with
    | ind n ih =>
      subst hn
      cases node with
      | file bytes' =>
        rw [walk, List.mem_singleton] at hmem
        cases hmem
        exact ⟨[], (List.append_nil _).symm, fun _ h => absurd h List.not_mem_nil, rfl⟩
      | other => exact absurd hmem List.not_mem_nil
      | dir entries =>
        rw [walk, mem_walkEntries] at hmem
        obtain ⟨name, node, hmem, hskip, hwalk⟩ := hmem
        have hsize : sizeOf node < sizeOf (Node.dir entries) := by
          have := List.sizeOf_lt_of_mem hmem
          simp only [Prod.mk.sizeOf_spec, Node.dir.sizeOf_spec] at this ⊢
          omega
        obtain ⟨place, hplace, hentered, hfind⟩ := ih _ hsize (h.2.of_mem hmem) hwalk rfl
        refine ⟨name :: place, by rw [hplace, List.append_assoc]; rfl, ?_, ?_⟩
        · cases place with
          | nil => exact fun _ h => absurd h List.not_mem_nil
          | cons next place =>
            have hdir : node.isDir := by
              cases node with
              | dir _ => rfl
              | _ => cases hfind
            rw [IsEntered, List.dropLast_cons_cons, List.forall_mem_cons]
            exact ⟨fun hname => hskip ⟨hdir, hname⟩, hentered⟩
        · rw [Node.find?, lookup_of_nodup h.1 hmem]
          exact hfind
  · rintro ⟨place, rfl, hentered, hfind⟩
    induction place generalizing here node with
    | nil =>
      obtain rfl : node = .file bytes := Option.some.inj hfind
      rw [List.append_nil]
      exact List.mem_singleton_self _
    | cons name place ih =>
      cases node with
      | dir entries =>
        rw [Node.find?] at hfind
        obtain ⟨child, hchild, hfind⟩ := Option.bind_eq_some_iff.mp hfind
        have hmem := Node.mem_of_lookup hchild
        rw [walk, mem_walkEntries]
        refine ⟨name, child, hmem, ?_, ?_⟩
        · rintro ⟨hdir, hname⟩
          cases place with
          | nil =>
            cases hfind
            cases hdir
          | cons next place =>
            rw [IsEntered, List.dropLast_cons_cons, List.forall_mem_cons] at hentered
            exact hentered.1 hname
        · have hrest : IsEntered place := by
            cases place with
            | nil => exact fun _ h => absurd h List.not_mem_nil
            | cons next place =>
              rw [IsEntered, List.dropLast_cons_cons, List.forall_mem_cons] at hentered
              exact hentered.2
          have hchild := @ih (here ++ [name]) child (h.2.of_mem hmem) hrest hfind
          rwa [List.append_assoc] at hchild
      | _ => cases hfind

mutual

/-- No place is walked twice. -/
theorem nodup_walk (here : List Octets) : (node : Node) → node.Named →
    ((walk here node).map Prod.fst).Nodup
  | .file _, _ => List.nodup_singleton _
  | .dir entries, h => nodup_walkEntries here entries h.1 h.2
  | .other, _ => List.nodup_nil

theorem nodup_walkEntries (here : List Octets) : (entries : List (Octets × Node)) →
    (entries.map Prod.fst).Nodup → Node.NamedEntries entries →
    ((walkEntries here entries).map Prod.fst).Nodup
  | [], _, _ => List.nodup_nil
  | (name, node) :: rest, hnodup, hnamed => by
    rw [List.map_cons, List.nodup_cons] at hnodup
    rw [walkEntries, List.map_append]
    refine (?_ : List.Nodup _).append (nodup_walkEntries here rest hnodup.2 hnamed.2.2) ?_
    · split_ifs
      · exact List.nodup_nil
      · exact nodup_walk _ node hnamed.2.1
    · intro place hfirst hrest
      obtain ⟨f, hf, rfl⟩ := List.mem_map.mp hfirst
      obtain ⟨g, hg, hplace⟩ := List.mem_map.mp hrest
      split_ifs at hf
      · exact absurd hf List.not_mem_nil
      obtain ⟨name', node', hmem, -, hwalk⟩ := mem_walkEntries.mp hg
      obtain ⟨place, hp, -⟩ := (mem_walk hnamed.2.1).mp hf
      obtain ⟨place', hp', -⟩ := (mem_walk (hnamed.2.2.of_mem hmem)).mp hwalk
      rw [hp, hp', List.append_assoc, List.append_assoc, List.append_cancel_left_eq] at hplace
      obtain rfl : name' = name := (List.cons.inj hplace).1
      exact hnodup.1 (List.mem_map.mpr ⟨_, hmem, rfl⟩)

end

/-! ### The line endings of another platform -/

namespace Node

variable {f : Octets → Octets}

theorem isDir_map (node : Node) : (node.map f).isDir = node.isDir := by
  cases node <;> rfl

theorem names_mapEntries (entries : List (Octets × Node)) :
    (mapEntries f entries).map Prod.fst = entries.map Prod.fst := by
  induction entries with
  | nil => rfl
  | cons entry entries ih => rw [mapEntries, List.map_cons, ih, List.map_cons]

mutual

theorem Named.map : (node : Node) → node.Named → (node.map f).Named
  | .file _, _ => trivial
  | .dir entries, h => ⟨(names_mapEntries entries).symm ▸ h.1, NamedEntries.map entries h.2⟩
  | .other, _ => trivial

theorem NamedEntries.map : (entries : List (Octets × Node)) → NamedEntries entries →
    NamedEntries (mapEntries f entries)
  | [], _ => trivial
  | (_, node) :: rest, h => ⟨h.1, Named.map node h.2.1, NamedEntries.map rest h.2.2⟩

end

end Node

mutual

theorem walk_map (f : Octets → Octets) (here : List Octets) : (node : Node) →
    walk here (node.map f) = (walk here node).map fun d => (d.1, f d.2)
  | .file _ => rfl
  | .dir entries => walkEntries_map f here entries
  | .other => rfl

theorem walkEntries_map (f : Octets → Octets) (here : List Octets) :
    (entries : List (Octets × Node)) →
    walkEntries here (Node.mapEntries f entries) = (walkEntries here entries).map fun d => (d.1, f d.2)
  | [] => rfl
  | (name, node) :: rest => by
    rw [Node.mapEntries, walkEntries, walkEntries, List.map_append, walkEntries_map f here rest,
      Node.isDir_map]
    refine congrArg (· ++ _) ?_
    split_ifs
    · rfl
    · exact walk_map f _ node

end

/-- The same tree, with a carriage return before every line feed. -/
def Tree.withCrlf (t : Tree) : Tree :=
  ⟨Node.mapEntries Surface.withCrlf t.entries, Node.Named.map (.dir t.entries) t.named⟩

/-- The lines of every file end with line feeds, and there are no carriage returns. -/
def Tree.IsLf (t : Tree) : Prop := ∀ place bytes, t.Holds place bytes → (13 : UInt8) ∉ bytes

/-- **A file is in the map of the tree.** -/
def IsListed (t : Tree) (place : List Octets) (bytes : Octets) : Prop :=
  t.Holds place bytes ∧ IsEntered place ∧ IsEntry place bytes

/-- **The map is the same on every platform**: the listed files are not too large with their
carriage returns, and no two of them are shown by the same path. -/
structure IsPortable (t : Tree) : Prop where
  fits : ∀ place bytes, IsListed t place bytes →
    (Surface.withCrlf bytes).length ≤ maxFileSizeBytes
  apart : ∀ place bytes place' bytes', IsListed t place bytes → IsListed t place' bytes' →
    shownPath place = shownPath place' → place = place'

/-- What of a tree is listed, in the order of the walk. -/
def listed (t : Tree) : List (List Octets × Octets) :=
  (walk [] (.dir t.entries)).filter fun f => IsEntry f.1 f.2

theorem mem_listed {t : Tree} {f : List Octets × Octets} : f ∈ listed t ↔ IsListed t f.1 f.2 := by
  rw [listed, List.mem_filter, mem_walk t.named, decide_eq_true_eq]
  constructor
  · rintro ⟨⟨place, hplace, hentered, hfind⟩, hentry⟩
    rw [List.nil_append] at hplace
    subst hplace
    exact ⟨hfind, hentered, hentry⟩
  · rintro ⟨hfind, hentered, hentry⟩
    exact ⟨⟨f.1, rfl, hentered, hfind⟩, hentry⟩

/-! ### The files of a map -/

section

variable [SurfaceLibrary]

theorem surfaceFile_eq (place : List Octets) (bytes : Octets) :
    surfaceFile place bytes = if IsEntry place bytes then some (entryOf place bytes) else none := by
  rw [surfaceFile]
  by_cases hsecret : isSecretBasename (shownName (basename place)) = true
  · rw [if_pos hsecret, if_neg]
    exact fun h => Bool.noConfusion (hsecret.symm.trans h.1)
  rw [if_neg hsecret]
  by_cases hsize : maxFileSizeBytes < bytes.length
  · rw [if_pos hsize, if_neg]
    exact fun h => absurd h.2.1 (Nat.not_le_of_lt hsize)
  rw [if_neg hsize]
  cases hkind : kindOf (basename place) with
  | none =>
    rw [if_neg]
    intro h
    rw [IsEntry, hkind] at h
    exact Bool.noConfusion h.2.2.1
  | some kind =>
    dsimp only
    by_cases hunder : underExcludedDir (shownPath place) = true
    · rw [if_pos hunder, if_neg]
      exact fun h => Bool.noConfusion (hunder.symm.trans h.2.2.2)
    · have hentry : IsEntry place bytes := by
        refine ⟨Bool.eq_false_of_not_eq_true hsecret, Nat.le_of_not_lt hsize, ?_,
          Bool.eq_false_of_not_eq_true hunder⟩
        rw [hkind]
        rfl
      rw [if_neg hunder, if_pos hentry, entryOf, hkind]
      rfl

/-- The files of a map before they are sorted. -/
theorem filterMap_surfaceFile (files : List (List Octets × Octets)) :
    (files.filterMap fun f => surfaceFile f.1 f.2) =
      (files.filter fun f => IsEntry f.1 f.2).map fun f => entryOf f.1 f.2 := by
  induction files with
  | nil => rfl
  | cons f files ih =>
    rw [List.filterMap_cons, surfaceFile_eq, List.filter_cons]
    by_cases h : IsEntry f.1 f.2
    · rw [if_pos h, if_pos (decide_eq_true h), List.map_cons, ih]
    · rw [if_neg h, if_neg (by rwa [decide_eq_true_eq]), ih]

theorem files_scan (t : Tree) (headSha : String) : (scan t headSha).files =
    ((listed t).map fun f => entryOf f.1 f.2).insertionSort fun a b => a.path ≤ b.path := by
  rw [scan, filterMap_surfaceFile]
  rfl

/-- **The files of a map are the listed files of the tree.** -/
theorem mem_scan_iff {t : Tree} {headSha : String} {f : SurfaceFile} :
    f ∈ (scan t headSha).files ↔
      ∃ place bytes, IsListed t place bytes ∧ f = entryOf place bytes := by
  rw [files_scan, List.mem_insertionSort, List.mem_map]
  constructor
  · rintro ⟨g, hg, rfl⟩
    exact ⟨g.1, g.2, mem_listed.mp hg, rfl⟩
  · rintro ⟨place, bytes, h, rfl⟩
    exact ⟨(place, bytes), mem_listed.mpr h, rfl⟩

end

/-! ### When the map is the same -/

theorem isEntry_withCrlf {place : List Octets} {bytes : Octets} :
    IsEntry place (withCrlf bytes) ↔
      IsEntry place bytes ∧ (withCrlf bytes).length ≤ maxFileSizeBytes := by
  constructor
  · rintro ⟨hsecret, hsize, hkind, hunder⟩
    exact ⟨⟨hsecret, (length_le_withCrlf bytes).trans hsize, hkind, hunder⟩, hsize⟩
  · rintro ⟨⟨hsecret, -, hkind, hunder⟩, hsize⟩
    exact ⟨hsecret, hsize, hkind, hunder⟩

/-- With carriage returns, what no longer fits is left out. -/
theorem listed_withCrlf (t : Tree) : listed t.withCrlf =
    ((listed t).filter fun f => (withCrlf f.2).length ≤ maxFileSizeBytes).map fun f =>
      (f.1, withCrlf f.2) := by
  have hwalk : walk [] (.dir t.withCrlf.entries) =
      (walk [] (.dir t.entries)).map fun f => (f.1, withCrlf f.2) := walkEntries_map withCrlf [] _
  rw [listed, hwalk, List.filter_map, listed, List.filter_filter]
  refine congrArg _ (List.filter_congr fun f _ => ?_)
  rw [Function.comp_apply, ← Bool.decide_and, decide_eq_decide, isEntry_withCrlf, and_comm]

/-- The listed files are at places of their own. -/
theorem nodup_listed (t : Tree) : ((listed t).map Prod.fst).Nodup :=
  (nodup_walk [] _ t.named).sublist (List.filter_sublist.map Prod.fst)

/-- No two listed files are shown by the same path, and no path is twice in the map. -/
theorem nodup_shownPath_iff {t : Tree} : ((listed t).map fun f => shownPath f.1).Nodup ↔
    ∀ place bytes place' bytes', IsListed t place bytes → IsListed t place' bytes' →
      shownPath place = shownPath place' → place = place' := by
  constructor
  · intro h place bytes place' bytes' hlisted hlisted' heq
    have hpairs := List.inj_on_of_nodup_map h (mem_listed (f := (place, bytes)).mpr hlisted)
      (mem_listed (f := (place', bytes')).mpr hlisted') heq
    exact congrArg Prod.fst hpairs
  · intro h
    refine (nodup_listed t).of_map.map_on fun f hf g hg heq => ?_
    have hplace := h f.1 f.2 g.1 g.2 (mem_listed.mp hf) (mem_listed.mp hg) heq
    exact List.inj_on_of_nodup_map (nodup_listed t) hf hg hplace

section

variable [SurfaceLibrary]

theorem entryOf_withCrlf (place : List Octets) {bytes : Octets} (h : (13 : UInt8) ∉ bytes) :
    entryOf place (withCrlf bytes) = entryOf place bytes := by
  rw [entryOf, entryOf, normalizeCrlf_withCrlf h, normalizeCrlf_of_not_mem h]

theorem entries_withCrlf {t : Tree} (h : t.IsLf) :
    ((listed t.withCrlf).map fun f => entryOf f.1 f.2) =
      ((listed t).filter fun f => (withCrlf f.2).length ≤ maxFileSizeBytes).map fun f =>
        entryOf f.1 f.2 := by
  rw [listed_withCrlf, List.map_map]
  refine List.map_congr_left fun f hf => entryOf_withCrlf f.1 ?_
  exact h f.1 f.2 (mem_listed.mp (List.mem_filter.mp hf).1).1

/-- The maps are the same just when every listed file fits with its carriage returns. -/
theorem scan_withCrlf_eq_iff {t : Tree} (h : t.IsLf) (headSha : String) :
    scan t.withCrlf headSha = scan t headSha ↔
      ∀ place bytes, IsListed t place bytes → (withCrlf bytes).length ≤ maxFileSizeBytes := by
  constructor
  · intro heq place bytes hlisted
    have hfiles := congrArg List.length (congrArg SurfaceMap.files heq)
    rw [files_scan, files_scan, List.length_insertionSort, List.length_insertionSort,
      entries_withCrlf h, List.length_map, List.length_map, List.length_filter_eq_length_iff] at hfiles
    exact of_decide_eq_true (hfiles _ (mem_listed (f := (place, bytes)).mpr hlisted))
  · intro hfits
    have hfilter : ((listed t).filter fun f => (withCrlf f.2).length ≤ maxFileSizeBytes) = listed t :=
      List.filter_eq_self.mpr fun f hf => decide_eq_true (hfits f.1 f.2 (mem_listed.mp hf))
    have hfiles : (scan t.withCrlf headSha).files = (scan t headSha).files := by
      rw [files_scan, files_scan, entries_withCrlf h, hfilter]
    exact congrArg (SurfaceMap.mk · headSha) hfiles

/-- The paths of a map rise just when no two listed files are shown by the same path. -/
theorem pairwise_path_iff (t : Tree) (headSha : String) :
    ((scan t headSha).files.map SurfaceFile.path).Pairwise (· < ·) ↔
      ((listed t).map fun f => shownPath f.1).Nodup := by
  have hperm : ((scan t headSha).files.map SurfaceFile.path).Perm
      ((listed t).map fun f => shownPath f.1) := by
    rw [files_scan]
    refine ((List.perm_insertionSort _ _).map _).trans ?_
    rw [List.map_map]
    rfl
  have hsorted : ((scan t headSha).files.map SurfaceFile.path).Pairwise (· ≤ ·) := by
    rw [files_scan, List.pairwise_map]
    exact List.pairwise_insertionSort _ _
  constructor
  · intro h
    exact hperm.nodup_iff.mp (h.imp fun hlt => ne_of_lt hlt)
  · intro h
    exact hsorted.imp₂ (fun _ _ hle hne => lt_of_le_of_ne hle hne) (hperm.nodup_iff.mpr h)

/-- **When the map does not depend on the platform**: with every line ended as on another platform
the map is the same, and its paths rise, just when no listed file grows above the limit by its
carriage returns and no two listed files are shown by the same path. What is listed is in no
excluded directory, and its name is no secret, in any case. -/
theorem scan_withCrlf_iff (t : Tree) (h : t.IsLf) (headSha : String) :
    (scan t.withCrlf headSha = scan t headSha ∧
        ((scan t headSha).files.map SurfaceFile.path).Pairwise (· < ·) ∧
        ∀ f ∈ (scan t headSha).files, ∃ place bytes, t.Holds place bytes ∧ f = entryOf place bytes ∧
          (∀ name ∈ place.dropLast, shownName name ∉ excludedDirs) ∧
          underExcludedDir f.path = false ∧
          isSecretBasename (shownName (basename place)) = false) ↔
      IsPortable t := by
  rw [scan_withCrlf_eq_iff h, pairwise_path_iff, nodup_shownPath_iff]
  constructor
  · rintro ⟨hfits, hapart, -⟩
    exact ⟨hfits, hapart⟩
  · rintro ⟨hfits, hapart⟩
    refine ⟨hfits, hapart, fun f hf => ?_⟩
    obtain ⟨place, bytes, ⟨hholds, hentered, hentry⟩, rfl⟩ := mem_scan_iff.mp hf
    exact ⟨place, bytes, hholds, rfl, hentered, hentry.2.2.2, hentry.1⟩

end

/-! ### Trees of one file -/

/-- A directory with one file. -/
def oneFile (name bytes : Octets) (h : ValidName name) : Tree :=
  ⟨[(name, .file bytes)], List.nodup_singleton name, h, trivial, trivial⟩

theorem holds_oneFile {name bytes : Octets} (h : ValidName name) {place : List Octets}
    {content : Octets} : (oneFile name bytes h).Holds place content ↔ place = [name] ∧ content = bytes := by
  rw [Tree.Holds]
  cases place with
  | nil => exact ⟨fun hfind => (by cases hfind), fun hplace => (by cases hplace.1)⟩
  | cons first rest =>
    rw [Node.find?, oneFile, List.lookup_cons]
    by_cases hfirst : first = name
    · subst hfirst
      rw [beq_self_eq_true]
      cases rest with
      | nil =>
        exact ⟨fun hfind => ⟨rfl, (Node.file.inj (Option.some.inj hfind)).symm⟩, fun hplace => by
          rw [hplace.2]; rfl⟩
      | cons second rest =>
        exact ⟨fun hfind => (by cases hfind), fun hplace => (by cases hplace.1)⟩
    · rw [beq_false_of_ne hfirst]
      exact ⟨fun hfind => (by cases hfind), fun hplace => absurd (List.cons.inj hplace.1).1 hfirst⟩

theorem withCrlf_oneFile {name bytes : Octets} (h : ValidName name) :
    (oneFile name bytes h).withCrlf = oneFile name (withCrlf bytes) h := rfl

theorem listed_oneFile {name bytes : Octets} (h : ValidName name) :
    listed (oneFile name bytes h) = if IsEntry [name] bytes then [([name], bytes)] else [] := by
  rw [listed]
  change List.filter _ [([name], bytes)] = _
  rw [List.filter_cons]
  by_cases hentry : IsEntry [name] bytes
  · rw [if_pos hentry, if_pos (decide_eq_true hentry), List.filter_nil]
  · rw [if_neg hentry, if_neg (by rwa [decide_eq_true_eq]), List.filter_nil]

theorem isLf_oneFile {name bytes : Octets} (h : ValidName name) (hbytes : (13 : UInt8) ∉ bytes) :
    (oneFile name bytes h).IsLf := fun _ _ hholds => ((holds_oneFile h).mp hholds).2 ▸ hbytes

/-- The text of a file with one public function. -/
def runText : Octets := asciiBytes "pub fn run() \x7b\x7d\n".toList

/-- A text as large as a file may be. -/
def fullText : Octets := List.replicate (maxFileSizeBytes - 1) 97 ++ [10]

/-- ASCII letters and digits, and the digests of two texts. -/
@[reducible] def twoDigests : SurfaceLibrary where
  isAlphanumeric := Char.isAlphanum
  sha256 bytes :=
    if bytes = runText then "e768a5a9fc60f28420c16e273f146bab45c8dbd1abe6523b878250e20e71e5fc"
    else "00f189ef81b80ebf2c8d3fb52090864152409ba8ecbe6b06dcacece9ad9dde73"

def runTree : Tree := oneFile (asciiBytes "run.rs".toList) runText (by decide)

def fullTree : Tree := oneFile (asciiBytes "full.txt".toList) fullText (by decide)

attribute [local instance] twoDigests

theorem scan_withCrlf_iff_run : scan runTree.withCrlf "" = scan runTree "" ∧
    (scan runTree "").files.map SurfaceFile.publicSymbols = [["run"]] := by
  have hportable : IsPortable runTree := by
    constructor
    · intro place bytes h
      rw [((holds_oneFile _).mp h.1).2]
      decide
    · intro place bytes place' bytes' h h' _
      rw [((holds_oneFile _).mp h.1).1, ((holds_oneFile _).mp h'.1).1]
  refine ⟨((scan_withCrlf_iff runTree (isLf_oneFile _ (by decide)) "").mpr hportable).1, ?_⟩
  decide

theorem length_withCrlf_fullText : maxFileSizeBytes < (withCrlf fullText).length := by
  have hreplicate (n : ℕ) : withCrlf (List.replicate n 97) = List.replicate n 97 := by
    induction n with
    | zero => rfl
    | succ n ih =>
      rw [List.replicate_succ, withCrlf, List.flatMap_cons]
      exact congrArg (97 :: ·) ih
  have hfull : withCrlf fullText = List.replicate (maxFileSizeBytes - 1) 97 ++ [13, 10] := by
    rw [fullText, withCrlf, List.flatMap_append]
    exact congrArg (· ++ _) (hreplicate _)
  rw [hfull, List.length_append, List.length_replicate]
  decide

/-- A file as large as a file may be is in the map, and with carriage returns it is not. -/
theorem not_scan_withCrlf_full : fullTree.IsLf ∧ scan fullTree.withCrlf "" ≠ scan fullTree "" := by
  have hplain : (13 : UInt8) ∉ fullText := by
    intro h
    rcases List.mem_append.mp h with h | h
    · exact absurd (List.eq_of_mem_replicate h) (by decide)
    · exact absurd (List.mem_singleton.mp h) (by decide)
  have hentry : IsEntry [asciiBytes "full.txt".toList] fullText := by
    refine ⟨by decide, ?_, by decide, by decide⟩
    rw [fullText, List.length_append, List.length_replicate]
    decide
  have hlarge : ¬ IsEntry [asciiBytes "full.txt".toList] (withCrlf fullText) := fun h =>
    absurd h.2.1 (Nat.not_le_of_lt length_withCrlf_fullText)
  refine ⟨isLf_oneFile _ hplain, fun heq => ?_⟩
  have hfiles := congrArg List.length (congrArg SurfaceMap.files heq)
  rw [files_scan, files_scan, List.length_insertionSort, List.length_insertionSort, List.length_map,
    List.length_map, fullTree, withCrlf_oneFile, listed_oneFile, listed_oneFile, if_neg hlarge,
    if_pos hentry] at hfiles
  cases hfiles

end Surface

end Planner

end Ao2
