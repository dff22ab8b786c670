import Ao2.Files.Tree
import Mathlib.Algebra.Ring.Nat

/-!
# Trees with symbolic links

A link has the text of a path, which the operating system follows from where the link is. It goes
through so many links and no more, so that links which lead in a circle lead nowhere, and it takes
paths up to some length.

## Main results

* `resolve_append` — a path goes on below the place it leads to
-/

namespace Ao2

namespace Files

/-! ### Names -/

/-- A name that an entry of a directory has. -/
def ValidName (name : String) : Prop := name ≠ "" ∧ name ≠ "." ∧ name ≠ ".." ∧ '/' ∉ name.toList

instance (name : String) : Decidable (ValidName name) := inferInstanceAs (Decidable (_ ∧ _))

/-- The names in a path, with its dots; a slash at the end asks for a directory as a dot does. -/
def linkNames (path : String) : List String :=
  pathParts path ++ if path.toList.getLast? = some '/' then ["."] else []

/-! ### Trees -/

variable {α : Type}

inductive LinkedNode (α : Type) where
  | file (content : α)
  | dir (entries : List (String × LinkedNode α))
  | link (target : String)
  /-- A socket, a pipe or a device. -/
  | other

namespace LinkedNode

/-- What is at a place, when no links are followed. -/
def find? : LinkedNode α → Place → Option (LinkedNode α)
  | node, [] => some node
  | .dir entries, name :: rest => (entries.lookup name).bind (·.find? rest)
  | _, _ :: _ => none

mutual

/-- The entries of every directory have names of their own. -/
def Named : LinkedNode α → Prop
  | .dir entries => (entries.map Prod.fst).Nodup ∧ NamedEntries entries
  | _ => True

def NamedEntries : List (String × LinkedNode α) → Prop
  | [] => True
  | (name, node) :: rest => ValidName name ∧ node.Named ∧ NamedEntries rest

end

theorem NamedEntries.of_mem {entries : List (String × LinkedNode α)} (h : NamedEntries entries)
    {name : String} {node : LinkedNode α} (hmem : (name, node) ∈ entries) :
    ValidName name ∧ node.Named := by
  induction entries with
  | nil => exact absurd hmem List.not_mem_nil
  | cons entry entries ih =>
    obtain ⟨hname, hnode, hrest⟩ := h
    rcases List.mem_cons.mp hmem with rfl | hmem
    · exact ⟨hname, hnode⟩
    · exact ih hrest hmem

theorem find?_append (node : LinkedNode α) (p q : Place) :
    node.find? (p ++ q) = (node.find? p).bind (·.find? q) := by
  induction p generalizing node with
  | nil => rw [List.nil_append, find?, Option.bind_some]
  | cons name p ih =>
    rw [List.cons_append]
    cases node with
    | dir entries =>
      rw [find?, find?, Option.bind_assoc]
      exact congrArg _ (funext fun child => ih child)
    | _ => rfl

theorem find?_concat (node : LinkedNode α) (p : Place) (name : String) :
    node.find? (p ++ [name]) = (node.find? p).bind (·.find? [name]) := node.find?_append p [name]

theorem find?_dir_singleton (entries : List (String × LinkedNode α)) (name : String) :
    (LinkedNode.dir entries).find? [name] = entries.lookup name := by
  rw [find?]
  cases entries.lookup name <;> rfl

theorem mem_of_lookup {entries : List (String × LinkedNode α)} {name : String} {node : LinkedNode α}
    (h : entries.lookup name = some node) : (name, node) ∈ entries := by
  induction entries with
  | nil => cases h
  | cons entry entries ih =>
    rw [List.lookup_cons] at h
    split at h
    case h_1 heq =>
      cases h
      rw [eq_of_beq heq]
      exact List.mem_cons_self
    case h_2 => exact List.mem_cons_of_mem _ (ih h)

/-- What is in a tree with names is one. -/
theorem Named.find? {node found : LinkedNode α} (h : node.Named) {p : Place}
    (hfound : node.find? p = some found) : found.Named := by
  induction p generalizing node with
  | nil =>
    cases hfound
    exact h
  | cons name p ih =>
    cases node with
    | dir entries =>
      rw [LinkedNode.find?] at hfound
      obtain ⟨child, hchild, hfound⟩ := Option.bind_eq_some_iff.mp hfound
      exact ih (h.2.of_mem (mem_of_lookup hchild)).2 hfound
    | _ => cases hfound

/-- The names on the way to a place are names. -/
theorem Named.validNames {node : LinkedNode α} (h : node.Named) {p : Place}
    (hfound : node.find? p ≠ none) : ∀ name ∈ p, ValidName name := by
  induction p generalizing node with
  | nil => exact fun _ hname => absurd hname List.not_mem_nil
  | cons name p ih =>
    cases node with
    | dir entries =>
      obtain ⟨found, hfound⟩ := Option.ne_none_iff_exists'.mp hfound
      rw [LinkedNode.find?] at hfound
      obtain ⟨child, hchild, hfound⟩ := Option.bind_eq_some_iff.mp hfound
      obtain ⟨hname, hnode⟩ := h.2.of_mem (mem_of_lookup hchild)
      exact List.forall_mem_cons.mpr ⟨hname, ih hnode (by rw [hfound]; exact Option.some_ne_none _)⟩
    | _ => exact absurd rfl hfound

end LinkedNode

/-- A file system: its root, and what it takes. -/
structure LinkedTree (α : Type) where
  node : LinkedNode α
  named : node.Named
  /-- The links that are followed on the way to a place. -/
  maxLinks : ℕ
  /-- The length of a path. -/
  maxPath : ℕ

namespace LinkedTree

/-- Follow some names, and what they meet by `again` if it is a link. -/
def resolveNames (node : LinkedNode α) (again : Place → List String → Option Place) :
    (here : Place) → List String → Option Place
  | here, [] => some here
  | here, name :: rest =>
    if name = "." then resolveNames node again here rest
    else if name = ".." then resolveNames node again here.dropLast rest
    else
      match node.find? (here ++ [name]) with
      | some (.dir _) => resolveNames node again (here ++ [name]) rest
      | some (.link target) =>
        if target = "" then none else again (startOf here target) (linkNames target ++ rest)
      | some _ => if rest = [] then some (here ++ [name]) else none
      | none => none

/-- Where some names lead, through so many links. -/
def resolveFrom (node : LinkedNode α) : (links : ℕ) → Place → List String → Option Place
  | 0 => resolveNames node fun _ _ => none
  | links + 1 => resolveNames node (resolveFrom node links)

/-- The length of the text of a path: of its names, each with a slash before it. -/
def pathSize (p : Place) : ℕ := (p.map fun name => name.utf8ByteSize + 1).sum

theorem length_le_pathSize (p : Place) : p.length ≤ pathSize p := by
  induction p with
  | nil => exact Nat.le_refl 0
  | cons name p ih =>
    rw [pathSize, List.map_cons, List.sum_cons, List.length_cons]
    rw [pathSize] at ih
    omega

variable (fs : LinkedTree α)

/-- **Where a path leads.** -/
def resolve (p : Place) : Option Place :=
  if fs.maxPath < pathSize p then none else resolveFrom fs.node fs.maxLinks [] p

/-- What is where a path leads. -/
def status (p : Place) : Option (LinkedNode α) := (fs.resolve p).bind fs.node.find?

variable {fs}

theorem pathSize_le_of_resolve {p r : Place} (h : fs.resolve p = some r) : pathSize p ≤ fs.maxPath := by
  rw [resolve] at h
  split_ifs at h with hlong
  exact Nat.not_lt.mp hlong

/-! ### Going on -/

/-- Names are followed to where they are, where there is no link. -/
theorem resolveNames_plain {node : LinkedNode α} (hnamed : node.Named)
    {again : Place → List String → Option Place} {here q : Place} {found : LinkedNode α}
    (hfound : node.find? (here ++ q) = some found) (hlink : ∀ target, found ≠ .link target) :
    resolveNames node again here q = some (here ++ q) := by
  induction q generalizing here with
  | nil => rw [List.append_nil, resolveNames]
  | cons name q ih =>
    have hvalid : ValidName name := by
      refine hnamed.validNames (p := here ++ name :: q) ?_ name ?_
      · rw [hfound]
        exact Option.some_ne_none _
      · exact List.mem_append_right _ List.mem_cons_self
    rw [List.append_cons] at hfound ⊢
    rw [resolveNames, if_neg hvalid.2.1, if_neg hvalid.2.2.1]
    have hstep := hfound
    rw [LinkedNode.find?_append] at hstep
    obtain ⟨child, hchild, hrest⟩ := Option.bind_eq_some_iff.mp hstep
    rw [hchild]
    cases child with
    | dir entries => exact ih hfound
    | link target =>
      cases q with
      | nil =>
        cases hrest
        exact absurd rfl (hlink target)
      | cons _ _ => cases hrest
    | file content =>
      cases q with
      | nil => exact (if_pos rfl).trans (by rw [List.append_nil])
      | cons _ _ => cases hrest
    | other =>
      cases q with
      | nil => exact (if_pos rfl).trans (by rw [List.append_nil])
      | cons _ _ => cases hrest

/-- Below where some names lead, the names that are there lead on. -/
theorem resolveNames_append {node : LinkedNode α} (hnamed : node.Named)
    {again : Place → List String → Option Place} {here r q : Place} {found : LinkedNode α}
    (hfound : node.find? (r ++ q) = some found) (hlink : ∀ target, found ≠ .link target)
    (hagain : ∀ here names, again here names = some r → again here (names ++ q) = some (r ++ q))
    {names : List String} (h : resolveNames node again here names = some r) :
    resolveNames node again here (names ++ q) = some (r ++ q) := by
  induction names generalizing here with
  | nil =>
    cases h
    exact resolveNames_plain hnamed hfound hlink
  | cons name names ih =>
    rw [resolveNames] at h
    rw [List.cons_append, resolveNames]
    by_cases hdot : name = "."
    · rw [if_pos hdot] at h ⊢
      exact ih h
    rw [if_neg hdot] at h ⊢
    by_cases hup : name = ".."
    · rw [if_pos hup] at h ⊢
      exact ih h
    rw [if_neg hup] at h ⊢
    -- below what is neither a directory nor a link there is nothing
    have hleaf {leaf : LinkedNode α} (hchild : node.find? (here ++ [name]) = some leaf)
        (hno : ∀ name' rest, leaf.find? (name' :: rest) = none)
        (h : (if names = [] then some (here ++ [name]) else none) = some r) :
        (if names ++ q = [] then some (here ++ [name]) else none) = some (r ++ q) := by
      split_ifs at h with hnil
      cases h
      have hq : q = [] := by
        cases q with
        | nil => rfl
        | cons name' rest =>
          rw [LinkedNode.find?_append, hchild, Option.bind_some, hno] at hfound
          cases hfound
      rw [hnil, hq, List.append_nil, List.append_nil, if_pos rfl]
    cases hchild : node.find? (here ++ [name]) with
    | none =>
      rw [hchild] at h
      cases h
    | some child =>
      rw [hchild] at h
      cases child with
      | dir entries => exact ih h
      | link target =>
        dsimp only at h ⊢
        split_ifs at h ⊢ with hempty
        rw [← List.append_assoc]
        exact hagain _ _ h
      | file content => exact hleaf hchild (fun _ _ => rfl) h
      | other => exact hleaf hchild (fun _ _ => rfl) h

theorem resolveFrom_append {node : LinkedNode α} (hnamed : node.Named) {r q : Place}
    {found : LinkedNode α} (hfound : node.find? (r ++ q) = some found)
    (hlink : ∀ target, found ≠ .link target) {links : ℕ} {here : Place} {names : List String}
    (h : resolveFrom node links here names = some r) :
    resolveFrom node links here (names ++ q) = some (r ++ q) := by
  induction links generalizing here names with
  | zero => exact resolveNames_append hnamed hfound hlink (fun _ _ hno => by cases hno) h
  | succ links ih => exact resolveNames_append hnamed hfound hlink (fun _ _ => ih) h

/-- **A path goes on below the place it leads to.** -/
theorem resolve_append {p r q : Place} {found : LinkedNode α} (h : fs.resolve p = some r)
    (hfound : fs.node.find? (r ++ q) = some found) (hlink : ∀ target, found ≠ .link target)
    (hlength : pathSize (p ++ q) ≤ fs.maxPath) :
    fs.resolve (p ++ q) = some (r ++ q) := by
  rw [resolve] at h
  split_ifs at h
  rw [resolve, if_neg (Nat.not_lt.mpr hlength)]
  exact resolveFrom_append fs.named hfound hlink h

end LinkedTree

end Files

end Ao2
