import Ao2.Checks
import Ao2.Texts
import Ao2.Texts.Bytes
import Mathlib.Data.List.Induction

/-!
# Directory trees

What is at a place is a directory, a file, or something that is neither read nor replaced. There are
no links, so `..` goes to the directory above.

A path is a text. The operating system follows its names from the root or from the working directory;
making a directory with all that it is in is what the standard library does with single steps.

A `FileNode` is what is at a place, with all that is below it. A symbolic link stands for what it
leads to, or for nothing; what is in a directory is listed without following links.

## Main results

* `createDirAll_ok` — it is made if nothing is in the way
-/

namespace Ao2

namespace Files

/-- The names on the way from the root. -/
abbrev Place := List String

inductive Entry where
  | dir
  | file
  | closed
  deriving DecidableEq

/-- What is at each place. -/
structure Tree where
  entry : Place → Option Entry
  root : entry [] = some .dir
  parents : ∀ (p : Place) (name : String), entry (p ++ [name]) ≠ none → entry p = some .dir

/-- Why the operating system refuses. -/
inductive Errno where
  | notFound | exists | notADirectory | isADirectory | invalidInput
  deriving DecidableEq

namespace Tree

/-- With an entry in a directory. -/
def put (t : Tree) (p : Place) (name : String) (e : Entry) (hparent : t.entry p = some .dir)
    (hleaf : t.entry (p ++ [name]) ≠ some .dir) : Tree where
  entry q := if q = p ++ [name] then some e else t.entry q
  root := by rw [if_neg (List.append_ne_nil_of_right_ne_nil _ (List.cons_ne_nil _ _)).symm, t.root]
  parents q name' hne := by
    have hdir : t.entry q = some .dir := by
      split_ifs at hne with heq
      · rw [(List.append_inj' heq rfl).1]
        exact hparent
      · exact t.parents q name' hne
    rw [if_neg, hdir]
    rintro rfl
    exact hleaf hdir

/-- What is above a directory is one. -/
theorem entry_dropLast {t : Tree} {p : Place} (h : t.entry p = some .dir) :
    t.entry p.dropLast = some .dir := by
  rcases List.eq_nil_or_concat' p with rfl | ⟨q, name, rfl⟩
  · exact t.root
  · rw [List.dropLast_concat]
    exact t.parents q name (by rw [h]; exact nofun)

/-- The directories on the way to two places, and nothing else. -/
def bare (p p' : Place) : Tree where
  entry q := if q <+: p ∨ q <+: p' then some .dir else none
  root := if_pos (.inl List.nil_prefix)
  parents q name h := by
    have hq : q ++ [name] <+: p ∨ q ++ [name] <+: p' := by
      by_contra hno
      exact h (if_neg hno)
    have habove : q <+: q ++ [name] := List.prefix_append q [name]
    exact if_pos (hq.imp habove.trans habove.trans)

/-- What is above something is a directory. -/
theorem entry_of_prefix {t : Tree} {p q : Place} (h : t.entry q ≠ none) (hpq : p <+: q) (hne : p ≠ q) :
    t.entry p = some .dir := by
  obtain ⟨rest, rfl⟩ := hpq
  induction rest using List.reverseRecOn with
  | nil => exact absurd (List.append_nil p).symm hne
  | append_singleton rest name ih =>
    rw [← List.append_assoc] at h
    have hparent := t.parents _ _ h
    rcases eq_or_ne rest [] with rfl | hrest
    · rwa [List.append_nil] at hparent
    · refine ih (by rw [hparent]; exact nofun) fun heq => hrest ?_
      exact List.append_right_eq_self.mp heq.symm

theorem entry_of_prefix_dir {t : Tree} {p q : Place} (h : t.entry q = some .dir) (hpq : p <+: q) :
    t.entry p = some .dir := by
  rcases eq_or_ne p q with rfl | hne
  · exact h
  · exact entry_of_prefix (by rw [h]; exact nofun) hpq hne

end Tree

/-! ### Paths -/

/-- What stands between the slashes of a path, as far as it is anything. -/
def pathParts (path : String) : List String :=
  ((path.toList.splitOn '/').map .ofList).filter (· ≠ "")

/-- The names in a path; `.` is no name. -/
def pathNames (path : String) : List String := (pathParts path).filter (· ≠ ".")

/-- The path ends with `.`. -/
def endsInDot (path : String) : Bool := (pathParts path).getLast? = some "."

/-- Where the names of a path are followed from. -/
def startOf (cwd : Place) (path : String) : Place := if path.toList.head? = some '/' then [] else cwd

/-- One name further. -/
def goOn (here : Place) (name : String) : Place :=
  if name = ".." then here.dropLast else here ++ [name]

/-- Some names further. -/
def goTo (here : Place) (names : List String) : Place := names.foldl goOn here

/-- The places that are come to on the way. -/
def passed (here : Place) : List String → List Place
  | [] => []
  | name :: rest => goOn here name :: passed (goOn here name) rest

/-- Where a path leads. -/
def placeOf (cwd : Place) (path : String) : Place := goTo (startOf cwd path) (pathNames path)

theorem goTo_concat (here : Place) (names : List String) (name : String) :
    goTo here (names ++ [name]) = goOn (goTo here names) name := List.foldl_concat ..

theorem passed_concat (here : Place) (names : List String) (name : String) :
    passed here (names ++ [name]) = passed here names ++ [goTo here (names ++ [name])] := by
  induction names generalizing here with
  | nil => rfl
  | cons first rest ih => rw [List.cons_append, passed, ih]; rfl

/-- A path put together has the parts of both, unless the second is absolute. -/
theorem pathParts_joinPath {dir path : String} (h : path.toList.head? ≠ some '/') :
    pathParts (joinPath dir path) = pathParts dir ++ pathParts path := by
  have hsplit (text rest : List Char) :
      (((text ++ '/' :: rest).splitOn '/').map String.ofList).filter (· ≠ "") =
        ((text.splitOn '/').map String.ofList).filter (· ≠ "") ++
          ((rest.splitOn '/').map String.ofList).filter (· ≠ "") := by
    rw [List.splitOn_append_cons_self, List.map_append, List.filter_append]
  rw [joinPath]
  by_cases hdir : dir = ""
  · rw [if_pos (.inr hdir), hdir]
    simp [pathParts]
  rw [if_neg (not_or.mpr ⟨h, hdir⟩)]
  by_cases hlast : dir.toList.getLast? = some '/'
  · obtain ⟨init, hinit⟩ := List.getLast?_eq_some_iff.mp hlast
    rw [if_pos hlast, pathParts, String.toList_append, hinit, List.append_assoc, List.singleton_append,
      hsplit, pathParts, hinit, hsplit]
    simp [pathParts]
  · rw [if_neg hlast, pathParts, String.toList_append, String.toList_append, List.append_assoc]
    exact hsplit _ _

theorem pathNames_joinPath {dir path : String} (h : path.toList.head? ≠ some '/') :
    pathNames (joinPath dir path) = pathNames dir ++ pathNames path := by
  rw [pathNames, pathParts_joinPath h, List.filter_append]
  rfl

/-- A text that is the name of a file, not of a directory. -/
structure IsName (name : String) : Prop where
  nonempty : name ≠ ""
  noSlash : '/' ∉ name.toList
  noDot : name ≠ "."
  noUp : name ≠ ".."
  noNul : '\x00' ∉ name.toList

theorem IsName.parts {name : String} (h : IsName name) : pathParts name = [name] := by
  rw [pathParts, List.splitOn_eq_singleton h.noSlash]
  simp [h.nonempty]

theorem IsName.relative {name : String} (h : IsName name) : name.toList.head? ≠ some '/' := by
  intro hhead
  exact h.noSlash (List.mem_of_mem_head? hhead)

theorem IsName.pathNames_joinPath {name : String} (h : IsName name) (dir : String) :
    pathNames (joinPath dir name) = pathNames dir ++ [name] := by
  rw [Files.pathNames_joinPath h.relative, pathNames, pathNames, h.parts]
  simp [h.noDot]

theorem IsName.endsInDot_joinPath {name : String} (h : IsName name) (dir : String) :
    endsInDot (joinPath dir name) = false := by
  rw [endsInDot, pathParts_joinPath h.relative, h.parts, List.getLast?_concat]
  exact decide_eq_false fun heq => h.noDot (Option.some.inj heq)

theorem IsName.startOf_joinPath {name : String} (h : IsName name) (cwd : Place) (dir : String) :
    startOf cwd (joinPath dir name) = startOf cwd dir := by
  rw [joinPath]
  by_cases hdir : dir = ""
  · rw [if_pos (.inr hdir), hdir, startOf, if_neg h.relative]
    rfl
  · have hhead (rest : String) : (dir ++ rest).toList.head? = dir.toList.head? := by
      rw [String.toList_append, List.head?_append_of_ne_nil]
      exact fun hnil => hdir (String.toList_eq_nil_iff.mp hnil)
    rw [if_neg (not_or.mpr ⟨h.relative, hdir⟩), startOf, startOf]
    by_cases hlast : dir.toList.getLast? = some '/'
    · rw [if_pos hlast, hhead]
    · rw [if_neg hlast, String.append_assoc, hhead]

/-- Where the path of a file in a directory leads. -/
theorem IsName.placeOf_joinPath {name : String} (h : IsName name) (cwd : Place) (dir : String) :
    placeOf cwd (joinPath dir name) = placeOf cwd dir ++ [name] := by
  rw [placeOf, h.startOf_joinPath, h.pathNames_joinPath, goTo_concat, goOn, if_neg h.noUp]
  rfl

/-! ### Making directories -/

namespace Tree

/-- The place that names lead to, through directories that are there. -/
def walk (t : Tree) : Place → List String → Except Errno Place
  | here, [] => .ok here
  | here, name :: rest =>
    if name = ".." then walk t here.dropLast rest
    else
      match t.entry (here ++ [name]) with
      | some .dir => walk t (here ++ [name]) rest
      | some _ => .error .notADirectory
      | none => .error .notFound

/-- `mkdir` of the last of some names. -/
def makeDir (t : Tree) (here : Place) (above : List String) (name : String) : Except Errno Tree := do
  let p ← t.walk here above
  if name = ".." then .error .exists
  else if h : t.entry p = some .dir ∧ t.entry (p ++ [name]) = none then
    .ok (t.put p name .dir h.1 (by rw [h.2]; exact nofun))
  else .error .exists

/-- `is_dir` -/
def isDir (t : Tree) (here : Place) (names : List String) : Bool := (t.walk here names).isOk

/-- The answer when a directory could not be made. -/
def unlessDir (t : Tree) (here : Place) (names : List String) (e : Errno) : Except Errno Unit × Tree :=
  (if t.isDir here names then .ok () else .error e, t)

/-- The directories that names lead through, which are given from the last to the first. -/
def createAll (t : Tree) (here : Place) : List String → Except Errno Unit × Tree
  | [] => (.ok (), t)
  | name :: above =>
    match t.makeDir here above.reverse name with
    | .ok t' => (.ok (), t')
    | .error .notFound =>
      match t.createAll here above with
      | (.ok (), t') =>
        match t'.makeDir here above.reverse name with
        | .ok t'' => (.ok (), t'')
        | .error e => t'.unlessDir here (above.reverse ++ [name]) e
      | (.error e, t') => (.error e, t')
    | .error e => t.unlessDir here (above.reverse ++ [name]) e

/-- `create_dir_all`. A path that ends with `.` names a directory that is there: the standard library
makes what is above it only. -/
def createDirAll (t : Tree) (cwd : Place) (path : String) : Except Errno Unit × Tree :=
  let here := startOf cwd path
  let names := pathNames path
  if '\x00' ∈ path.toList then (.error .invalidInput, t)
  else if endsInDot path then
    match t.walk here names with
    | .ok _ => (.ok (), t)
    | .error .notFound =>
      match t.createAll here names.dropLast.reverse with
      | (.ok (), t') => t'.unlessDir here names .notFound
      | (.error e, t') => (.error e, t')
    | .error e => (.error e, t)
  else t.createAll here names.reverse

/-- What is written: the file at a place that is no directory. -/
def writeFile (t : Tree) (cwd : Place) (path : String) : Except Errno (Place × Tree) :=
  if '\x00' ∈ path.toList then .error .invalidInput
  else do
    let p ← t.walk (startOf cwd path) (pathNames path).dropLast
    match (pathNames path).getLast? with
    | none => .error .isADirectory
    | some name =>
      if name = ".." ∨ endsInDot path then .error .isADirectory
      else if t.entry (p ++ [name]) = some .closed then .error .exists
      else if h : t.entry p = some .dir ∧ t.entry (p ++ [name]) ≠ some .dir then
        .ok (p ++ [name], t.put p name .file h.1 h.2)
      else .error .isADirectory

variable {t t' : Tree} {here : Place} {names above : List String} {name : String}

/-- A way can be gone if and only if it passes directories only. -/
theorem walk_eq_ok_iff (hhere : t.entry here = some .dir) {p : Place} :
    t.walk here names = .ok p ↔ p = goTo here names ∧ ∀ q ∈ passed here names, t.entry q = some .dir := by
  induction names generalizing here with
  | nil => simp [walk, goTo, passed, eq_comm]
  | cons name rest ih =>
    rw [walk, passed, List.forall_mem_cons, goTo, List.foldl_cons, goOn]
    split_ifs with hup
    · rw [ih (entry_dropLast hhere)]
      simp only [entry_dropLast hhere, true_and]
      rfl
    · cases hentry : t.entry (here ++ [name]) with
      | none => simp
      | some e =>
        cases e with
        | dir =>
          rw [ih hentry]
          simp only [true_and]
          rfl
        | file => simp
        | closed => simp

/-- A way that cannot be gone is blocked, or does not go on. -/
theorem walk_eq_error (hhere : t.entry here = some .dir) {e : Errno} (h : t.walk here names = .error e) :
    e = .notFound ∨ ∃ q ∈ passed here names, t.entry q ≠ some .dir ∧ t.entry q ≠ none := by
  induction names generalizing here with
  | nil => cases h
  | cons name rest ih =>
    rw [walk] at h
    simp only [passed, List.mem_cons]
    split_ifs at h with hup
    · refine (ih (entry_dropLast hhere) h).imp_right ?_
      rintro ⟨q, hq, hblocked⟩
      exact ⟨q, .inr (by rwa [goOn, if_pos hup]), hblocked⟩
    · rw [goOn, if_neg hup]
      cases hentry : t.entry (here ++ [name]) with
      | none =>
        rw [hentry] at h
        exact .inl (Except.error.inj h).symm
      | some e' =>
        rw [hentry] at h
        cases e' with
        | dir =>
          refine (ih hentry h).imp_right ?_
          rintro ⟨q, hq, hblocked⟩
          exact ⟨q, .inr hq, hblocked⟩
        | file => exact .inr ⟨_, .inl rfl, by simp [hentry]⟩
        | closed => exact .inr ⟨_, .inl rfl, by simp [hentry]⟩

theorem isDir_iff (hhere : t.entry here = some .dir) :
    t.isDir here names = true ↔ ∀ q ∈ passed here names, t.entry q = some .dir := by
  rw [isDir]
  cases h : t.walk here names with
  | ok p => exact iff_of_true rfl ((walk_eq_ok_iff hhere).mp h).2
  | error e =>
    refine iff_of_false Bool.false_ne_true fun hall => ?_
    rw [(walk_eq_ok_iff hhere).mpr ⟨rfl, hall⟩] at h
    cases h

/-! ### What is made -/

/-- **One tree is another with more directories**, all of them among some places. -/
def Grows (t t' : Tree) (places : List Place) : Prop :=
  ∀ q, t'.entry q = t.entry q ∨ t.entry q = none ∧ t'.entry q = some .dir ∧ q ∈ places

theorem Grows.refl (t : Tree) (places : List Place) : Grows t t places := fun _ => .inl rfl

theorem Grows.mono {places places' : List Place} (h : Grows t t' places) (hsub : places ⊆ places') :
    Grows t t' places' := fun q => (h q).imp_right fun ⟨hnone, hdir, hmem⟩ => ⟨hnone, hdir, hsub hmem⟩

theorem Grows.trans {t'' : Tree} {places : List Place} (h : Grows t t' places)
    (h' : Grows t' t'' places) : Grows t t'' places := by
  intro q
  rcases h q with hq | ⟨hnone, hdir, hmem⟩ <;> rcases h' q with hq' | ⟨hnone', hdir', hmem'⟩
  · exact .inl (hq'.trans hq)
  · exact .inr ⟨hq ▸ hnone', hdir', hmem'⟩
  · exact .inr ⟨hnone, hq'.trans hdir, hmem⟩
  · rw [hdir] at hnone'
    cases hnone'

theorem Grows.dir {places : List Place} (h : Grows t t' places) {q : Place}
    (hq : t.entry q = some .dir) : t'.entry q = some .dir := by
  rcases h q with heq | ⟨hnone, -, -⟩
  · rw [heq, hq]
  · rw [hq] at hnone
    cases hnone

theorem makeDir_eq_ok (hhere : t.entry here = some .dir) (h : t.makeDir here above name = .ok t') :
    Grows t t' (passed here (above ++ [name])) ∧
      ∀ q ∈ passed here (above ++ [name]), t'.entry q = some .dir := by
  rw [makeDir] at h
  obtain ⟨p, hp, h⟩ := bind_eq_ok.mp h
  obtain ⟨rfl, habove⟩ := (walk_eq_ok_iff hhere).mp hp
  split_ifs at h with hup hfree
  obtain rfl := Except.ok.inj h
  have hplace : goTo here above ++ [name] = goTo here (above ++ [name]) := by
    rw [goTo_concat, goOn, if_neg hup]
  have hgrows : Grows t (t.put (goTo here above) name .dir hfree.1 (by rw [hfree.2]; exact nofun))
      (passed here (above ++ [name])) := by
    intro q
    by_cases hq : q = goTo here above ++ [name]
    · refine .inr ⟨hq ▸ hfree.2, if_pos hq, ?_⟩
      rw [passed_concat, hq, hplace]
      exact List.mem_append_right _ (List.mem_singleton_self _)
    · exact .inl (if_neg hq)
  refine ⟨hgrows, fun q hq => ?_⟩
  rw [passed_concat] at hq
  rcases List.mem_append.mp hq with hq | hq
  · exact hgrows.dir (habove q hq)
  · exact if_pos ((List.mem_singleton.mp hq).trans hplace.symm)

/-- The last directory is made, or it is there, if the way to it can be gone and it is not in the way. -/
theorem makeDir_of_isDir (hhere : t.entry here = some .dir)
    (habove : ∀ q ∈ passed here above, t.entry q = some .dir)
    (hlast : t.entry (goTo here (above ++ [name])) = none ∨
      t.entry (goTo here (above ++ [name])) = some .dir) :
    (∃ t', t.makeDir here above name = .ok t') ∨
      t.makeDir here above name = .error .exists ∧ t.isDir here (above ++ [name]) = true := by
  have hwalk : t.walk here above = .ok (goTo here above) := (walk_eq_ok_iff hhere).mpr ⟨rfl, habove⟩
  have hp : t.entry (goTo here above) = some .dir := by
    rcases List.eq_nil_or_concat' above with rfl | ⟨init, last, rfl⟩
    · exact hhere
    · refine habove _ ?_
      rw [passed_concat]
      exact List.mem_append_right _ (List.mem_singleton_self _)
  have hisDir (h : t.entry (goTo here (above ++ [name])) = some .dir) :
      t.isDir here (above ++ [name]) = true := by
    rw [isDir_iff hhere, passed_concat, List.forall_mem_append]
    exact ⟨habove, fun q hq => List.mem_singleton.mp hq ▸ h⟩
  rw [makeDir, hwalk]
  by_cases hup : name = ".."
  · refine .inr ⟨if_pos hup, hisDir ?_⟩
    rw [goTo_concat, goOn, if_pos hup]
    exact entry_dropLast hp
  have hplace : goTo here (above ++ [name]) = goTo here above ++ [name] := by
    rw [goTo_concat, goOn, if_neg hup]
  rcases hlast with hnone | hdir
  · refine .inl ⟨t.put (goTo here above) name .dir hp (by rw [← hplace, hnone]; exact nofun), ?_⟩
    exact (if_neg hup).trans (dif_pos ⟨hp, hplace ▸ hnone⟩)
  · refine .inr ⟨(if_neg hup).trans (dif_neg ?_), hisDir hdir⟩
    rintro ⟨-, hnone⟩
    rw [← hplace, hdir] at hnone
    cases hnone

theorem createAll_grows (hhere : t.entry here = some .dir) (reversed : List String) :
    Grows t (t.createAll here reversed).2 (passed here reversed.reverse) := by
  induction reversed generalizing t with
  | nil => exact .refl t _
  | cons name above ih =>
    have hsub : passed here above.reverse ⊆ passed here (name :: above).reverse := by
      rw [List.reverse_cons, passed_concat]
      exact List.subset_append_left _ _
    rw [createAll]
    cases hmake : t.makeDir here above.reverse name with
    | ok t' =>
      rw [List.reverse_cons]
      exact (makeDir_eq_ok hhere hmake).1
    | error e =>
      by_cases he : e = .notFound
      · obtain rfl := he
        dsimp only
        have hgrows := (ih hhere).mono hsub
        cases habove : t.createAll here above with
        | mk r t' =>
          rw [habove] at hgrows
          cases r with
          | error e => exact hgrows
          | ok u =>
            dsimp only
            cases hmake' : t'.makeDir here above.reverse name with
            | error e => exact hgrows
            | ok t'' =>
              refine hgrows.trans ?_
              rw [List.reverse_cons]
              exact (makeDir_eq_ok (hgrows.dir hhere) hmake').1
      · cases e with
        | notFound => exact absurd rfl he
        | _ => exact .refl t _

/-- Once they are made, the names lead through directories. -/
theorem passed_of_createAll (hhere : t.entry here = some .dir) {reversed : List String}
    (h : t.createAll here reversed = (.ok (), t')) :
    ∀ q ∈ passed here reversed.reverse, t'.entry q = some .dir := by
  have hunless {t₁ : Tree} {names : List String} {e : Errno} (hhere₁ : t₁.entry here = some .dir)
      (h₁ : t₁.unlessDir here names e = (.ok (), t')) :
      ∀ q ∈ passed here names, t'.entry q = some .dir := by
    rw [unlessDir] at h₁
    obtain ⟨hr, rfl⟩ := Prod.mk.inj h₁
    split_ifs at hr with hdir
    exact (isDir_iff hhere₁).mp hdir
  cases reversed with
  | nil => exact nofun
  | cons name above =>
    rw [List.reverse_cons]
    rw [createAll] at h
    cases hmake : t.makeDir here above.reverse name with
    | ok t₁ =>
      rw [hmake] at h
      obtain ⟨-, rfl⟩ := Prod.mk.inj h
      exact (makeDir_eq_ok hhere hmake).2
    | error e =>
      rw [hmake] at h
      by_cases he : e = .notFound
      · obtain rfl := he
        dsimp only at h
        have hgrows := createAll_grows hhere above
        cases habove : t.createAll here above with
        | mk r t₁ =>
          rw [habove] at h hgrows
          cases r with
          | error e => cases (Prod.mk.inj h).1
          | ok u =>
            dsimp only at h
            cases hmake' : t₁.makeDir here above.reverse name with
            | error e =>
              rw [hmake'] at h
              exact hunless (hgrows.dir hhere) h
            | ok t₂ =>
              rw [hmake'] at h
              obtain ⟨-, rfl⟩ := Prod.mk.inj h
              exact (makeDir_eq_ok (hgrows.dir hhere) hmake').2
      · cases e with
        | notFound => exact absurd rfl he
        | _ => exact hunless hhere h

/-- **Nothing in the way**: each place is a directory, or nothing is there. -/
def Clear (t : Tree) (places : List Place) : Prop :=
  ∀ q ∈ places, t.entry q = none ∨ t.entry q = some .dir

theorem Clear.grows {places places' : List Place} (h : t.Clear places) (hgrows : Grows t t' places') :
    t'.Clear places := by
  intro q hq
  rcases hgrows q with heq | ⟨-, hdir, -⟩
  · rw [heq]
    exact h q hq
  · exact .inr hdir

theorem createAll_ok (hhere : t.entry here = some .dir) {reversed : List String}
    (h : t.Clear (passed here reversed.reverse)) : (t.createAll here reversed).1 = .ok () := by
  induction reversed with
  | nil => rfl
  | cons name above ih =>
    rw [List.reverse_cons, passed_concat] at h
    have hclear : t.Clear (passed here above.reverse) := fun q hq => h q (List.mem_append_left _ hq)
    have hlast {t₁ : Tree} {places : List Place} (hgrows : Grows t t₁ places) :
        t₁.entry (goTo here (above.reverse ++ [name])) = none ∨
          t₁.entry (goTo here (above.reverse ++ [name])) = some .dir :=
      h.grows hgrows _ (List.mem_append_right _ (List.mem_singleton_self _))
    -- the last directory, once there are those above
    have hmade {t₁ : Tree} {places : List Place} (hgrows : Grows t t₁ places)
        (habove : ∀ q ∈ passed here above.reverse, t₁.entry q = some .dir) :=
      makeDir_of_isDir (hgrows.dir hhere) habove (hlast hgrows)
    rw [createAll]
    cases hwalk : t.walk here above.reverse with
    | ok p =>
      rcases hmade (.refl t []) ((walk_eq_ok_iff hhere).mp hwalk).2 with ⟨t', ht'⟩ | ⟨he, hdir⟩
      · rw [ht']
      · rw [he]
        exact if_pos hdir
    | error e =>
      have hnotFound : e = .notFound := by
        refine (walk_eq_error hhere hwalk).resolve_right ?_
        rintro ⟨q, hq, hne, hsome⟩
        exact (hclear q hq).elim hsome hne
      have hmake : t.makeDir here above.reverse name = .error .notFound := by
        rw [makeDir, hwalk, hnotFound]
        rfl
      rw [hmake]
      dsimp only
      have hok := ih hclear
      have hgrows := createAll_grows hhere above
      cases habove : t.createAll here above with
      | mk r t₁ =>
        rw [habove] at hok hgrows
        dsimp only at hok
        subst hok
        dsimp only
        rcases hmade hgrows (passed_of_createAll hhere habove) with ⟨t', ht'⟩ | ⟨he, hdir⟩
        · rw [ht']
        · rw [he]
          exact if_pos hdir

variable {cwd : Place} {path : String}

theorem startOf_isDir (hcwd : t.entry cwd = some .dir) (path : String) :
    t.entry (startOf cwd path) = some .dir := by
  rw [startOf]
  split_ifs
  · exact t.root
  · exact hcwd

theorem passed_dropLast_subset (here : Place) (names : List String) :
    passed here names.dropLast ⊆ passed here names := by
  rcases List.eq_nil_or_concat' names with rfl | ⟨init, name, rfl⟩
  · exact List.Subset.refl _
  · rw [List.dropLast_concat, passed_concat]
    exact List.subset_append_left _ _

/-- **Only what is passed is made.** -/
theorem createDirAll_grows (hcwd : t.entry cwd = some .dir) (path : String) :
    Grows t (t.createDirAll cwd path).2 (passed (startOf cwd path) (pathNames path)) := by
  have hhere := startOf_isDir hcwd path
  have hinit := (createAll_grows hhere (pathNames path).dropLast.reverse).mono
    (List.reverse_reverse (pathNames path).dropLast ▸ passed_dropLast_subset _ _)
  have hall := createAll_grows hhere (pathNames path).reverse
  rw [List.reverse_reverse] at hall
  rw [createDirAll]
  split_ifs
  · exact .refl t _
  · cases hwalk : t.walk (startOf cwd path) (pathNames path) with
    | ok p => exact .refl t _
    | error e =>
      cases e with
      | notFound =>
        dsimp only
        cases hcreate : t.createAll (startOf cwd path) (pathNames path).dropLast.reverse with
        | mk r t' =>
          rw [hcreate] at hinit
          cases r with
          | ok u => exact hinit
          | error e => exact hinit
      | _ => exact .refl t _
  · exact hall

/-- **What was made can be gone along.** -/
theorem passed_of_createDirAll (hcwd : t.entry cwd = some .dir)
    (h : t.createDirAll cwd path = (.ok (), t')) :
    '\x00' ∉ path.toList ∧
      ∀ q ∈ passed (startOf cwd path) (pathNames path), t'.entry q = some .dir := by
  have hhere := startOf_isDir hcwd path
  rw [createDirAll] at h
  split_ifs at h with hnul hdot
  · cases (Prod.mk.inj h).1
  · refine ⟨hnul, ?_⟩
    cases hwalk : t.walk (startOf cwd path) (pathNames path) with
    | ok p =>
      rw [hwalk] at h
      obtain ⟨-, rfl⟩ := Prod.mk.inj h
      exact ((walk_eq_ok_iff hhere).mp hwalk).2
    | error e =>
      rw [hwalk] at h
      cases e with
      | notFound =>
        dsimp only at h
        have hgrows := createAll_grows hhere (pathNames path).dropLast.reverse
        cases hcreate : t.createAll (startOf cwd path) (pathNames path).dropLast.reverse with
        | mk r t₁ =>
          rw [hcreate] at h hgrows
          cases r with
          | error e => cases (Prod.mk.inj h).1
          | ok u =>
            dsimp only [unlessDir] at h
            obtain ⟨hr, rfl⟩ := Prod.mk.inj h
            split_ifs at hr with hdir
            exact (isDir_iff (hgrows.dir hhere)).mp hdir
      | _ => cases (Prod.mk.inj h).1
  · have hpassed := passed_of_createAll hhere h
    rw [List.reverse_reverse] at hpassed
    exact ⟨hnul, hpassed⟩

/-- **Directories are made** if nothing is in the way and a path that ends with `.` leads to one. -/
theorem createDirAll_ok (hcwd : t.entry cwd = some .dir) (hnul : '\x00' ∉ path.toList)
    (hclear : t.Clear (passed (startOf cwd path) (pathNames path)))
    (hplace : t.entry (placeOf cwd path) = some .dir) : (t.createDirAll cwd path).1 = .ok () := by
  have hhere := startOf_isDir hcwd path
  rw [createDirAll, if_neg hnul]
  split_ifs
  · cases hwalk : t.walk (startOf cwd path) (pathNames path) with
    | ok p => rfl
    | error e =>
      obtain rfl : e = .notFound := by
        refine (walk_eq_error hhere hwalk).resolve_right ?_
        rintro ⟨q, hq, hne, hsome⟩
        exact (hclear q hq).elim hsome hne
      dsimp only
      have hinit : t.Clear (passed (startOf cwd path) (pathNames path).dropLast.reverse.reverse) := by
        rw [List.reverse_reverse]
        exact fun q hq => hclear q (passed_dropLast_subset _ _ hq)
      have hok := createAll_ok hhere hinit
      have hgrows := createAll_grows hhere (pathNames path).dropLast.reverse
      cases hcreate : t.createAll (startOf cwd path) (pathNames path).dropLast.reverse with
      | mk r t₁ =>
        rw [hcreate] at hok hgrows
        dsimp only at hok
        subst hok
        have hpassed := passed_of_createAll hhere hcreate
        rw [List.reverse_reverse] at hpassed
        refine if_pos ((isDir_iff (hgrows.dir hhere)).mpr fun q hq => ?_)
        rcases List.eq_nil_or_concat' (pathNames path) with hnil | ⟨init, name, hnames⟩
        · rw [hnil] at hq
          exact absurd hq List.not_mem_nil
        · rw [hnames, passed_concat] at hq
          rw [hnames, List.dropLast_concat] at hpassed
          rcases List.mem_append.mp hq with hq | hq
          · exact hpassed q hq
          · rw [List.mem_singleton.mp hq, ← hnames]
            exact hgrows.dir hplace
  · refine createAll_ok hhere ?_
    rw [List.reverse_reverse]
    exact hclear

/-! ### Writing files -/

/-- **A file is written where its path leads**, and nothing else is changed. -/
theorem writeFile_eq_ok (hcwd : t.entry cwd = some .dir) {p : Place}
    (h : t.writeFile cwd path = .ok (p, t')) :
    p = placeOf cwd path ∧ t.entry p ≠ some .dir ∧
      ∀ q, t'.entry q = if q = p then some .file else t.entry q := by
  rw [writeFile] at h
  split_ifs at h with hnul
  obtain ⟨above, habove, h⟩ := bind_eq_ok.mp h
  obtain ⟨rfl, -⟩ := (walk_eq_ok_iff (startOf_isDir hcwd path)).mp habove
  rcases List.eq_nil_or_concat' (pathNames path) with hnil | ⟨init, name, hnames⟩
  · rw [hnil] at h
    cases h
  · rw [hnames, List.getLast?_concat, List.dropLast_concat] at h
    dsimp only at h
    split_ifs at h with hup hclosed hfree
    obtain ⟨rfl, rfl⟩ := Prod.mk.inj (Except.ok.inj h)
    refine ⟨?_, hfree.2, fun q => rfl⟩
    rw [placeOf, hnames, goTo_concat, goOn, if_neg (not_or.mp hup).1]

/-- A file in a directory is written, unless it is a directory or closed. -/
theorem writeFile_ok (hcwd : t.entry cwd = some .dir) {dir name : String} (hname : IsName name)
    (hnul : '\x00' ∉ dir.toList)
    (hpassed : ∀ q ∈ passed (startOf cwd dir) (pathNames dir), t.entry q = some .dir)
    (hfree : t.entry (placeOf cwd dir ++ [name]) ≠ some .dir)
    (hclosed : t.entry (placeOf cwd dir ++ [name]) ≠ some .closed) :
    ∃ t', t.writeFile cwd (joinPath dir name) = .ok (placeOf cwd dir ++ [name], t') := by
  have hhere := startOf_isDir hcwd dir
  have hwalk : t.walk (startOf cwd dir) (pathNames dir) = .ok (placeOf cwd dir) :=
    (walk_eq_ok_iff hhere).mpr ⟨rfl, hpassed⟩
  have hdir : t.entry (placeOf cwd dir) = some .dir := by
    rw [placeOf]
    rcases List.eq_nil_or_concat' (pathNames dir) with hnil | ⟨init, last, hnames⟩
    · rw [hnil]
      exact hhere
    · refine hpassed _ ?_
      rw [hnames, passed_concat]
      exact List.mem_append_right _ (List.mem_singleton_self _)
  have hnul' : '\x00' ∉ (joinPath dir name).toList := by
    rw [joinPath]
    split_ifs
    · exact hname.noNul
    · simp [hnul, hname.noNul]
    · simp [hnul, hname.noNul]
  refine ⟨t.put (placeOf cwd dir) name .file hdir hfree, ?_⟩
  rw [writeFile, if_neg hnul', hname.pathNames_joinPath, List.dropLast_concat, List.getLast?_concat,
    hname.startOf_joinPath]
  refine bind_eq_ok.mpr ⟨_, hwalk, ?_⟩
  dsimp only
  rw [if_neg (by simp [hname.noUp, hname.endsInDot_joinPath]), if_neg hclosed, dif_pos ⟨hdir, hfree⟩]

end Tree

end Files

end Ao2

/-! ## Files with their contents -/

namespace Ao2

namespace Files

inductive FileNode where
  | file (content : Octets)
  | dir (entries : List (String × FileNode))
  | link (target : Option FileNode)
  /-- A socket, a pipe or a device. -/
  | other

namespace FileNode

/-- What a node is when links are followed. -/
def follow : FileNode → Option FileNode
  | link target => target
  | n => some n

/-- What is read of a file. -/
def bytes? (n : FileNode) : Option Octets :=
  match n.follow with
  | some (file content) => some content
  | _ => none

/-- What is listed in a directory. -/
def entries? (n : FileNode) : Option (List (String × FileNode)) :=
  match n.follow with
  | some (dir entries) => some entries
  | _ => none

def child? (n : FileNode) (name : String) : Option FileNode := n.entries?.bind (List.lookup name)

/-! ### Going down -/

@[simp] theorem child?_dir (entries : List (String × FileNode)) (name : String) :
    (dir entries).child? name = entries.lookup name := rfl

end FileNode

end Files

end Ao2
