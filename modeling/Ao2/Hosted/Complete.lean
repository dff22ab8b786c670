import Ao2.Hosted.Readers

/-!
# Hosted releases that are complete

A directory is verified just when the rows of its checksum file are those of the other assets, each of
which is a plain file with the digest of its row, and the plan says what the contract says, with each
platform once.

## Main results

* `verifyChecksums_eq_ok`, `verifyPlan_eq_ok` — both documents, exactly
-/

namespace Ao2

namespace Hosted

namespace Contract

open Files

/-! ### Members and rows -/

theorem sameMembers_iff {a b : List String} : sameMembers a b = true ↔ ∀ x, x ∈ a ↔ x ∈ b := by
  rw [sameMembers, Bool.and_eq_true, List.all_eq_true, List.all_eq_true]
  constructor
  · exact fun h x => ⟨fun hx => of_decide_eq_true (h.1 x hx), fun hx => of_decide_eq_true (h.2 x hx)⟩
  · exact fun h => ⟨fun x hx => decide_eq_true ((h x).mp hx), fun x hx => decide_eq_true ((h x).mpr hx)⟩

/-- **The rows of a checksum file**, no name of which is there twice. -/
theorem parseRows_eq_ok {lines : List (List Char)} {parsed result : List (String × String)}
    (hnodup : (parsed.map Prod.fst).Nodup) : parseRows lines parsed = .ok result ↔
      ∃ added, result = parsed ++ added ∧ (result.map Prod.fst).Nodup ∧
        List.Forall₂ (fun line row => checksumRow isNameChar line = some row) lines added := by
  constructor
  · intro h
    obtain ⟨hresult, added, heq, hadded⟩ := parseChecksums_eq_ok
      ((@parseRows_eq_ok_iff "" lines parsed result).mp h) hnodup
    exact ⟨added, heq, hresult, hadded⟩
  · rintro ⟨added, rfl, hresult, hadded⟩
    induction hadded generalizing parsed with
    | nil => rw [parseRows, List.append_nil]
    | @cons line row lines added hrow _ ih =>
      rw [List.append_cons] at hresult ⊢
      have hnodup' : ((parsed ++ [row]).map Prod.fst).Nodup := by
        rw [List.map_append] at hresult
        exact (List.nodup_append.mp hresult).1
      have hnew : row.1 ∉ parsed.map Prod.fst := by
        rw [List.map_append] at hnodup'
        exact fun hmem => (List.nodup_append.mp hnodup').2.2 _ hmem _ List.mem_cons_self rfl
      have hnone : parsed.lookup row.1 = none := by
        rw [List.lookup_eq_none_iff]
        exact fun member hmember => bne_iff_ne.mpr fun heq =>
          hnew (List.mem_map.mpr ⟨member, hmember, heq.symm⟩)
      rw [parseRows_cons, hrow]
      dsimp only
      rw [hnone, Option.isSome_none, if_neg Bool.false_ne_true]
      exact ih hnodup' hresult

/-- The assets that have a row. -/
def checkedAssets (version : String) : List String :=
  (expectedHostedReleaseAssets version).filter (· ≠ "SHA256SUMS")

theorem nodup_checkedAssets (version : String) : (checkedAssets version).Nodup := by
  have hname (target : String) : archiveName version target =
      "ao2-" ++ version ++ ("-" ++ target ++ ".tar.gz") := by
    rw [archiveName, String.append_assoc, String.append_assoc, String.append_assoc, String.append_assoc,
      String.append_assoc]
  have hsame : (expectedHostedReleaseAssets version).Perm (publishedNames version ++ ["SHA256SUMS"]) := by
    simp only [publishedNames, Hosted.targets, List.map_cons, List.map_nil, hname]
    exact .swap _ _ _
  exact (hsame.symm.nodup_iff.mp (nodup_publishedNames version)).filter _

/-- The rows of a checksum file, each with the name and the digest in it. -/
def HasRows (text : List Char) (rows : List (String × String)) : Prop :=
  List.Forall₂ (fun line row => IsRow isNameChar line row.2.toList row.1.toList) (lines text) rows

theorem parseRows_lines_eq_ok {text : List Char} {version : String} {rows : List (String × String)} :
    (parseRows (lines text) [] = .ok rows ∧
      sameMembers (rows.map Prod.fst) (checkedAssets version) = true) ↔
    HasRows text rows ∧ (rows.map Prod.fst).Perm (checkedAssets version) := by
  have hrows : List.Forall₂ (fun line row => checksumRow isNameChar line = some row) (lines text) rows ↔
      HasRows text rows :=
    ⟨fun h => h.imp fun _ _ => checksumRow_eq_some_iff.mp, fun h => h.imp fun _ _ => checksumRow_eq_some_iff.mpr⟩
  have hnil : (([] : List (String × String)).map Prod.fst).Nodup := List.nodup_nil
  rw [parseRows_eq_ok hnil, sameMembers_iff]
  constructor
  · rintro ⟨⟨added, rfl, hnodup, hadded⟩, hnames⟩
    exact ⟨hrows.mp hadded, (List.perm_ext_iff_of_nodup hnodup (nodup_checkedAssets version)).mpr hnames⟩
  · rintro ⟨hadded, hperm⟩
    exact ⟨⟨rows, rfl, hperm.symm.nodup_iff.mp (nodup_checkedAssets version), hrows.mpr hadded⟩,
      fun _ => hperm.mem_iff⟩

section

variable [ReleaseLibrary]

/-- A plain file with the digest of its row. -/
def HasDigest (root : FileNode) (row : String × String) : Prop :=
  ∃ content, root.child? row.1 = some (.file content) ∧ sha256 content = row.2

omit [ReleaseLibrary] in
theorem regular?_eq_some {n : FileNode} {content : Octets} :
    regular? n = some content ↔ n = .file content := by
  cases n with
  | file content' => exact ⟨fun h => congrArg _ (Option.some.inj h), fun h => congrArg _ (FileNode.file.inj h)⟩
  | dir entries => exact ⟨fun h => (by cases h), fun h => (by cases h)⟩
  | link target => exact ⟨fun h => (by cases h), fun h => (by cases h)⟩
  | other => exact ⟨fun h => (by cases h), fun h => (by cases h)⟩

theorem verifyAsset_eq_ok {root : FileNode} {row : String × String} :
    verifyAsset root row = .ok () ↔ HasDigest root row := by
  rw [verifyAsset, HasDigest]
  cases hchild : root.child? row.1 with
  | none => exact ⟨fun h => (by cases h), fun ⟨_, h, _⟩ => (by cases h)⟩
  | some n =>
    dsimp only
    cases hregular : regular? n with
    | none =>
      refine ⟨fun h => (by cases h), ?_⟩
      rintro ⟨content, hn, -⟩
      rw [regular?_eq_some.mpr (Option.some.inj hn)] at hregular
      cases hregular
    | some content =>
      rw [regular?_eq_some.mp hregular, errorIf_eq_ok, decide_eq_false_iff_not, not_not]
      constructor
      · exact fun h => ⟨content, rfl, h⟩
      · rintro ⟨content', heq, h⟩
        rwa [FileNode.file.inj (Option.some.inj heq)]

/-- The text of the checksum file. -/
def checksumText? (root : FileNode) : Option (List Char) :=
  ((root.child? "SHA256SUMS").bind FileNode.bytes?).bind decodeUtf8

/-- **The checksum file**, exactly. -/
theorem verifyChecksums_eq_ok {root : FileNode} {version : String} {sorted : List (String × String)} :
    verifyChecksums root (expectedHostedReleaseAssets version) = .ok sorted ↔
      ∃ text rows, checksumText? root = some text ∧ HasRows text rows ∧
        (rows.map Prod.fst).Perm (checkedAssets version) ∧ (∀ row ∈ rows, HasDigest root row) ∧
        sorted = sortedRows rows := by
  unfold verifyChecksums
  rw [← checksumText?]
  cases htext : checksumText? root with
  | none =>
    constructor
    · intro h
      cases h
    · rintro ⟨_, _, h, -⟩
      cases h
  | some text =>
    dsimp only
    constructor
    · intro h
      obtain ⟨rows, hrows, h⟩ := bind_eq_ok.mp h
      obtain ⟨hnames, h⟩ := seq_eq_ok.mp h
      obtain ⟨hdigests, h⟩ := seq_eq_ok.mp h
      rw [errorIf_eq_ok, Bool.not_eq_false'] at hnames
      obtain ⟨hrows, hperm⟩ := parseRows_lines_eq_ok.mp ⟨hrows, hnames⟩
      exact ⟨text, rows, rfl, hrows, hperm, fun row hrow => verifyAsset_eq_ok.mp
        (forM_eq_ok.mp hdigests row ((List.mem_insertionSort _).mpr hrow)), (Except.ok.inj h).symm⟩
    · rintro ⟨text', rows, heq, hrows, hperm, hdigests, rfl⟩
      obtain rfl := Option.some.inj heq
      obtain ⟨hrows, hnames⟩ := parseRows_lines_eq_ok.mpr ⟨hrows, hperm⟩
      refine bind_eq_ok.mpr ⟨rows, hrows, seq_eq_ok.mpr ⟨?_, seq_eq_ok.mpr ⟨?_, rfl⟩⟩⟩
      · rw [errorIf_eq_ok, Bool.not_eq_false']
        exact hnames
      · exact forM_eq_ok.mpr fun row hrow => verifyAsset_eq_ok.mpr
          (hdigests row ((List.mem_insertionSort _).mp hrow))

end

/-! ### The plan -/

/-- The rows that are looked up in the checksum file. -/
theorem lookup_sortedRows {version : String} {rows : List (String × String)}
    (hperm : (rows.map Prod.fst).Perm (checkedAssets version)) {name digest : String} :
    (sortedRows rows).lookup name = some digest ↔ (name, digest) ∈ rows := by
  have hsame : (sortedRows rows).Perm rows := List.perm_insertionSort _ _
  have hnodup : ((sortedRows rows).map Prod.fst).Nodup :=
    ((hsame.map _).trans hperm).symm.nodup_iff.mp (nodup_checkedAssets version)
  constructor
  · intro h
    obtain ⟨before, after, heq, -⟩ := List.lookup_eq_some_iff.mp h
    exact hsame.mem_iff.mp (heq ▸ List.mem_append_right _ List.mem_cons_self)
  · exact fun h => lookup_of_nodup hnodup (hsame.mem_iff.mpr h)

/-- A value with so many hexadecimal digits under a key. -/
def HasHex (v : Json) (key : String) (n : ℕ) : Prop :=
  ∃ digest, textOf v key = some digest ∧ isLowerHexText digest n = true

theorem hasHex_iff {v : Json} {key : String} {n : ℕ} :
    (textOf v key).any (isLowerHexText · n) = true ↔ HasHex v key n := by
  rw [HasHex, Option.any_eq_true]

/-- An object with exactly some keys. -/
def HasKeys (v : Json) (keys : List String) : Prop :=
  ∃ members, keysOf v = some members ∧ ∀ key, key ∈ members ↔ key ∈ keys

/-- A row of the artifacts for a platform: its runner, its triple, the name of its archive, and the
digest of that archive. -/
structure IsArtifact (version : String) (rows : List (String × String)) (item : Json)
    (target : String × String × String) : Prop where
  keys : HasKeys item artifactKeys
  name : textOf item "target" = some target.1
  runner : textOf item "runner" = some target.2.1
  targetTriple : textOf item "target_triple" = some target.2.2
  canonical : (item.get? "canonical_public_archive").bind Json.bool? = some true
  archive : (textOf item "archive").bind fileName = some ("ao2-" ++ version ++ "-" ++ target.1 ++ ".tar.gz")
  digest : ∃ digest, textOf item "sha256" = some digest ∧
    ("ao2-" ++ version ++ "-" ++ target.1 ++ ".tar.gz", digest) ∈ rows

theorem find?_targets {name : String} {target : String × String × String} :
    targets.find? (fun expected => expected.1 = name) = some target ↔
      target ∈ targets ∧ target.1 = name := by
  constructor
  · intro h
    have hname := List.find?_some h
    exact ⟨List.mem_of_find?_eq_some h, of_decide_eq_true hname⟩
  · rintro ⟨hmem, rfl⟩
    have hall : ∀ target ∈ targets,
        targets.find? (fun expected => expected.1 = target.1) = some target := by decide
    exact hall target hmem

/-- What the digests of the checksum file are. -/
structure Listing (checksums rows : List (String × String)) : Prop where
  lookup : ∀ name digest, checksums.lookup name = some digest ↔ (name, digest) ∈ rows
  hex : ∀ row ∈ rows, isLowerHexText row.2 64 = true

/-- **A row of the artifacts**, exactly. -/
theorem verifyArtifact_eq_ok {version : String} {checksums rows : List (String × String)}
    (hlisting : Listing checksums rows) {seen seen' : List String} {item : Json} :
    verifyArtifact version (some checksums) seen item = .ok seen' ↔ ∃ target ∈ targets,
      IsArtifact version rows item target ∧ target.1 ∉ seen ∧ seen' = target.1 :: seen := by
  rw [verifyArtifact]
  constructor
  · intro h
    split at h
    · cases h
    · rename_i keys hkeys
      obtain ⟨hmembers, h⟩ := seq_eq_ok.mp h
      rw [errorIf_eq_ok, Bool.not_eq_false', sameMembers_iff] at hmembers
      split at h
      · cases h
      · rename_i name hname
        split at h
        · cases h
        · rename_i first runner targetTriple hfind
          obtain ⟨hcontract, h⟩ := seq_eq_ok.mp h
          obtain ⟨hdigest, h⟩ := seq_eq_ok.mp h
          obtain ⟨hmem, hfirst⟩ := find?_targets.mp hfind
          obtain rfl : first = name := hfirst
          simp only [errorIf_eq_ok, Bool.or_eq_false_iff, decide_eq_false_iff_not, not_not, ne_eq]
            at hcontract hdigest
          obtain ⟨⟨⟨hseen, hrunner⟩, htriple⟩, hcanonical⟩ := hcontract
          obtain ⟨⟨harchive, hhex⟩, hlookup⟩ := hdigest
          rw [Bool.not_eq_false', Option.any_eq_true] at hhex
          obtain ⟨digest, hsha, -⟩ := hhex
          rw [hsha] at hlookup
          exact ⟨_, hmem, ⟨⟨keys, hkeys, hmembers⟩, hname, hrunner, htriple, hcanonical, harchive,
            digest, hsha, (hlisting.lookup _ _).mp hlookup⟩, hseen, (Except.ok.inj h).symm⟩
  · rintro ⟨⟨name, runner, targetTriple⟩, hmem, hitem, hseen, rfl⟩
    obtain ⟨keys, hkeys, hmembers⟩ := hitem.keys
    obtain ⟨digest, hsha, hrow⟩ := hitem.digest
    rw [hkeys]
    refine seq_eq_ok.mpr ⟨?_, ?_⟩
    · rw [errorIf_eq_ok, Bool.not_eq_false']
      exact sameMembers_iff.mpr hmembers
    rw [hitem.name]
    dsimp only
    rw [find?_targets.mpr ⟨hmem, rfl⟩]
    refine seq_eq_ok.mpr ⟨?_, seq_eq_ok.mpr ⟨?_, rfl⟩⟩
    · simp only [errorIf_eq_ok, Bool.or_eq_false_iff, decide_eq_false_iff_not, not_not, ne_eq]
      exact ⟨⟨⟨hseen, hitem.runner⟩, hitem.targetTriple⟩, hitem.canonical⟩
    · simp only [errorIf_eq_ok, Bool.or_eq_false_iff, decide_eq_false_iff_not, not_not, ne_eq]
      refine ⟨⟨hitem.archive, ?_⟩, ?_⟩
      · rw [Bool.not_eq_false', Option.any_eq_true]
        exact ⟨digest, hsha, hlisting.hex _ hrow⟩
      · rw [hsha]
        exact (hlisting.lookup _ _).mpr hrow

/-- Rows of artifacts, one after another. -/
theorem foldlM_verifyArtifact_eq_ok {version : String} {checksums rows : List (String × String)}
    (hlisting : Listing checksums rows) {seen seen' : List String} {items : List Json} :
    items.foldlM (verifyArtifact version (some checksums)) seen = .ok seen' ↔
      ∃ order, List.Forall₂ (IsArtifact version rows) items order ∧ (∀ target ∈ order, target ∈ targets) ∧
        (order.map Prod.fst).Nodup ∧ (∀ target ∈ order, target.1 ∉ seen) ∧
        seen' = (order.map Prod.fst).reverse ++ seen := by
  induction items generalizing seen with
  | nil =>
    constructor
    · intro h
      exact ⟨[], .nil, List.forall_mem_nil _, List.nodup_nil, List.forall_mem_nil _,
        (Except.ok.inj h).symm⟩
    · rintro ⟨order, horder, -, -, -, rfl⟩
      cases horder
      rfl
  | cons item items ih =>
    rw [List.foldlM_cons, bind_eq_ok]
    constructor
    · rintro ⟨seen'', hitem, h⟩
      obtain ⟨target, htarget, his, hnew, rfl⟩ := (verifyArtifact_eq_ok hlisting).mp hitem
      obtain ⟨order, horder, hmem, hnodup, hseen, rfl⟩ := ih.mp h
      refine ⟨target :: order, .cons his horder, List.forall_mem_cons.mpr ⟨htarget, hmem⟩, ?_, ?_, ?_⟩
      · rw [List.map_cons, List.nodup_cons]
        refine ⟨fun hfirst => ?_, hnodup⟩
        obtain ⟨other, hother, heq⟩ := List.mem_map.mp hfirst
        exact hseen other hother (heq ▸ List.mem_cons_self)
      · exact List.forall_mem_cons.mpr ⟨hnew, fun other hother hold =>
          hseen other hother (List.mem_cons_of_mem _ hold)⟩
      · rw [List.map_cons, List.reverse_cons, List.append_assoc]
        rfl
    · rintro ⟨order, horder, hmem, hnodup, hseen, rfl⟩
      cases horder with
      | @cons _ target _ order hitem horder =>
        rw [List.forall_mem_cons] at hmem hseen
        rw [List.map_cons, List.nodup_cons] at hnodup
        refine ⟨target.1 :: seen, (verifyArtifact_eq_ok hlisting).mpr ⟨target, hmem.1, hitem, hseen.1, rfl⟩,
          ih.mpr ⟨order, horder, hmem.2, hnodup.2, fun other hother hold => ?_, ?_⟩⟩
        · rcases List.mem_cons.mp hold with heq | hold
          · exact hnodup.1 (heq ▸ List.mem_map_of_mem hother)
          · exact hseen.2 other hother hold
        · rw [List.map_cons, List.reverse_cons, List.append_assoc]
          rfl

/-- The rows of the artifacts, each platform once. -/
def HasArtifacts (plan : Json) (version : String) (rows : List (String × String)) : Prop :=
  ∃ items order, plan.get? "artifacts" = some (.arr items) ∧ order.Perm targets ∧
    List.Forall₂ (IsArtifact version rows) items order

theorem perm_targets {order : List (String × String × String)} (hmem : ∀ target ∈ order, target ∈ targets)
    (hnodup : (order.map Prod.fst).Nodup) (hlength : order.length = targets.length) :
    order.Perm targets :=
  ((List.subperm_of_subset (List.Nodup.of_map _ hnodup) hmem).perm_of_length_le hlength.ge)

theorem verifyArtifacts_eq_ok {plan : Json} {version : String} {checksums rows : List (String × String)}
    (hlisting : Listing checksums rows) :
    verifyArtifacts (plan.get? "artifacts") version (some checksums) = .ok () ↔
      HasArtifacts plan version rows := by
  rw [verifyArtifacts]
  constructor
  · intro h
    split at h
    · cases h
    · rename_i items hitems
      obtain ⟨hlength, h⟩ := seq_eq_ok.mp h
      obtain ⟨seen, hseen, hcount⟩ := bind_eq_ok.mp h
      obtain ⟨order, horder, hmem, hnodup, -, rfl⟩ := (foldlM_verifyArtifact_eq_ok hlisting).mp hseen
      rw [errorIf_eq_ok, decide_eq_false_iff_not, ne_eq, not_not] at hlength
      obtain ⟨v, hv, harr⟩ := Option.bind_eq_some_iff.mp hitems
      refine ⟨items, order, ?_, perm_targets hmem hnodup (horder.length_eq.symm.trans hlength), horder⟩
      rw [hv]
      cases v <;> cases harr
      rfl
  · rintro ⟨items, order, hitems, hperm, horder⟩
    rw [hitems]
    have hlength := horder.length_eq.trans hperm.length_eq
    refine seq_eq_ok.mpr ⟨?_, bind_eq_ok.mpr ⟨(order.map Prod.fst).reverse ++ [],
      (foldlM_verifyArtifact_eq_ok hlisting).mpr ⟨order, horder, fun _ => hperm.mem_iff.mp, ?_,
        fun _ _ => List.not_mem_nil, rfl⟩, ?_⟩⟩
    · rw [errorIf_eq_ok, decide_eq_false_iff_not, ne_eq, not_not]
      exact hlength
    · exact (hperm.map Prod.fst).symm.nodup_iff.mp (by decide)
    · rw [errorIf_eq_ok, decide_eq_false_iff_not, ne_eq, not_not, List.append_nil, List.length_reverse,
        List.length_map, hperm.length_eq]

/-- What a plan says. -/
structure IsPlan (plan : Json) (version releaseTag : String) (rows : List (String × String)) : Prop where
  keys : HasKeys plan planKeys
  schema : textOf plan "schema_version" = some planSchema
  status : textOf plan "status" = some "passed"
  sameVersion : textOf plan "version" = some version
  sameTag : textOf plan "tag" = some releaseTag
  manifest : HasHex plan "approved_asset_manifest_sha256" 64
  physicalEvidence : HasHex plan "physical_windows_evidence_sha256" 64
  source : HasHex plan "source_sha" 40
  artifacts : HasArtifacts plan version rows
  windows : plan.get? "windows" = some windowsBoundary
  trust : plan.get? "trust_boundary" = some trustBoundary
  policy : plan.get? "rejection_policy" = some rejectionPolicy

theorem verifyPlanValue_eq_ok {plan : Json} {version releaseTag : String}
    {checksums rows : List (String × String)} (hlisting : Listing checksums rows) :
    verifyPlanValue plan version releaseTag (some checksums) = .ok () ↔
      IsPlan plan version releaseTag rows := by
  rw [verifyPlanValue]
  cases hkeys : keysOf plan with
  | none =>
    refine ⟨fun h => (by cases h), fun h => ?_⟩
    obtain ⟨keys, heq, -⟩ := h.keys
    rw [hkeys] at heq
    cases heq
  | some keys =>
    dsimp only
    simp only [seq_eq_ok, forM_eq_ok, List.forall_mem_cons, List.not_mem_nil, false_implies, implies_true,
      and_true, errorIf_eq_ok, Bool.not_eq_false', sameMembers_iff, decide_eq_false_iff_not, not_not,
      ne_eq, hasHex_iff, verifyArtifacts_eq_ok hlisting, verifyWindowsBoundary, verifyTrustBoundary,
      verifyRejectionPolicy]
    constructor
    · rintro ⟨hmembers, ⟨hschema, hstatus, hversion, htag⟩, ⟨hmanifest, hphysical⟩, hsource, hartifacts,
        hwindows, htrust, hpolicy⟩
      exact ⟨⟨keys, hkeys, hmembers⟩, hschema, hstatus, hversion, htag, hmanifest, hphysical, hsource,
        hartifacts, hwindows, htrust, hpolicy⟩
    · intro h
      obtain ⟨keys', heq, hmembers⟩ := h.keys
      obtain rfl := Option.some.inj (hkeys.symm.trans heq)
      exact ⟨hmembers, ⟨h.schema, h.status, h.sameVersion, h.sameTag⟩, ⟨h.manifest, h.physicalEvidence⟩,
        h.source, h.artifacts, h.windows, h.trust, h.policy⟩

section

variable [ReleaseLibrary] [SerdeJson]

/-- The plan in a directory: a plain file within the limit that is read. -/
def HasPlan (root : FileNode) (plan : Json) : Prop :=
  ∃ content, root.child? "promotion-plan.json" = some (.file content) ∧ content.length ≤ maxPlanBytes ∧
    fromSlice content = some plan

omit [ReleaseLibrary] in
/-- **The plan**, exactly. -/
theorem verifyPlan_eq_ok {root : FileNode} {version releaseTag : String} {plan : Json}
    {checksums rows : List (String × String)} (hlisting : Listing checksums rows) :
    verifyPlan root version releaseTag (some checksums) = .ok plan ↔
      HasPlan root plan ∧ IsPlan plan version releaseTag rows := by
  rw [verifyPlan]
  constructor
  · intro h
    split at h
    · cases h
    · rename_i n hchild
      split at h
      · cases h
      · rename_i content hregular
        obtain ⟨hsize, h⟩ := seq_eq_ok.mp h
        rw [errorIf_eq_ok, decide_eq_false_iff_not, not_lt] at hsize
        split at h
        · cases h
        · rename_i value hvalue
          obtain ⟨hplan, h⟩ := seq_eq_ok.mp h
          obtain rfl := Except.ok.inj h
          obtain rfl := regular?_eq_some.mp hregular
          exact ⟨⟨content, hchild, hsize, hvalue⟩, (verifyPlanValue_eq_ok hlisting).mp hplan⟩
  · rintro ⟨⟨content, hchild, hsize, hvalue⟩, hplan⟩
    rw [hchild]
    dsimp only
    rw [regular?_eq_some.mpr rfl]
    refine seq_eq_ok.mpr ⟨?_, ?_⟩
    · rw [errorIf_eq_ok, decide_eq_false_iff_not, not_lt]
      exact hsize
    · rw [hvalue]
      exact seq_eq_ok.mpr ⟨(verifyPlanValue_eq_ok hlisting).mpr hplan, rfl⟩

/-- **A directory that is complete**: a row for each asset but the checksum file, each asset a plain file
with the digest of its row, and a plan that says what the contract says of these. -/
def IsComplete (root : FileNode) (version releaseTag : String) : Prop :=
  ∃ text rows plan, checksumText? root = some text ∧ HasRows text rows ∧
    (rows.map Prod.fst).Perm (checkedAssets version) ∧ (∀ row ∈ rows, HasDigest root row) ∧
    HasPlan root plan ∧ IsPlan plan version releaseTag rows

omit [ReleaseLibrary] [SerdeJson] in
theorem listing_of_hasRows {text : List Char} {version : String} {rows : List (String × String)}
    (hrows : HasRows text rows) (hperm : (rows.map Prod.fst).Perm (checkedAssets version)) :
    Listing (sortedRows rows) rows where
  lookup _ _ := lookup_sortedRows hperm
  hex row hrow := by
    obtain ⟨line, -, hline⟩ := exists_of_forall₂ hrows.flip hrow
    rw [isLowerHexText, Bool.and_eq_true, decide_eq_true_eq]
    exact ⟨hline.length, hline.hex⟩

omit [ReleaseLibrary] [SerdeJson] in
theorem toOption_eq_some {α : Type} {x : Except String α} {a : α} : x.toOption = some a ↔ x = .ok a := by
  cases x with
  | error e => exact ⟨fun h => (by cases h), fun h => (by cases h)⟩
  | ok b => exact ⟨fun h => congrArg _ (Option.some.inj h), fun h => congrArg _ (Except.ok.inj h)⟩

theorem isComplete_of_verified {root : FileNode} {version releaseTag : String}
    (h : (verifyHostedReleaseDirectory root version releaseTag).verified = true) :
    IsComplete root version releaseTag := by
  rw [verifyHostedReleaseDirectory, Bool.and_eq_true, Bool.and_eq_true] at h
  obtain ⟨⟨hchecksums, hplan⟩, -⟩ := h
  obtain ⟨sorted, hsorted⟩ := Option.isSome_iff_exists.mp hchecksums
  obtain ⟨text, rows, htext, hrows, hperm, hdigests, rfl⟩ :=
    verifyChecksums_eq_ok.mp (toOption_eq_some.mp hsorted)
  rw [hsorted] at hplan
  obtain ⟨plan, hplan⟩ := Option.isSome_iff_exists.mp hplan
  obtain ⟨hfile, hplan⟩ := (verifyPlan_eq_ok (listing_of_hasRows hrows hperm)).mp (toOption_eq_some.mp hplan)
  exact ⟨text, rows, plan, htext, hrows, hperm, hdigests, hfile, hplan⟩

/-- **A release is verified just when it is complete.** -/
theorem verified_iff_isComplete (root : FileNode) (version releaseTag : String) :
    (verifyHostedReleaseDirectory root version releaseTag).verified = true ↔
      IsComplete root version releaseTag := by
  refine ⟨isComplete_of_verified, ?_⟩
  rintro ⟨text, rows, plan, htext, hrows, hperm, hdigests, hfile, hplan⟩
  have hok := verifyChecksums_eq_ok.mpr ⟨text, rows, htext, hrows, hperm, hdigests, rfl⟩
  have hplanOk := (verifyPlan_eq_ok (listing_of_hasRows hrows hperm)).mpr ⟨hfile, hplan⟩
  rw [verifyHostedReleaseDirectory, Bool.and_eq_true, Bool.and_eq_true, decide_eq_true_eq, hok]
  dsimp only [Except.toOption]
  rw [hplanOk]
  exact ⟨⟨rfl, rfl⟩, hplan.sameTag⟩

/-- A directory that is complete but for what else the contract says of the plan. -/
def IsListed (root : FileNode) (version releaseTag : String) : Prop :=
  ∃ text rows plan, checksumText? root = some text ∧ HasRows text rows ∧
    (rows.map Prod.fst).Perm (checkedAssets version) ∧ (∀ row ∈ rows, HasDigest root row) ∧
    HasPlan root plan ∧ HasKeys plan planKeys ∧ textOf plan "version" = some version ∧
    textOf plan "tag" = some releaseTag ∧ HasArtifacts plan version rows

end

/-! ### A plan that failed -/

def emptyDigest : String := "e3b0c44298fc1c149afbf4c8996fb92427ae41e4649b934ca495991b7852b855"

def failedArtifact (target : String × String × String) : Json :=
  .object
    [("target", .str target.1), ("runner", .str target.2.1), ("target_triple", .str target.2.2),
      ("archive", .str ("ao2-1.0.0-" ++ target.1 ++ ".tar.gz")), ("sha256", .str emptyDigest),
      ("canonical_public_archive", .bool true)]

def failedPlan : Json :=
  .object
    [("schema_version", .str planSchema), ("status", .str "failed"), ("version", .str "1.0.0"),
      ("tag", .str "v1.0.0"), ("source_sha", .str "aaaaaaaaaaaaaaaaaaaaaaaaaaaaaaaaaaaaaaaa"),
      ("approved_asset_manifest_sha256",
        .str "cccccccccccccccccccccccccccccccccccccccccccccccccccccccccccccccc"),
      ("physical_windows_evidence_sha256",
        .str "bbbbbbbbbbbbbbbbbbbbbbbbbbbbbbbbbbbbbbbbbbbbbbbbbbbbbbbbbbbbbbbb"),
      ("artifacts", .arr (targets.map failedArtifact)), ("windows", windowsBoundary),
      ("rejection_policy", rejectionPolicy), ("trust_boundary", trustBoundary)]

def failedPlanFile : Octets := asciiBytes failedPlan.compactText

def planDigest : String := "ace8adc9db7fa7d384543e221a3fb5c8bb22525eefdc94688b0ac3674c1e5a19"

def failedRows : List (String × String) :=
  [("ao2-1.0.0-macos-aarch64.tar.gz", emptyDigest), ("ao2-1.0.0-linux-x86_64.tar.gz", emptyDigest),
    ("ao2-1.0.0-windows-x86_64.tar.gz", emptyDigest), ("promotion-plan.json", planDigest)]

def failedSums : List Char :=
  failedRows.flatMap fun row => row.2.toList ++ "  ".toList ++ row.1.toList ++ ['\n']

/-- A directory with empty archives and a plan that failed. -/
def failedRelease : FileNode :=
  .dir [("ao2-1.0.0-macos-aarch64.tar.gz", .file []), ("ao2-1.0.0-linux-x86_64.tar.gz", .file []),
    ("ao2-1.0.0-windows-x86_64.tar.gz", .file []), ("promotion-plan.json", .file failedPlanFile),
    ("SHA256SUMS", .file (asciiBytes failedSums))]

@[reducible] def failedLibrary : ReleaseLibrary where
  sha256 content := if content = [] then emptyDigest else planDigest
  untar _ := none

@[reducible] def failedReader : SerdeJson where
  fromSlice content := if content = failedPlanFile then some failedPlan else none

attribute [local instance] failedLibrary failedReader

set_option maxRecDepth 100000 in
theorem ascii_failedSums : ∀ c ∈ failedSums, c.toNat < 128 := by
  have hall : (failedSums.all fun c => c.toNat < 128) = true := by decide +kernel
  exact fun c hc => of_decide_eq_true (List.all_eq_true.mp hall c hc)

theorem rows_failedSums : parseRows (lines failedSums) [] = .ok failedRows ∧
    sameMembers (failedRows.map Prod.fst) (checkedAssets "1.0.0") = true := by decide +kernel

theorem failedPlanFile_ne : failedPlanFile ≠ [] := List.cons_ne_nil _ _

set_option maxRecDepth 100000 in
theorem length_failedPlanFile : failedPlanFile.length ≤ maxPlanBytes := by
  rw [failedPlanFile, asciiBytes, List.length_map]
  decide +kernel

theorem artifacts_failedPlan : HasArtifacts failedPlan "1.0.0" failedRows := by
  refine ⟨_, targets, rfl, .refl _, ?_⟩
  refine .cons ?_ (.cons ?_ (.cons ?_ .nil))
  all_goals
    exact ⟨⟨_, rfl, sameMembers_iff.mp (by decide)⟩, rfl, rfl, rfl, rfl, by decide +kernel,
      emptyDigest, rfl, by decide⟩

theorem child?_failedRelease :
    failedRelease.child? "promotion-plan.json" = some (.file failedPlanFile) ∧
      failedRelease.child? "SHA256SUMS" = some (.file (asciiBytes failedSums)) := ⟨rfl, rfl⟩

theorem fromSlice_failedPlanFile : fromSlice failedPlanFile = some failedPlan := if_pos rfl

theorem isListed_failedRelease : IsListed failedRelease "1.0.0" "v1.0.0" := by
  obtain ⟨hrows, hperm⟩ := parseRows_lines_eq_ok.mp rows_failedSums
  refine ⟨failedSums, failedRows, failedPlan, ?_, hrows, hperm, ?_, ?_, ?_, rfl, rfl,
    artifacts_failedPlan⟩
  · rw [checksumText?, child?_failedRelease.2]
    have hsums := decodeUtf8_of_ascii (decodeAscii_asciiBytes ascii_failedSums)
    have hbytes (content : Octets) : (FileNode.file content).bytes? = some content := rfl
    rwa [Option.bind_some, hbytes, Option.bind_some]
  · simp only [failedRows, List.forall_mem_cons]
    exact ⟨⟨[], rfl, if_pos rfl⟩, ⟨[], rfl, if_pos rfl⟩, ⟨[], rfl, if_pos rfl⟩,
      ⟨failedPlanFile, child?_failedRelease.1, if_neg failedPlanFile_ne⟩, List.forall_mem_nil _⟩
  · exact ⟨failedPlanFile, child?_failedRelease.1, length_failedPlanFile, fromSlice_failedPlanFile⟩
  · exact ⟨_, rfl, sameMembers_iff.mp (by decide)⟩

/-- The plan failed, and nothing else is wrong with the release. -/
theorem not_verified_iff_isListed : ¬ ∀ root version releaseTag,
    (verifyHostedReleaseDirectory root version releaseTag).verified = true ↔
      IsListed root version releaseTag := by
  intro hclaim
  have hverified := (hclaim failedRelease "1.0.0" "v1.0.0").mpr isListed_failedRelease
  obtain ⟨text, rows, plan, -, -, -, -, ⟨content, hchild, -, hvalue⟩, hplan⟩ :=
    isComplete_of_verified hverified
  rw [child?_failedRelease.1, Option.some.injEq, FileNode.file.injEq] at hchild
  rw [← hchild, fromSlice_failedPlanFile] at hvalue
  obtain rfl := Option.some.inj hvalue
  have hfailed : textOf failedPlan "status" = some "failed" := rfl
  have hsame := hfailed.symm.trans hplan.status
  exact absurd (Option.some.inj hsame) (by decide)

end Contract

end Hosted

end Ao2
