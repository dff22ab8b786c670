import Ao2.Checks
import Ao2.Publication.Contract
import Ao2.Queue.Entries
import Ao2.Texts.Lines
import Mathlib.Algebra.Ring.Int.Defs
import Mathlib.Algebra.Ring.Nat

/-!
# The attestation that nothing runs

The watchdog asks for an attestation that no run is active, from a snapshot of the queue. The snapshot
is gone through for entries with an active status. An `entries` that is no array is taken for an empty
one, what is no object is left out, a status that is not known is not active, and the number of entries
is taken from the snapshot.

## Main results

* `build_eq_ok_iff` — an attestation is made if and only if no object in the snapshot is active
* `attests_iff` — what is attested holds if and only if some entry is active or the snapshot is well formed
-/

namespace Ao2

namespace CancelAuthority

/-! ### The snapshot -/

def queueListSchema : String := "ao2.factory-v3-compat-workbench-queue-list.v1"

def activeStatuses : List String := ["queued", "running", "cancel_requested"]

def defaultReason : String :=
  "AO2 factory queue-list snapshot reports no active entries; the overdue Hermes one-shot has no " ++
    "in-flight AO2 run to cancel"

/-- A member that is a text; empty for any other. -/
def textMember (v : Json) (key : String) : String := ((v.get? key).bind Json.str?).getD ""

/-- A member that is a number of 64 bits with a sign. -/
def asI64 : Json → Option Int
  | .num n => if -9223372036854775808 ≤ n ∧ n < 9223372036854775808 then some n else none
  | _ => none

/-- The status of an entry, as it is counted. -/
def statusLabel (entry : Json) : String :=
  let stripped := trim (textMember entry "status")
  if stripped = "" then "unknown" else stripped

/-- One more entry with a status, in the order of the statuses. -/
def countStatus (label : String) : List (String × ℕ) → List (String × ℕ)
  | [] => [(label, 1)]
  | (k, n) :: counts =>
    if k = label then (k, n + 1) :: counts
    else if label < k then (label, 1) :: (k, n) :: counts
    else (k, n) :: countStatus label counts

def statusCounts (labels : List String) : List (String × ℕ) :=
  labels.foldl (fun counts label => countStatus label counts) []

/-- The entries of a snapshot that are looked at. -/
def seenEntries (queueList : Json) : List Json :=
  (((queueList.get? "entries").bind Json.arr?).getD []).filter Json.isObject

def activeEntries (queueList : Json) : List Json :=
  (seenEntries queueList).filter fun entry => statusLabel entry ∈ activeStatuses

/-- The number of entries that is attested. -/
def entryCount (queueList : Json) : Int :=
  ((queueList.get? "entry_count").bind asI64).getD (seenEntries queueList).length

/-- What is attested of a snapshot. -/
def snapshotSource (queueList : Json) : Json :=
  .object [("schema_version", .str queueListSchema),
    ("queue_path", .str (textMember queueList "queue_path")),
    ("entry_count", .num (entryCount queueList)), ("active_entry_count", .num 0),
    ("status_counts",
      .obj ((statusCounts ((seenEntries queueList).map statusLabel)).map fun m => (m.1, .nat m.2)))]

def buildFactoryCancelAuthorityAttestation (queueList : Json) (reason : Option String)
    (producedAtMs : Int) : Except String Json := do
  let active := (activeEntries queueList).map fun entry =>
    textMember entry "run_id" ++ "=" ++ statusLabel entry
  bailIf (active ≠ []) ("queue-list shows active AO2 queue entries; cannot emit no-active-ao2-runs " ++
    "attestation: " ++ ", ".intercalate active)
  .ok (.object [("schema", .str "factory-v3/ao2-watchdog-no-active-ao2-runs-attestation/v1"),
    ("factory_v3_role", .str "parity_oracle_only"), ("no_active_ao2_runs", .bool true),
    ("reason", .str (reason.getD defaultReason)), ("produced_at_ms", .num producedAtMs),
    ("source", snapshotSource queueList)])

/-- The file is given by its text, if it can be read. -/
def factoryCancelAuthorityJson [JsonText] (queueListJson : String) (content : Option String)
    (reason : Option String) (producedAtMs : Option Int) (now : Int) : Except String Json := do
  let text ← orContext content ("--queue-list-json input unreadable: " ++ queueListJson)
  let parsed ← orContext (parseJson text)
    ("--queue-list-json input is not valid JSON: " ++ queueListJson)
  bailIf (!parsed.isObject)
    ("--queue-list-json input did not parse to a JSON object: " ++ queueListJson)
  let schema := textMember parsed "schema_version"
  bailIf (schema ≠ queueListSchema) ("queue-list schema_version must be \"" ++ queueListSchema ++
    "\"; got \"" ++ schema ++ "\" in " ++ queueListJson)
  buildFactoryCancelAuthorityAttestation parsed reason (producedAtMs.getD now)

/-! ### What is promised -/

/-- An object whose status is a terminal one, up to white space around it. -/
def Ended (entry : Json) : Prop :=
  entry.isObject = true ∧ factoryQueueStatusIsTerminal (trim (textMember entry "status")) = true

/-- **A snapshot in which every entry is in a terminal status.** -/
def WellFormed (queueList : Json) : Prop :=
  ∃ entries, queueList.get? "entries" = some (.arr entries) ∧ (∀ entry ∈ entries, Ended entry) ∧
    ∀ count, queueList.get? "entry_count" = some count → count = .nat entries.length

/-- The sum of the numbers in an object. -/
def memberSum : Json → Int
  | .obj members => (members.map fun m => match m.2 with | .num n => n | _ => 0).sum
  | _ => 0

/-- **What an attestation promises**: that every entry of the snapshot has ended, and that its numbers
agree. -/
def Attests (queueList attestation : Json) : Prop :=
  attestation.get? "no_active_ao2_runs" = some (.bool true) →
    WellFormed queueList ∧
      (attestation.index "source").index "entry_count" =
        .num (memberSum ((attestation.index "source").index "status_counts"))

/-- An entry of the snapshot is active. -/
def SomeActive (queueList : Json) : Prop :=
  ∃ entry ∈ seenEntries queueList, statusLabel entry ∈ activeStatuses

/-- A snapshot of the accepted schema, as it is read. -/
def IsQueueList [JsonText] (content : Option String) (queueList : Json) : Prop :=
  content.bind parseJson = some queueList ∧ queueList.isObject = true ∧
    textMember queueList "schema_version" = queueListSchema

/-! ### Counting -/

theorem sum_countStatus (label : String) (counts : List (String × ℕ)) :
    ((countStatus label counts).map Prod.snd).sum = (counts.map Prod.snd).sum + 1 := by
  induction counts with
  | nil => rfl
  | cons m counts ih =>
    obtain ⟨k, n⟩ := m
    rw [countStatus]
    split_ifs with hk hlt
    · simp only [List.map_cons, List.sum_cons]
      omega
    · simp only [List.map_cons, List.sum_cons]
      omega
    · simp only [List.map_cons, List.sum_cons, ih]
      omega

/-- Every entry is counted once. -/
theorem sum_statusCounts (labels : List String) :
    ((statusCounts labels).map Prod.snd).sum = labels.length := by
  have hfold : ∀ counts : List (String × ℕ),
      ((labels.foldl (fun counts label => countStatus label counts) counts).map Prod.snd).sum =
        (counts.map Prod.snd).sum + labels.length := by
    induction labels with
    | nil => simp
    | cons label labels ih =>
      intro counts
      rw [List.foldl_cons, ih, sum_countStatus, List.length_cons]
      omega
  rw [statusCounts, hfold]
  simp

theorem memberSum_counts (counts : List (String × ℕ)) :
    memberSum (.obj (counts.map fun m => (m.1, .nat m.2))) = ((counts.map Prod.snd).sum : ℕ) := by
  induction counts with
  | nil => rfl
  | cons m counts ih =>
    rw [memberSum] at ih ⊢
    rw [List.map_cons, List.map_cons, List.sum_cons, ih, List.map_cons, List.sum_cons, Int.natCast_add]
    rfl

/-! ### What is attested -/

variable {queueList attestation : Json} {reason : Option String} {producedAtMs : Int}

theorem someActive_iff : SomeActive queueList ↔ activeEntries queueList ≠ [] := by
  simp [SomeActive, activeEntries]

/-- **An attestation is made if and only if no object in the snapshot is active.** -/
theorem build_eq_ok_iff :
    (∃ attestation,
        buildFactoryCancelAuthorityAttestation queueList reason producedAtMs = .ok attestation) ↔
      ¬ SomeActive queueList := by
  rw [someActive_iff, not_not]
  constructor
  · rintro ⟨attestation, h⟩
    obtain ⟨hactive, -⟩ := seq_eq_ok.mp h
    simpa using hactive
  · intro hnone
    refine ⟨_, seq_eq_ok.mpr ⟨?_, rfl⟩⟩
    simpa using hnone

/-- The numbers of an attestation. -/
theorem numbers_of_build
    (h : buildFactoryCancelAuthorityAttestation queueList reason producedAtMs = .ok attestation) :
    attestation.get? "no_active_ao2_runs" = some (.bool true) ∧
      (attestation.index "source").index "entry_count" = .num (entryCount queueList) ∧
      memberSum ((attestation.index "source").index "status_counts") = (seenEntries queueList).length := by
  obtain ⟨-, h⟩ := seq_eq_ok.mp h
  have hsource : attestation.index "source" = snapshotSource queueList := by
    rw [← Except.ok.inj h]
    exact Json.index_eq (Json.get?_object _ _)
  refine ⟨?_, ?_, ?_⟩
  · rw [← Except.ok.inj h]
    exact Json.get?_object _ _
  · rw [hsource]
    exact Json.index_eq (Json.get?_object _ _)
  · rw [hsource, snapshotSource, Json.index_eq (Json.get?_object _ _), memberSum_counts,
      sum_statusCounts, List.length_map]

theorem WellFormed.seenEntries_eq {entries : List Json}
    (hentries : queueList.get? "entries" = some (.arr entries))
    (hended : ∀ entry ∈ entries, Ended entry) : seenEntries queueList = entries := by
  rw [seenEntries, hentries]
  exact List.filter_eq_self.mpr fun entry hentry => (hended entry hentry).1

theorem asI64_getD (n : Int) : (asI64 (.num n)).getD n = n := by
  rw [asI64]
  split_ifs with hrange
  · rfl
  · rfl

/-- The number that is attested for a well-formed snapshot is that of its entries. -/
theorem WellFormed.entryCount_eq (h : WellFormed queueList) :
    entryCount queueList = (seenEntries queueList).length := by
  obtain ⟨entries, hentries, hended, hcount⟩ := h
  rw [entryCount, WellFormed.seenEntries_eq hentries hended]
  cases hgiven : queueList.get? "entry_count" with
  | none => rfl
  | some count =>
    rw [hcount count hgiven, Option.bind_some]
    exact asI64_getD entries.length

theorem attests_of_build
    (h : buildFactoryCancelAuthorityAttestation queueList reason producedAtMs = .ok attestation) :
    Attests queueList attestation ↔ WellFormed queueList := by
  obtain ⟨hattested, hcount, hsum⟩ := numbers_of_build h
  constructor
  · intro hattests
    exact (hattests hattested).1
  · intro hwell _
    refine ⟨hwell, ?_⟩
    rw [hcount, hsum, hwell.entryCount_eq]

section

variable [JsonText] {path : String} {content : Option String} {given : Option Int} {now : Int}

theorem factoryCancelAuthorityJson_eq_ok_iff :
    factoryCancelAuthorityJson path content reason given now = .ok attestation ↔
      ∃ queueList, IsQueueList content queueList ∧
        buildFactoryCancelAuthorityAttestation queueList reason (given.getD now) = .ok attestation := by
  constructor
  · intro h
    obtain ⟨text, htext, h⟩ := bind_eq_ok.mp h
    obtain ⟨queueList, hparse, h⟩ := bind_eq_ok.mp h
    obtain ⟨hobject, h⟩ := seq_eq_ok.mp h
    obtain ⟨hschema, h⟩ := seq_eq_ok.mp h
    refine ⟨queueList, ⟨?_, by simpa using hobject, by simpa using hschema⟩, h⟩
    rw [orContext_eq_ok.mp htext, Option.bind_some, orContext_eq_ok.mp hparse]
  · rintro ⟨queueList, ⟨hread, hobject, hschema⟩, h⟩
    obtain ⟨text, htext, hparse⟩ := Option.bind_eq_some_iff.mp hread
    refine bind_eq_ok.mpr ⟨text, orContext_eq_ok.mpr htext, bind_eq_ok.mpr
      ⟨queueList, orContext_eq_ok.mpr hparse, seq_eq_ok.mpr ⟨?_, seq_eq_ok.mpr ⟨?_, h⟩⟩⟩⟩
    · simpa using hobject
    · simpa using hschema

end

/-- **What is attested holds if and only if some entry is active**, and nothing is attested, **or the
snapshot is well formed.** -/
theorem attests_iff [JsonText] (path : String) (content reason : Option String) (given : Option Int)
    (now : Int) :
    (∀ queueList attestation, IsQueueList content queueList →
        factoryCancelAuthorityJson path content reason given now = .ok attestation →
          Attests queueList attestation) ↔
      ∀ queueList, IsQueueList content queueList → SomeActive queueList ∨ WellFormed queueList := by
  constructor
  · intro h queueList hlist
    by_cases hactive : SomeActive queueList
    · exact .inl hactive
    · obtain ⟨attestation, hbuild⟩ : ∃ attestation, buildFactoryCancelAuthorityAttestation
          queueList reason (given.getD now) = .ok attestation := build_eq_ok_iff.mpr hactive
      have hattests := h queueList attestation hlist
        (factoryCancelAuthorityJson_eq_ok_iff.mpr ⟨queueList, hlist, hbuild⟩)
      exact .inr ((attests_of_build hbuild).mp hattests)
  · intro h queueList attestation hlist hok
    obtain ⟨queueList', hlist', hbuild⟩ := factoryCancelAuthorityJson_eq_ok_iff.mp hok
    obtain rfl := Option.some.inj (hlist.1.symm.trans hlist'.1)
    rcases h queueList hlist with hactive | hwell
    · exact absurd hactive (build_eq_ok_iff.mp ⟨attestation, hbuild⟩)
    · exact (attests_of_build hbuild).mpr hwell

/-! ### A snapshot without entries -/

@[reducible] def snapshotJson : JsonText where
  parseJson text :=
    if text = "snapshot" then
      some (.obj [("entry_count", .num 2), ("schema_version", .str queueListSchema)])
    else none

attribute [local instance] snapshotJson

/-- A snapshot that says that there are two entries, and has none, is attested for. -/
theorem not_attests_missing :
    ¬ ∀ queueList attestation, IsQueueList (some "snapshot") queueList →
      factoryCancelAuthorityJson "queue-list.json" (some "snapshot") none none 0 = .ok attestation →
        Attests queueList attestation := by
  intro h
  have hlist : IsQueueList (some "snapshot")
      (.obj [("entry_count", .num 2), ("schema_version", .str queueListSchema)]) := ⟨rfl, rfl, rfl⟩
  obtain ⟨⟨entries, hentries, -⟩, -⟩ := h _ _ hlist rfl rfl
  cases hentries

end CancelAuthority

end Ao2
