import Ao2.Json.Encoding
import Ao2.Signing.Audit
import Mathlib.Logic.Function.Basic

/-!
# Gates that stay signed

Wrappers are emitted into one directory, one after the other. What an audit reports of a gate depends on the
first wrapper that is listed; it depends on nothing else as long as all wrappers around the gate have one
status. A careful emission keeps it so.
-/

namespace Ao2

namespace Signing

/-! ### Runs -/

/-- Directories, and which one a path leads to. -/
structure Disk where
  denotes : String → String
  directories : String → Option Directory

def Disk.at (disk : Disk) (path : String) : Option Directory := disk.directories (disk.denotes path)

/-- The directory at a path, which is made if it is not there. -/
def Disk.made (disk : Disk) (path : String) : Directory := (disk.at path).getD fun _ => none

def Disk.replace (disk : Disk) (path : String) (dir : Directory) : Disk :=
  { disk with directories := Function.update disk.directories (disk.denotes path) (some dir) }

/-- A listing of what is there. -/
def Shows (read : Listing) (disk : Disk) : Prop := ∀ path, (read path).map Listed.dir = disk.at path

section

variable [Platform] [Rsa]

/-- The directory after an emission. -/
def emitted (exports : String) (disk : Disk) (e : Emission) : Directory :=
  (emitContractGateSignedWrapper exports e (disk.made exports)).2

def emitOnce (exports : String) (disk : Disk) (e : Emission) : Disk :=
  disk.replace exports (emitted exports disk e)

def emitAll (exports : String) (run : List Emission) (disk : Disk) : Disk :=
  run.foldl (emitOnce exports) disk

/-- The emission reports that the signature is verified. -/
def Verifies (exports : String) (disk : Disk) (e : Emission) : Prop :=
  ∃ evidence, (emitContractGateSignedWrapper exports e (disk.made exports)).1 = .ok evidence ∧
    evidence.signatureVerified = true

/-- In the course of a run, the gate is signed. -/
def SignedIn (exports : String) (disk : Disk) (run : List Emission) (gate : Json) : Prop :=
  ∃ before e after, run = before ++ e :: after ∧ e.gate = gate ∧
    Verifies exports (emitAll exports before disk) e

end

/-! ### Listings -/

/-- A directory has finitely many files. -/
def Listable (dir : Directory) : Prop := ∃ names : List String, ∀ name, name ∈ names ↔ dir name ≠ none

theorem Listable.update {dir : Directory} (h : Listable dir) (name : String) (content : Octets) :
    Listable (Function.update dir name (some content)) := by
  obtain ⟨names, hnames⟩ := h
  refine ⟨name :: names, fun other => ?_⟩
  rw [List.mem_cons, hnames, Function.update_apply]
  split_ifs with h
  · exact iff_of_true (.inl h) (Option.some_ne_none _)
  · exact or_iff_right h

/-- Directories that are listable are listed. -/
theorem exists_shows {disk : Disk} (h : ∀ path dir, disk.at path = some dir → Listable dir) :
    ∃ read, Shows read disk := by
  have hlisted : ∀ path, ∃ listed : Option Listed, listed.map Listed.dir = disk.at path := by
    intro path
    cases hdir : disk.at path with
    | none => exact ⟨none, rfl⟩
    | some dir =>
      obtain ⟨names, hnames⟩ := h path dir hdir
      exact ⟨some ⟨dir, names, hnames⟩, rfl⟩
  exact ⟨fun path => (hlisted path).choose, fun path => (hlisted path).choose_spec⟩

theorem listable_made {disk : Disk} (h : ∀ path dir, disk.at path = some dir → Listable dir)
    (exports : String) : Listable (disk.made exports) := by
  rw [Disk.made]
  cases hdir : disk.at exports with
  | none => exact ⟨[], fun name => iff_of_false List.not_mem_nil fun hname => hname rfl⟩
  | some dir => exact h exports dir hdir

section

variable [Platform] [Rsa]

theorem listable_emitted {disk : Disk} (h : ∀ path dir, disk.at path = some dir → Listable dir)
    (exports : String) (e : Emission) : Listable (emitted exports disk e) := by
  have hwritten := (listable_made h exports).update (wrapperName e.now) (textFile e.text)
  rw [emitted, emitContractGateSignedWrapper]
  cases e.readPrivateKey with
  | error message => exact hwritten
  | ok key => exact (hwritten.update _ _).update _ _

theorem at_emitOnce (exports path : String) (disk : Disk) (e : Emission) :
    (emitOnce exports disk e).at path =
      if disk.denotes path = disk.denotes exports then some (emitted exports disk e) else disk.at path := by
  rw [Disk.at, emitOnce, Disk.replace]
  change Function.update _ _ _ (disk.denotes path) = _
  rw [Function.update_apply]
  rfl

theorem listable_emitAll (exports : String) (run : List Emission) {disk : Disk}
    (h : ∀ path dir, disk.at path = some dir → Listable dir) :
    ∀ path dir, (emitAll exports run disk).at path = some dir → Listable dir := by
  induction run generalizing disk with
  | nil => exact h
  | cons e run ih =>
    refine ih fun path dir hdir => ?_
    rw [at_emitOnce] at hdir
    split_ifs at hdir
    · cases hdir
      exact listable_emitted h exports e
    · exact h path dir hdir

end

/-! ### What is asked -/

/-- The roles of the workbench. -/
def operatorRoles : List String := ["viewer", "operator", "admin"]

def roleOf (wrapper : Json) : String :=
  jsonStringOf ((wrapper.index "export").index "audit_event") "operator_role"

section

variable [Platform] [JsonText] [Rsa]

/-- A wrapper around a gate at a path. -/
structure Around (gate : Json) (disk : Disk) (path : String) (m : Match) : Prop where
  path_eq : m.dirPath = path
  dir_eq : disk.at path = some m.dir
  wrapper_eq : wrapperAround gate m.dir m.name = some m.wrapper

/-- A wrapper around the gate in a directory that the audit looks at. -/
def Candidate (call : AuditCall) (gate : Json) (disk : Disk) (m : Match) : Prop :=
  ∃ path ∈ call.candidateDirs gate, Around gate disk path m

/-- What an audit reports. -/
def reported (call : AuditCall) (read : Listing) : Except String SigningStatus :=
  (contractVerifyObligationGateSigning call read).map SigningAudit.signingStatus

/-- **A signed gate is reported as signed**, however directories are listed and whatever other wrappers there
are. A wrapper that is reported as signed is an operator's. -/
structure Verifiable (call : AuditCall) (gate : Json) (exports : String) (disk : Disk)
    (run : List Emission) : Prop where
  signed : SignedIn exports disk run gate →
    (∃ path ∈ call.candidateDirs gate, disk.denotes path = disk.denotes exports) →
    ∀ read, Shows read (emitAll exports run disk) → reported call read = .ok .signedAndVerified
  unordered : ∀ read read', Shows read (emitAll exports run disk) →
    Shows read' (emitAll exports run disk) → reported call read = reported call read'
  undisturbed : ∀ m, Candidate call gate (emitAll exports run disk) m →
    m.status call.publicKeyOverride = .ok .signedAndVerified →
    ∀ read, Shows read (emitAll exports run disk) → reported call read = .ok .signedAndVerified
  owned : ∀ read, Shows read (emitAll exports run disk) → ∀ audit,
    contractVerifyObligationGateSigning call read = .ok audit →
    audit.signingStatus = .signedAndVerified →
    ∃ m, Candidate call gate (emitAll exports run disk) m ∧
      audit.matchedWrapperPath = some (joinPath m.dirPath m.name) ∧ roleOf m.wrapper ∈ operatorRoles

/-! ### When it is so -/

/-- All wrappers around the gate have one status. If they are signed operators wrote them. -/
structure Alike (call : AuditCall) (gate : Json) (disk : Disk) (s : SigningStatus) : Prop where
  status : ∀ m, Candidate call gate disk m → m.status call.publicKeyOverride = .ok s
  role : s = .signedAndVerified → ∀ m, Candidate call gate disk m → roleOf m.wrapper ∈ operatorRoles

/-- The key is the one wrappers around the gate are checked with, or none of them is signed. -/
def KeepsKey (call : AuditCall) (gate : Json) (dir : Directory) (key : PrivateKey) : Prop :=
  call.publicKeyOverride.isSome ∨ dir publicKeyName = some (textFile (toPublicPem (toPublicKey key))) ∨
    ∀ name, wrapperAround gate dir name ≠ none → dir (signatureName name) = none

/-- The key that is given, if one is, is that of the emission. -/
def GivesKey (call : AuditCall) (key : PrivateKey) : Prop :=
  ∀ file, call.publicKeyOverride = some file →
    file.content = some (textFile (toPublicPem (toPublicKey key)))

/-- An emission that leaves the wrappers around the gate alike: it overwrites none and keeps their key. A new
one is as the others are. -/
def Careful (call : AuditCall) (gate : Json) (exports : String) (disk : Disk) (e : Emission) : Prop :=
  let dir := disk.made exports
  (∃ path ∈ call.candidateDirs gate, disk.denotes path = disk.denotes exports) →
    match e.readPrivateKey with
    | .error _ => wrapperAround gate dir (wrapperName e.now) = none ∧
        (e.gate = gate → dir (signatureName (wrapperName e.now)) = none ∧
          ∀ m, Candidate call gate disk m → m.status call.publicKeyOverride = .ok .signatureMissing)
    | .ok key => (e.gate ≠ gate → wrapperAround gate dir (wrapperName e.now) = none) ∧
        KeepsKey call gate dir key ∧
        (e.gate = gate → GivesKey call key ∧ e.operatorRole ∈ operatorRoles ∧
          ∀ m, Candidate call gate disk m → m.status call.publicKeyOverride = .ok .signedAndVerified)

/-- Every emission of a run is careful when it is made. -/
def CarefulRun (call : AuditCall) (gate : Json) (exports : String) : List Emission → Disk → Prop
  | [], _ => True
  | e :: run, disk => Careful call gate exports disk e ∧ CarefulRun call gate exports run (emitOnce exports disk e)

/-! ### Names -/

section

omit [Platform] [JsonText] [Rsa]

variable {name : String}

theorem isWrapperName_wrapperName (now : ℕ) : isWrapperName (wrapperName now) = true := by
  refine decide_eq_true ⟨?_, ?_⟩
  · rw [wrapperName, String.toList_append, String.toList_append, List.append_assoc]
    exact List.prefix_append _ _
  · rw [wrapperName, String.toList_append]
    exact List.suffix_append _ _

theorem getLast?_of_isWrapperName (h : isWrapperName name = true) : name.toList.getLast? = some 'n' := by
  obtain ⟨-, init, hname⟩ := of_decide_eq_true h
  rw [← hname, List.getLast?_append]
  rfl

theorem ne_publicKeyName (h : isWrapperName name = true) : name ≠ publicKeyName := by
  rintro rfl
  exact absurd (getLast?_of_isWrapperName h) (by decide)

theorem getLast?_signatureName (name : String) : (signatureName name).toList.getLast? = some 'g' := by
  rw [signatureName, String.toList_append, List.getLast?_append]
  rfl

theorem ne_signatureName (h : isWrapperName name = true) (other : String) : name ≠ signatureName other := by
  rintro rfl
  exact absurd ((getLast?_signatureName other).symm.trans (getLast?_of_isWrapperName h)) (by decide)

theorem publicKeyName_ne_signatureName (name : String) : publicKeyName ≠ signatureName name := by
  intro h
  have hlast := getLast?_signatureName name
  rw [← h] at hlast
  exact absurd hlast (by decide)

theorem signatureName_inj {name other : String} : signatureName name = signatureName other ↔ name = other :=
  String.append_left_inj _

end

/-! ### The directory after an emission -/

section

variable {exports : String} {disk : Disk} {e : Emission} {key : PrivateKey} {message name : String}

omit [JsonText]

theorem emitted_of_error (h : e.readPrivateKey = .error message) :
    emitted exports disk e = e.withWrapper (disk.made exports) := by
  rw [emitted, emitContractGateSignedWrapper, h]

theorem emitted_of_ok (h : e.readPrivateKey = .ok key) :
    emitted exports disk e = e.withSignature key (e.withWrapper (disk.made exports)) := by
  rw [emitted, emitContractGateSignedWrapper, h]

theorem withSignature_of_isWrapperName (h : isWrapperName name = true) (dir : Directory) :
    e.withSignature key dir name = dir name := by
  rw [Emission.withSignature, Function.update_of_ne (ne_signatureName h _),
    Function.update_of_ne (ne_publicKeyName h)]

theorem emitted_wrapperName : emitted exports disk e (wrapperName e.now) = some (textFile e.text) := by
  have hwritten : e.withWrapper (disk.made exports) (wrapperName e.now) = some (textFile e.text) :=
    Function.update_self ..
  cases h : e.readPrivateKey with
  | error message => rw [emitted_of_error h, hwritten]
  | ok key =>
    rw [emitted_of_ok h, withSignature_of_isWrapperName (isWrapperName_wrapperName e.now), hwritten]

theorem emitted_of_ne (hname : isWrapperName name = true) (hne : name ≠ wrapperName e.now) :
    emitted exports disk e name = disk.made exports name := by
  have hwritten : e.withWrapper (disk.made exports) name = disk.made exports name :=
    Function.update_of_ne hne ..
  cases h : e.readPrivateKey with
  | error message => rw [emitted_of_error h, hwritten]
  | ok key => rw [emitted_of_ok h, withSignature_of_isWrapperName hname, hwritten]

theorem emitted_signatureName_of_ne (hne : name ≠ wrapperName e.now) :
    emitted exports disk e (signatureName name) = disk.made exports (signatureName name) := by
  have hwritten : e.withWrapper (disk.made exports) (signatureName name) =
      disk.made exports (signatureName name) :=
    Function.update_of_ne (ne_signatureName (isWrapperName_wrapperName e.now) name).symm ..
  cases h : e.readPrivateKey with
  | error message => rw [emitted_of_error h, hwritten]
  | ok key =>
    rw [emitted_of_ok h, Emission.withSignature,
      Function.update_of_ne fun heq => hne (signatureName_inj.mp heq),
      Function.update_of_ne (publicKeyName_ne_signatureName name).symm, hwritten]

theorem emitted_signatureName_of_error (h : e.readPrivateKey = .error message) :
    emitted exports disk e (signatureName name) = disk.made exports (signatureName name) := by
  rw [emitted_of_error h, Emission.withWrapper,
    Function.update_of_ne (ne_signatureName (isWrapperName_wrapperName e.now) name).symm]

theorem emitted_publicKeyName_of_error (h : e.readPrivateKey = .error message) :
    emitted exports disk e publicKeyName = disk.made exports publicKeyName := by
  rw [emitted_of_error h, Emission.withWrapper,
    Function.update_of_ne (ne_publicKeyName (isWrapperName_wrapperName e.now)).symm]

theorem emitted_signatureName_of_ok (h : e.readPrivateKey = .ok key) :
    emitted exports disk e (signatureName (wrapperName e.now)) = some (sign key (textFile e.text)) := by
  rw [emitted_of_ok h, Emission.withSignature, Function.update_self]

theorem emitted_publicKeyName_of_ok (h : e.readPrivateKey = .ok key) :
    emitted exports disk e publicKeyName = some (textFile (toPublicPem (toPublicKey key))) := by
  rw [emitted_of_ok h, Emission.withSignature,
    Function.update_of_ne (publicKeyName_ne_signatureName _), Function.update_self]

end

/-! ### Wrappers that are read -/

section

omit [Platform] [JsonText] [Rsa]

theorem ordered_of_mem {members : List (String × Json)} {m : String × Json}
    (h : Json.orderedMembers members = true) (hm : m ∈ members) : m.2.ordered = true := by
  induction members with
  | nil => cases hm
  | cons head members ih =>
    rw [Json.orderedMembers, Bool.and_eq_true] at h
    rcases List.mem_cons.mp hm with rfl | hm
    · exact h.1
    · exact ih h.2 hm

theorem ordered_index {v : Json} (h : v.ordered = true) (key : String) : (v.index key).ordered = true := by
  rw [Json.index]
  cases hmember : v.get? key with
  | none => rfl
  | some member =>
    cases v with
    | obj members =>
      rw [Json.ordered, Bool.and_eq_true] at h
      exact ordered_of_mem h.2 (Json.mem_of_lookup hmember)
    | _ => cases hmember

theorem Emission.ordered_wrapper (e : Emission) : e.wrapper.ordered = true := by
  have hgate := ordered_index e.ordered
  simp only [wrapper, auditEvent, Json.ordered, Json.orderedMembers, Json.increasing, Json.nat, hgate,
    e.ordered, List.map_cons, List.map_nil, Bool.and_eq_true, decide_eq_true_eq, String.reduceLT,
    and_self]

theorem Emission.embeddedGate_wrapper (e : Emission) : embeddedGate e.wrapper = e.gate := rfl

theorem Emission.roleOf_wrapper (e : Emission) : roleOf e.wrapper = e.operatorRole := rfl

theorem isAo2Owned_wrapper (e : Emission) : isAo2Owned e.wrapper = decide (e.operatorRole ≠ "") := by
  have hrole := e.roleOf_wrapper
  rw [isAo2Owned]
  simp only [roleOf] at hrole
  rw [hrole]
  refine decide_eq_decide.mpr ⟨fun h => h.2.2, fun h => ⟨rfl, rfl, h⟩⟩

end

section

variable {gate : Json} {dir dir' : Directory} {name : String}

omit [Platform] [Rsa]

theorem wrapperAround_congr (h : dir name = dir' name) :
    wrapperAround gate dir name = wrapperAround gate dir' name := by
  rw [wrapperAround, wrapperAround, readWrapper, readWrapper, h]

theorem isWrapperName_of_wrapperAround (h : wrapperAround gate dir name ≠ none) :
    isWrapperName name = true := by
  by_contra hname
  exact h (if_neg hname)

theorem exists_of_wrapperAround {wrapper : Json} (h : wrapperAround gate dir name = some wrapper) :
    dir name ≠ none := by
  intro hnone
  rw [wrapperAround, readWrapper, hnone] at h
  split_ifs at h
  cases h

omit [JsonText] in
theorem decodeUtf8_textFile (text : String) : decodeUtf8 (textFile text) = some text.toList := by
  have hread := fromUtf8Lossy_utf8Bytes text.toList
  rw [textFile, decodeUtf8, hread, if_pos rfl]

/-- A wrapper is read as the one that was written. -/
theorem wrapperAround_of_text [Platform] (hparse : ∀ v : Json, v.ordered = true → parseJson (prettyJson v) = some v)
    {e : Emission} (h : dir (wrapperName e.now) = some (textFile e.text)) :
    wrapperAround gate dir (wrapperName e.now) = if e.gate = gate then some e.wrapper else none := by
  have hread : readWrapper dir (wrapperName e.now) = some e.wrapper := by
    simp only [readWrapper, h, Option.bind_eq_bind, Option.bind_some, decodeUtf8_textFile, Option.map_some,
      String.ofList_toList, Emission.text, hparse _ e.ordered_wrapper]
    exact if_pos ⟨rfl, rfl⟩
  rw [wrapperAround, if_pos (isWrapperName_wrapperName e.now), hread, Option.filter_some,
    e.embeddedGate_wrapper]
  simp

end

/-! ### The status of a wrapper -/

section

omit [Platform] [JsonText]

variable {m m' : Match} {given : Option NamedFile}

omit [Rsa] in
theorem statusOf_unverified (present owned : Bool) : statusOf present false owned ≠ .signedAndVerified := by
  cases present <;> cases owned <;> decide

theorem status_congr (hwrapper : m.wrapper = m'.wrapper) (hcontent : m.dir m.name = m'.dir m'.name)
    (hsignature : m.signature = m'.signature) (hkey : m.keyFile given = m'.keyFile given) :
    m.status given = m'.status given := by
  rw [Match.status, Match.status, Match.verified, Match.verified, hwrapper, hcontent, hsignature, hkey]

theorem status_of_unsigned (h : m.signature = none) : m.status given = .ok .signatureMissing := by
  have hverified : m.verified given = .ok false := by
    rw [Match.verified, h]
    cases m.dir m.name <;> rfl
  rw [Match.status, hverified, h]
  rfl

theorem status_of_signed [LawfulRsa] {key : PrivateKey} {content : Octets}
    (hcontent : m.dir m.name = some content) (hsignature : m.signature = some (sign key content))
    (hkey : (m.keyFile given).content = some (textFile (toPublicPem (toPublicKey key))))
    (howned : isAo2Owned m.wrapper = true) : m.status given = .ok .signedAndVerified := by
  have hverified : m.verified given = .ok true := by
    rw [Match.verified, hcontent, hsignature, hkey]
    exact verifyFileSignature_sign key content _
  rw [Match.status, hverified, hsignature, hkey, howned]
  rfl

end

/-! ### What an emission changes -/

section

variable {call : AuditCall} {gate : Json} {exports path : String} {disk : Disk} {e : Emission}
  {m : Match} {s : SigningStatus}

omit [Platform] [Rsa] [JsonText] in
theorem made_of_at {dir : Directory} (hpath : disk.denotes path = disk.denotes exports)
    (h : disk.at path = some dir) : disk.made exports = dir := by
  rw [Disk.made, Disk.at, ← hpath, ← Disk.at, h]
  rfl

omit [Platform] [Rsa] in
/-- A wrapper that is seen in the directory is in it. -/
theorem around_of_made {name : String} {wrapper : Json}
    (h : wrapperAround gate (disk.made exports) name = some wrapper)
    (hpath : disk.denotes path = disk.denotes exports) :
    Around gate disk path ⟨path, disk.made exports, name, wrapper⟩ := by
  refine ⟨rfl, ?_, h⟩
  have hat : disk.at path = disk.at exports := by rw [Disk.at, hpath, ← Disk.at]
  rw [hat]
  cases hdir : disk.at exports with
  | some dir => rw [Disk.made, hdir, Option.getD_some]
  | none =>
    refine absurd ?_ (exists_of_wrapperAround h)
    rw [Disk.made, hdir]
    rfl

/-- The new wrapper, in the directory after the emission. -/
def IsNew (exports : String) (disk : Disk) (e : Emission) (m : Match) : Prop :=
  disk.denotes m.dirPath = disk.denotes exports ∧ m.dir = emitted exports disk e ∧
    m.name = wrapperName e.now ∧ m.wrapper = e.wrapper

variable (hparse : ∀ v : Json, v.ordered = true → parseJson (prettyJson v) = some v)

include hparse

/-- A wrapper around the gate is new, or it was there with the same status. -/
theorem candidate_emitOnce (hcareful : Careful call gate exports disk e)
    (h : Candidate call gate (emitOnce exports disk e) m) :
    IsNew exports disk e m ∧ e.gate = gate ∨
      ∃ old, Candidate call gate disk old ∧ old.wrapper = m.wrapper ∧
        old.status call.publicKeyOverride = m.status call.publicKeyOverride := by
  obtain ⟨path, hpath, hm⟩ := h
  have hat := hm.dir_eq
  rw [at_emitOnce] at hat
  split_ifs at hat with hshared
  · have hdir := (Option.some.inj hat).symm
    by_cases hname : m.name = wrapperName e.now
    · have hwrapper := hm.wrapper_eq
      rw [hdir, hname, wrapperAround_of_text hparse emitted_wrapperName] at hwrapper
      split_ifs at hwrapper with hgate
      exact .inl ⟨⟨hm.path_eq ▸ hshared, hdir, hname, (Option.some.inj hwrapper).symm⟩, hgate⟩
    · -- the file was there before
      have hwrapperName := isWrapperName_of_wrapperAround (hm.wrapper_eq ▸ Option.some_ne_none _)
      have hcontent : m.dir m.name = disk.made exports m.name := hdir ▸ emitted_of_ne hwrapperName hname
      have hsignature : m.dir (signatureName m.name) = disk.made exports (signatureName m.name) :=
        hdir ▸ emitted_signatureName_of_ne hname
      have hwrapper : wrapperAround gate (disk.made exports) m.name = some m.wrapper :=
        (wrapperAround_congr hcontent).symm.trans hm.wrapper_eq
      refine .inr ⟨⟨path, disk.made exports, m.name, m.wrapper⟩,
        ⟨path, hpath, around_of_made hwrapper hshared⟩, rfl, ?_⟩
      have hstep := hcareful ⟨path, hpath, hshared⟩
      cases hkey : e.readPrivateKey with
      | error message =>
        refine status_congr rfl hcontent.symm hsignature.symm ?_
        rw [Match.keyFile, Match.keyFile, hm.path_eq, hdir, emitted_publicKeyName_of_error hkey]
      | ok key =>
        rw [hkey] at hstep
        obtain ⟨-, hkeeps, -⟩ := hstep
        rcases hkeeps with hgiven | hsame | hunsigned
        · obtain ⟨file, hfile⟩ := Option.isSome_iff_exists.mp hgiven
          refine status_congr rfl hcontent.symm hsignature.symm ?_
          rw [Match.keyFile, Match.keyFile, hfile]
          rfl
        · refine status_congr rfl hcontent.symm hsignature.symm ?_
          rw [Match.keyFile, Match.keyFile, hm.path_eq, hdir, emitted_publicKeyName_of_ok hkey, ← hsame]
        · have hnone := hunsigned m.name (hwrapper ▸ Option.some_ne_none _)
          rw [status_of_unsigned (m := m) (hsignature.trans hnone)]
          exact status_of_unsigned hnone
  · refine .inr ⟨m, ⟨path, hpath, hm.path_eq, hat, hm.wrapper_eq⟩, rfl, rfl⟩

/-- The gate is signed in the directory, and wherever else there is a wrapper around it. -/
structure Signed (call : AuditCall) (gate : Json) (exports : String) (disk : Disk) : Prop where
  alike : Alike call gate disk .signedAndVerified
  held : ∃ name, wrapperAround gate (disk.made exports) name ≠ none

omit hparse [Platform] [Rsa] in
theorem candidate_of_held {name : String} {wrapper : Json}
    (h : wrapperAround gate (disk.made exports) name = some wrapper)
    (hshared : ∃ path ∈ call.candidateDirs gate, disk.denotes path = disk.denotes exports) :
    ∃ m, Candidate call gate disk m := by
  obtain ⟨path, hpath, hdenotes⟩ := hshared
  exact ⟨_, path, hpath, around_of_made h hdenotes⟩

omit hparse [JsonText] in
theorem status_of_isNew_of_error {message : String} (hkey : e.readPrivateKey = .error message)
    (hnone : disk.made exports (signatureName (wrapperName e.now)) = none) (h : IsNew exports disk e m)
    (given : Option NamedFile) : m.status given = .ok .signatureMissing := by
  obtain ⟨-, hdir, hname, -⟩ := h
  refine status_of_unsigned ?_
  rw [Match.signature, hdir, hname, emitted_signatureName_of_error hkey, hnone]

omit hparse [JsonText] in
theorem status_of_isNew_of_ok [LawfulRsa] {key : PrivateKey} (hkey : e.readPrivateKey = .ok key)
    (hgives : GivesKey call key) (hrole : e.operatorRole ∈ operatorRoles) (h : IsNew exports disk e m) :
    m.status call.publicKeyOverride = .ok .signedAndVerified := by
  obtain ⟨-, hdir, hname, hwrapper⟩ := h
  have hcontent : m.dir m.name = some (textFile e.text) := by
    rw [hdir, hname, emitted_wrapperName]
  have hsignature : m.signature = some (sign key (textFile e.text)) := by
    rw [Match.signature, hdir, hname, emitted_signatureName_of_ok hkey]
  refine status_of_signed hcontent hsignature ?_ ?_
  · rw [Match.keyFile]
    cases hgiven : call.publicKeyOverride with
    | none => rw [Option.getD_none, hdir, emitted_publicKeyName_of_ok hkey]
    | some file => exact hgives file hgiven
  · rw [hwrapper, isAo2Owned_wrapper, decide_eq_true_eq]
    rintro hempty
    rw [hempty] at hrole
    exact absurd hrole (by decide)

/-- **A careful emission leaves the wrappers around the gate alike.** -/
theorem alike_emitOnce [LawfulRsa] (hcareful : Careful call gate exports disk e)
    (h : Alike call gate disk s) : ∃ s', Alike call gate (emitOnce exports disk e) s' := by
  by_cases hnew : ∃ m, Candidate call gate (emitOnce exports disk e) m ∧ IsNew exports disk e m ∧
      e.gate = gate
  · obtain ⟨m₀, ⟨path, hpath, hm₀⟩, hisNew, hgate⟩ := hnew
    have hstep := hcareful ⟨path, hpath, hm₀.path_eq ▸ hisNew.1⟩
    cases hkey : e.readPrivateKey with
    | error message =>
      rw [hkey] at hstep
      obtain ⟨hnone, hmissing⟩ := hstep.2 hgate
      refine ⟨.signatureMissing, fun m hm => ?_, fun hs => nomatch hs⟩
      rcases candidate_emitOnce hparse hcareful hm with ⟨hisNew, -⟩ | ⟨old, hold, -, hstatus⟩
      · exact status_of_isNew_of_error hkey hnone hisNew _
      · rw [← hstatus, hmissing old hold]
    | ok key =>
      rw [hkey] at hstep
      obtain ⟨hgives, hrole, hsigned⟩ := hstep.2.2 hgate
      refine ⟨.signedAndVerified, fun m hm => ?_, fun _ m hm => ?_⟩
      · rcases candidate_emitOnce hparse hcareful hm with ⟨hisNew, -⟩ | ⟨old, hold, -, hstatus⟩
        · exact status_of_isNew_of_ok hkey hgives hrole hisNew
        · rw [← hstatus, hsigned old hold]
      · rcases candidate_emitOnce hparse hcareful hm with ⟨hisNew, -⟩ | ⟨old, hold, hwrapper, -⟩
        · rw [hisNew.2.2.2, e.roleOf_wrapper]
          exact hrole
        · rw [← hwrapper]
          exact h.role (Except.ok.inj ((h.status old hold).symm.trans (hsigned old hold))) old hold
  · have hold : ∀ m, Candidate call gate (emitOnce exports disk e) m → ∃ old, Candidate call gate disk old ∧
        old.wrapper = m.wrapper ∧ old.status call.publicKeyOverride = m.status call.publicKeyOverride := by
      intro m hm
      exact (candidate_emitOnce hparse hcareful hm).resolve_left fun hisNew => hnew ⟨m, hm, hisNew⟩
    refine ⟨s, fun m hm => ?_, fun hs m hm => ?_⟩
    · obtain ⟨old, hcandidate, -, hstatus⟩ := hold m hm
      rw [← hstatus, h.status old hcandidate]
    · obtain ⟨old, hcandidate, hwrapper, -⟩ := hold m hm
      rw [← hwrapper]
      exact h.role hs old hcandidate

omit hparse [Platform] in
/-- What a status says of one wrapper it says of all. -/
theorem signed_of_candidate (h : Alike call gate disk s) (hm : Candidate call gate disk m)
    (hstatus : m.status call.publicKeyOverride = .ok .signedAndVerified) :
    s = .signedAndVerified :=
  Except.ok.inj ((h.status m hm).symm.trans hstatus)

omit hparse [JsonText] in
theorem made_emitOnce : (emitOnce exports disk e).made exports = emitted exports disk e :=
  made_of_at rfl ((at_emitOnce exports exports disk e).trans (if_pos rfl))

/-- **A gate that is signed stays signed.** -/
theorem signed_emitOnce [LawfulRsa] (hcareful : Careful call gate exports disk e)
    (hshared : ∃ path ∈ call.candidateDirs gate, disk.denotes path = disk.denotes exports)
    (h : Signed call gate exports disk) : Signed call gate exports (emitOnce exports disk e) := by
  obtain ⟨s', halike⟩ := alike_emitOnce hparse hcareful h.alike
  obtain ⟨name, hname⟩ := h.held
  obtain ⟨wrapper, hwrapper⟩ := Option.ne_none_iff_exists'.mp hname
  obtain ⟨m₀, hm₀⟩ := candidate_of_held hwrapper hshared
  have hstep := hcareful hshared
  -- a wrapper around the gate is there afterwards
  have hheld : ∃ name, wrapperAround gate (emitted exports disk e) name ≠ none := by
    by_cases heq : name = wrapperName e.now
    · have hgate : e.gate = gate := by
        by_contra hgate
        cases hkey : e.readPrivateKey with
        | error message =>
          rw [hkey] at hstep
          exact hname (heq ▸ hstep.1)
        | ok key =>
          rw [hkey] at hstep
          exact hname (heq ▸ hstep.1 hgate)
      refine ⟨wrapperName e.now, ?_⟩
      rw [wrapperAround_of_text hparse emitted_wrapperName, if_pos hgate]
      exact Option.some_ne_none _
    · refine ⟨name, ?_⟩
      rw [wrapperAround_congr (emitted_of_ne (isWrapperName_of_wrapperAround hname) heq)]
      exact hname
  obtain ⟨name', hname'⟩ := hheld
  have hmade : wrapperAround gate ((emitOnce exports disk e).made exports) name' ≠ none :=
    made_emitOnce.symm ▸ hname'
  obtain ⟨wrapper', hwrapper'⟩ := Option.ne_none_iff_exists'.mp hmade
  obtain ⟨m, hm⟩ := candidate_of_held hwrapper' hshared
  have hstatus : m.status call.publicKeyOverride = .ok .signedAndVerified := by
    rcases candidate_emitOnce hparse hcareful hm with ⟨hisNew, hgate⟩ | ⟨old, hold, -, hsame⟩
    · cases hkey : e.readPrivateKey with
      | error message =>
        rw [hkey] at hstep
        have hmissing := (hstep.2 hgate).2 m₀ hm₀
        cases (h.alike.status m₀ hm₀).symm.trans hmissing
      | ok key =>
        rw [hkey] at hstep
        obtain ⟨hgives, hrole, -⟩ := hstep.2.2 hgate
        exact status_of_isNew_of_ok hkey hgives hrole hisNew
    · exact hsame.symm.trans (h.alike.status old hold)
  obtain rfl := signed_of_candidate halike hm hstatus
  exact ⟨halike, name', hmade⟩

omit hparse [JsonText] in
theorem exists_key_of_verifies (h : Verifies exports disk e) : ∃ key, e.readPrivateKey = .ok key := by
  obtain ⟨evidence, hok, -⟩ := h
  cases hkey : e.readPrivateKey with
  | error message =>
    rw [emitContractGateSignedWrapper, hkey] at hok
    cases hok
  | ok key => exact ⟨key, rfl⟩

omit hparse [JsonText] in
theorem verifies_of_ok [LawfulRsa] {key : PrivateKey} (hkey : e.readPrivateKey = .ok key) :
    Verifies exports disk e := by
  have hdir : emitted exports disk e = e.withSignature key (e.withWrapper (disk.made exports)) :=
    emitted_of_ok hkey
  have hcontent := (congrFun hdir _).symm.trans emitted_wrapperName
  have hsignature := (congrFun hdir _).symm.trans (emitted_signatureName_of_ok hkey)
  have hpublicKey := (congrFun hdir _).symm.trans (emitted_publicKeyName_of_ok hkey)
  have hverified := verifyFileSignature_sign key (textFile e.text) (joinPath exports publicKeyName)
  rw [Verifies, emitContractGateSignedWrapper, hkey]
  simp only [hcontent, hsignature, hpublicKey, hverified, bind, Except.bind]
  exact ⟨_, rfl, rfl⟩

/-- **A careful emission that verifies signs its gate.** -/
theorem signed_of_verifies [LawfulRsa] (hcareful : Careful call gate exports disk e)
    (hshared : ∃ path ∈ call.candidateDirs gate, disk.denotes path = disk.denotes exports)
    (h : Alike call gate disk s) (hgate : e.gate = gate) (hverifies : Verifies exports disk e) :
    Signed call gate exports (emitOnce exports disk e) := by
  obtain ⟨s', halike⟩ := alike_emitOnce hparse hcareful h
  obtain ⟨key, hkey⟩ := exists_key_of_verifies hverifies
  have hstep := hcareful hshared
  rw [hkey] at hstep
  obtain ⟨hgives, hrole, -⟩ := hstep.2.2 hgate
  have hwrapper : wrapperAround gate ((emitOnce exports disk e).made exports) (wrapperName e.now) =
      some e.wrapper := by
    rw [made_emitOnce, wrapperAround_of_text hparse emitted_wrapperName, if_pos hgate]
  obtain ⟨path, hpath, hdenotes⟩ := hshared
  have hm : Candidate call gate (emitOnce exports disk e)
      ⟨path, (emitOnce exports disk e).made exports, wrapperName e.now, e.wrapper⟩ :=
    ⟨path, hpath, around_of_made hwrapper hdenotes⟩
  have hisNew : IsNew exports disk e
      ⟨path, (emitOnce exports disk e).made exports, wrapperName e.now, e.wrapper⟩ :=
    ⟨hdenotes, made_emitOnce, rfl, rfl⟩
  have hstatus := status_of_isNew_of_ok hkey hgives hrole hisNew
  obtain rfl := signed_of_candidate halike hm hstatus
  exact ⟨halike, _, hwrapper ▸ Option.some_ne_none _⟩

/-- Where the first wrapper in a directory was signed with one key and another one with a second key, the
first is checked with the second key. -/
theorem verified_of_second_key [LawfulRsa] {later : Emission} {key key' : PrivateKey}
    (hkey : e.readPrivateKey = .ok key) (hkey' : later.readPrivateKey = .ok key')
    (hempty : ∀ path, disk.at path = none) (hgate : later.gate ≠ gate)
    (hm : Around gate (emitOnce exports (emitOnce exports disk e) later) path m) :
    m.verified none = .ok (verifies (toPublicKey key') (textFile e.text) (sign key (textFile e.text))) := by
  have hat := hm.dir_eq
  rw [at_emitOnce, at_emitOnce, hempty] at hat
  have hdenotes : (emitOnce exports disk e).denotes = disk.denotes := rfl
  rw [hdenotes] at hat
  split_ifs at hat with hpath
  have hdir := (Option.some.inj hat).symm
  have hname := isWrapperName_of_wrapperAround (hm.wrapper_eq ▸ Option.some_ne_none _)
  have hne : m.name ≠ wrapperName later.now := by
    intro hlater
    have hwrapper := hm.wrapper_eq
    rw [hdir, hlater, wrapperAround_of_text hparse emitted_wrapperName, if_neg hgate] at hwrapper
    cases hwrapper
  have hfirst : m.name = wrapperName e.now := by
    by_contra hother
    refine exists_of_wrapperAround hm.wrapper_eq ?_
    rw [hdir, emitted_of_ne hname hne, made_emitOnce, emitted_of_ne hname hother, Disk.made, hempty]
    rfl
  have hcontent : m.dir m.name = some (textFile e.text) := by
    rw [hdir, emitted_of_ne hname hne, made_emitOnce, hfirst, emitted_wrapperName]
  have hsignature : m.signature = some (sign key (textFile e.text)) := by
    rw [Match.signature, hdir, emitted_signatureName_of_ne hne, made_emitOnce, hfirst,
      emitted_signatureName_of_ok hkey]
  rw [Match.verified, hcontent, hsignature, Match.keyFile, Option.getD_none, hdir,
    emitted_publicKeyName_of_ok hkey', verifyFileSignature, readRsaPublicKey_textFile]
  rfl

/-! ### Runs -/

omit hparse [Platform] [Rsa] [JsonText] in
theorem carefulRun_append [Platform] [Rsa] [JsonText] {run after : List Emission} :
    ∀ {disk : Disk}, CarefulRun call gate exports (run ++ after) disk ↔
      CarefulRun call gate exports run disk ∧ CarefulRun call gate exports after (emitAll exports run disk) := by
  induction run with
  | nil => exact (and_iff_right trivial).symm
  | cons e run ih => exact fun {disk} => (and_congr_right fun _ => ih).trans and_assoc.symm

theorem alike_emitAll [LawfulRsa] {run : List Emission} {disk : Disk}
    (hcareful : CarefulRun call gate exports run disk) (h : ∃ s, Alike call gate disk s) :
    ∃ s, Alike call gate (emitAll exports run disk) s := by
  induction run generalizing disk with
  | nil => exact h
  | cons e run ih =>
    obtain ⟨s, halike⟩ := h
    exact ih hcareful.2 (alike_emitOnce hparse hcareful.1 halike)

omit hparse [JsonText] in
theorem denotes_emitAll (exports : String) (run : List Emission) (disk : Disk) :
    (emitAll exports run disk).denotes = disk.denotes := by
  induction run generalizing disk with
  | nil => rfl
  | cons e run ih => exact ih _

theorem signed_emitAll [LawfulRsa] {run : List Emission} {disk : Disk}
    (hcareful : CarefulRun call gate exports run disk)
    (hshared : ∃ path ∈ call.candidateDirs gate, disk.denotes path = disk.denotes exports)
    (h : Signed call gate exports disk) : Signed call gate exports (emitAll exports run disk) := by
  induction run generalizing disk with
  | nil => exact h
  | cons e run ih => exact ih hcareful.2 hshared (signed_emitOnce hparse hcareful.1 hshared h)

/-- A gate that was signed in the course of a run is signed at its end. -/
theorem signed_of_signedIn [LawfulRsa] {run : List Emission}
    (hcareful : CarefulRun call gate exports run disk)
    (hshared : ∃ path ∈ call.candidateDirs gate, disk.denotes path = disk.denotes exports)
    (h : ∃ s, Alike call gate disk s) (hsigned : SignedIn exports disk run gate) :
    Signed call gate exports (emitAll exports run disk) := by
  obtain ⟨before, e, after, rfl, hgate, hverifies⟩ := hsigned
  obtain ⟨hbefore, hnow, hafter⟩ := carefulRun_append.mp hcareful
  obtain ⟨s, halike⟩ := alike_emitAll hparse hbefore h
  have hshared' : ∃ path ∈ call.candidateDirs gate,
      (emitAll exports before disk).denotes path = (emitAll exports before disk).denotes exports := by
    rwa [denotes_emitAll]
  have hnext := signed_of_verifies hparse hnow hshared' halike hgate hverifies
  have hend := signed_emitAll hparse hafter hshared' hnext
  rw [emitAll, List.foldl_append]
  exact hend

end

/-! ### What is reported -/

section

variable {call : AuditCall} {gate : Json} {disk : Disk} {read : Listing} {s : SigningStatus}

omit [Platform] [Rsa]

theorem around_of_firstIn {path : String} {listed : Listed} {m : Match} (hread : Shows read disk)
    (hpath : read path = some listed) (h : firstIn gate path listed = some m) :
    Around gate disk path m := by
  obtain ⟨name, -, hname⟩ := List.exists_of_findSome?_eq_some h
  obtain ⟨wrapper, hwrapper, rfl⟩ := Option.map_eq_some_iff.mp hname
  refine ⟨rfl, ?_, hwrapper⟩
  rw [← hread path, hpath]
  rfl

theorem candidate_of_findWrapper {m : Match} (hread : Shows read disk)
    (h : findWrapper gate read (call.candidateDirs gate) = some m) : Candidate call gate disk m := by
  obtain ⟨path, hpath, hfirst⟩ := List.exists_of_findSome?_eq_some h
  obtain ⟨listed, hlisted, hfirst⟩ := Option.bind_eq_some_iff.mp hfirst
  exact ⟨path, hpath, around_of_firstIn hread hlisted hfirst⟩

/-- What is there is found. -/
theorem not_candidate_of_findWrapper (hread : Shows read disk)
    (h : findWrapper gate read (call.candidateDirs gate) = none) (m : Match) :
    ¬ Candidate call gate disk m := by
  rintro ⟨path, hpath, hm⟩
  have hnone := List.findSome?_eq_none_iff.mp h path hpath
  have hat := (hread path).trans hm.dir_eq
  obtain ⟨listed, hlisted, hdir⟩ := Option.map_eq_some_iff.mp hat
  rw [hlisted, Option.bind_some] at hnone
  have hcontent := exists_of_wrapperAround hm.wrapper_eq
  have hname := (listed.mem_names m.name).mpr (hdir ▸ hcontent)
  have hskipped := List.findSome?_eq_none_iff.mp hnone m.name hname
  rw [hdir, hm.wrapper_eq] at hskipped
  cases hskipped

omit [JsonText] in
theorem found_status [Platform] [Rsa] (call : AuditCall) (gate : Json) (m : Match) :
    (m.verified call.publicKeyOverride).map (fun v => (call.found gate m v).signingStatus) =
      m.status call.publicKeyOverride := by
  rw [Match.status]
  cases m.verified call.publicKeyOverride <;> rfl

variable [Platform] [Rsa]

theorem reported_of_findWrapper {m : Match} (hgate : call.readGate = .ok gate)
    (h : findWrapper gate read (call.candidateDirs gate) = some m) :
    reported call read = m.status call.publicKeyOverride := by
  have hstatus := found_status call gate m
  rw [reported, contractVerifyObligationGateSigning, hgate, ← hstatus]
  simp only [bind, Except.bind, h]
  cases m.verified call.publicKeyOverride <;> rfl

theorem reported_of_not_found (hgate : call.readGate = .ok gate)
    (h : findWrapper gate read (call.candidateDirs gate) = none) :
    reported call read = .ok .wrapperNotFound := by
  rw [reported, contractVerifyObligationGateSigning, hgate]
  simp only [bind, Except.bind, h]
  rfl

/-- **What is reported where all wrappers are alike.** -/
theorem reported_of_alike (hgate : call.readGate = .ok gate) (halike : Alike call gate disk s)
    (hread : Shows read disk) :
    (∀ m, Candidate call gate disk m → reported call read = .ok s) ∧
      ((∀ m, ¬ Candidate call gate disk m) → reported call read = .ok .wrapperNotFound) := by
  cases h : findWrapper gate read (call.candidateDirs gate) with
  | none =>
    have hnone := not_candidate_of_findWrapper hread h
    exact ⟨fun m hm => absurd hm (hnone m), fun _ => reported_of_not_found hgate h⟩
  | some m₀ =>
    have hm₀ := candidate_of_findWrapper hread h
    refine ⟨fun _ _ => ?_, fun hnone => absurd hm₀ (hnone m₀)⟩
    rw [reported_of_findWrapper hgate h, halike.status m₀ hm₀]

end

/-- **A gate stays signed in every run of careful emissions**, if all wrappers around it were alike at its
beginning. -/
theorem verifiable_of_careful [LawfulRsa]
    (hparse : ∀ v : Json, v.ordered = true → parseJson (prettyJson v) = some v) {call : AuditCall}
    {gate : Json} {exports : String} {disk : Disk} {run : List Emission}
    (hgate : call.readGate = .ok gate) (halike : ∃ s, Alike call gate disk s)
    (hcareful : CarefulRun call gate exports run disk) : Verifiable call gate exports disk run := by
  obtain ⟨s, hs⟩ := alike_emitAll hparse hcareful halike
  refine ⟨fun hsigned hshared read hread => ?_, fun read read' hread hread' => ?_,
    fun m hm hstatus read hread => ?_, fun read hread audit haudit hstatus => ?_⟩
  · obtain ⟨hall, name, hname⟩ := signed_of_signedIn hparse hcareful hshared halike hsigned
    obtain ⟨wrapper, hwrapper⟩ := Option.ne_none_iff_exists'.mp hname
    have hshared' : ∃ path ∈ call.candidateDirs gate,
        (emitAll exports run disk).denotes path = (emitAll exports run disk).denotes exports := by
      rwa [denotes_emitAll]
    obtain ⟨m, hm⟩ := candidate_of_held hwrapper hshared'
    exact (reported_of_alike hgate hall hread).1 m hm
  · by_cases hcandidate : ∃ m, Candidate call gate (emitAll exports run disk) m
    · obtain ⟨m, hm⟩ := hcandidate
      rw [(reported_of_alike hgate hs hread).1 m hm, (reported_of_alike hgate hs hread').1 m hm]
    · have hnone := not_exists.mp hcandidate
      rw [(reported_of_alike hgate hs hread).2 hnone, (reported_of_alike hgate hs hread').2 hnone]
  · obtain rfl := signed_of_candidate hs hm hstatus
    exact (reported_of_alike hgate hs hread).1 m hm
  · have hreported : reported call read = .ok .signedAndVerified := by
      rw [reported, haudit]
      exact congrArg Except.ok hstatus
    cases hfound : findWrapper gate read (call.candidateDirs gate) with
    | none => cases (reported_of_not_found hgate hfound).symm.trans hreported
    | some m =>
      have hm := candidate_of_findWrapper hread hfound
      have hsigned := (reported_of_findWrapper hgate hfound).symm.trans hreported
      obtain rfl := signed_of_candidate hs hm hsigned
      refine ⟨m, hm, ?_, hs.role rfl m hm⟩
      rw [contractVerifyObligationGateSigning, hgate] at haudit
      simp only [bind, Except.bind, hfound] at haudit
      cases hverified : m.verified call.publicKeyOverride with
      | error message => rw [hverified] at haudit; cases haudit
      | ok v => rw [hverified] at haudit; cases haudit; rfl

end

/-! ### A second key -/

/-- A key is its text, and a signature is the key before what is signed. -/
@[reducible] def spelledRsa : Rsa where
  PrivateKey := String
  PublicKey := String
  fromPrivatePem := some
  fromPublicPem := some
  toPublicKey key := key
  toPublicPem key := key
  sign key input := textFile key ++ input
  verifies key input signature := signature = textFile key ++ input

/-- A text stands for the value that is spelt so. -/
@[reducible] noncomputable def spelledJson : JsonText where
  parseJson := Function.partialInv spellingPlatform.prettyJson

section

attribute [local instance] spellingPlatform spelledRsa spelledJson

theorem lawfulRsa_spelled : LawfulRsa where
  fromPublicPem_toPublicPem _ := rfl
  verifies_sign _ _ := decide_eq_true rfl

attribute [local instance] lawfulRsa_spelled

theorem parseJson_prettyJson (v : Json) : parseJson (prettyJson v) = some v :=
  Function.partialInv_left (f := spellingPlatform.prettyJson)
    (fun _ _ h => Json.spell_injective (String.ofList_injective h)) v

def gateOf (stage : String) : Json :=
  .obj [("schema_version", .str "ao2.obligation-gate.v1"), ("stage", .str stage)]

/-- A gate, signed by an operator. -/
def emissionOf (stage key : String) (now : ℕ) : Emission where
  gate := gateOf stage
  privateKeyPath := "key.pem"
  privateKey := some key
  signerId := "signer"
  operatorRole := "operator"
  runId := "run"
  now := now
  ordered := by
    simp only [gateOf, Json.ordered, Json.orderedMembers, Json.increasing, List.map_cons, List.map_nil,
      Bool.and_eq_true, decide_eq_true_eq, String.reduceLT, and_self]

def emptyDisk : Disk := ⟨id, fun _ => none⟩

/-- The gate of a stage is audited. -/
def auditOf (stage : String) : AuditCall :=
  ⟨"gate.json", some (prettyJson (gateOf stage)), some "exports", none⟩

theorem readGate_auditOf (stage : String) : (auditOf stage).readGate = .ok (gateOf stage) := by
  rw [AuditCall.readGate, auditOf]
  dsimp only
  rw [parseJson_prettyJson]
  exact if_pos rfl

theorem not_candidate_emptyDisk (call : AuditCall) (gate : Json) (m : Match) :
    ¬ Candidate call gate emptyDisk m := by
  rintro ⟨path, -, hm⟩
  cases hm.dir_eq

theorem verifiable_once :
    Verifiable (auditOf "plan") (gateOf "plan") "exports" emptyDisk [emissionOf "plan" "first" 1] := by
  refine verifiable_of_careful (fun v _ => parseJson_prettyJson v) (readGate_auditOf "plan")
    ⟨.wrapperNotFound, fun m hm => absurd hm (not_candidate_emptyDisk _ _ m), fun hs => nomatch hs⟩
    ⟨fun _ => ⟨fun hne => absurd rfl hne, .inr (.inr fun name hname => rfl), fun _ => ?_⟩, trivial⟩
  exact ⟨(fun _ hfile => nomatch hfile), by decide, fun m hm => absurd hm (not_candidate_emptyDisk _ _ m)⟩

/-- Two gates that are signed with a key each. -/
def twoKeys : List Emission := [emissionOf "plan" "first" 1, emissionOf "test" "second" 2]

theorem signedIn_twoKeys : SignedIn "exports" emptyDisk twoKeys (gateOf "plan") := by
  have hkey : (emissionOf "plan" "first" 1).readPrivateKey = .ok "first" := rfl
  exact ⟨[], _, _, rfl, rfl, verifies_of_ok hkey⟩

/-- The wrapper of the first gate is checked with the key of the second. -/
theorem status_twoKeys {m : Match}
    (h : Candidate (auditOf "plan") (gateOf "plan") (emitAll "exports" twoKeys emptyDisk) m) :
    m.status none ≠ .ok .signedAndVerified := by
  obtain ⟨path, -, hm⟩ := h
  have hkey : (emissionOf "plan" "first" 1).readPrivateKey = .ok "first" := rfl
  have hkey' : (emissionOf "test" "second" 2).readPrivateKey = .ok "second" := rfl
  have hverified := verified_of_second_key (fun v _ => parseJson_prettyJson v) hkey hkey'
    (fun _ => rfl) (by decide) hm
  have hfalse : m.verified none = .ok false := by
    refine hverified.trans (congrArg Except.ok (decide_eq_false fun heq => ?_))
    exact absurd (List.append_cancel_right heq) (by decide)
  rw [Match.status, hfalse]
  exact fun hstatus => statusOf_unverified _ _ (Except.ok.inj hstatus)

/-- **A gate does not stay signed** when another one is signed with a second key. -/
theorem not_verifiable_twoKeys :
    ¬ Verifiable (auditOf "plan") (gateOf "plan") "exports" emptyDisk twoKeys := by
  intro h
  have hempty : ∀ path dir, emptyDisk.at path = some dir → Listable dir := fun _ _ hdir => nomatch hdir
  obtain ⟨read, hread⟩ := exists_shows (listable_emitAll "exports" twoKeys hempty)
  have hsigned := h.signed signedIn_twoKeys ⟨"exports", by decide, rfl⟩ read hread
  cases hfound : findWrapper (gateOf "plan") read ((auditOf "plan").candidateDirs (gateOf "plan")) with
  | none => cases (reported_of_not_found (readGate_auditOf "plan") hfound).symm.trans hsigned
  | some m =>
    exact status_twoKeys (candidate_of_findWrapper hread hfound)
      ((reported_of_findWrapper (readGate_auditOf "plan") hfound).symm.trans hsigned)

end

end Signing

end Ao2
