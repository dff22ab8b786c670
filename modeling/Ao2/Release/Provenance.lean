import Ao2.Files.Tree
import Ao2.Json.Objects
import Ao2.Publication.Contract
import Ao2.Texts.Ascii
import Ao2.Texts.Lines

/-!
# The provenance of a release

The archives of a release come with checksums, signatures and a signed document that names them. The
signature of the document is checked with the key that is given, those of the archives with the key
that lies in the directory, and what the document names is not read.

## Main results

* `releaseVerifyProvenance_eq_ok` — what a verification has looked at
* `not_covered_otherKey` — archives of another key, and a document without archives
-/

namespace Ao2

namespace Release

open Files

/-! ### Files -/

inductive Content where
  | text (s : String)
  | binary (bytes : List UInt8)
  deriving DecidableEq

def Content.text? : Content → Option String
  | text s => some s
  | binary _ => none

/-- The files that can be read, by their paths. -/
abbrev FileSet := String → Option Content

/-- Digests, keys and signatures. -/
class ReleaseCrypto where
  Key : Type
  sha256Hex : Content → String
  /-- The key that is written in a text. -/
  fromPublicKeyPem : String → Option Key
  /-- The signature is one of the message, with the key. -/
  verifyRsaSha256Bytes : Key → (message signature : Content) → Bool

export ReleaseCrypto (Key sha256Hex fromPublicKeyPem verifyRsaSha256Bytes)

/-- The last name of a path. -/
def fileName (path : String) : Option String := (pathNames path).getLast?.filter (· ≠ "..")

section

variable (files : FileSet)

def isFile (path : String) : Bool := (files path).isSome

def readToString (path : String) : Except String String :=
  orContext ((files path).bind Content.text?) ("read " ++ path)

variable [ReleaseCrypto]

def sha256File (path : String) : Except String String := do
  let content ← orContext (files path) ("open " ++ path)
  .ok (sha256Hex content)

def readRsaPublicKey (path : String) : Except String Key := do
  let pem ← readToString files path
  orContext (fromPublicKeyPem pem) ("parse RSA public key " ++ path)

/-! ### Archives -/

def verifyFileSignature (input signature publicKey : String) : Except String Bool :=
  if !isFile files input ∨ !isFile files signature ∨ !isFile files publicKey then .ok false
  else do
    let inputBytes ← orContext (files input) ("read " ++ input)
    let signatureBytes ← orContext (files signature) ("read " ++ signature)
    let key ← readRsaPublicKey files publicKey
    .ok (verifyRsaSha256Bytes key inputBytes signatureBytes)

def publicKeyName : String := "ao2-release-signing-public.pem"

/-- The digest of an archive in a checksum file: that of the first line with its name. -/
def expectedDigest (archiveName checksumText : String) : Option String :=
  (lines checksumText.toList).findSome? fun line =>
    match splitWhitespace (.ofList line) with
    | digest :: name :: _ => if name = archiveName then some digest else none
    | _ => none

def verifyReleaseArchiveSignature (archive provenanceDir : String) : Except String Unit := do
  let archiveName ← orContext (fileName archive) "archive filename is utf8"
  let checksumFile := joinPath provenanceDir (archiveName ++ ".sha256")
  let signatureFile := joinPath provenanceDir (archiveName ++ ".sig")
  let publicKey := joinPath provenanceDir publicKeyName
  bailIf (!isFile files checksumFile) ("missing release checksum: " ++ checksumFile)
  bailIf (!isFile files signatureFile) ("missing release signature: " ++ signatureFile)
  bailIf (!isFile files publicKey) ("missing release public key: " ++ publicKey)
  let checksumText ← readToString files checksumFile
  let expected ← orContext (expectedDigest archiveName checksumText)
    ("checksum for " ++ archiveName ++ " not found")
  let actual ← sha256File files archive
  bailIf (actual ≠ expected) "archive checksum mismatch"
  let verified ← verifyFileSignature files archive signatureFile publicKey
  bailIf (!verified) "archive signature verification failed"

/-! ### Provenance -/

def verifyReleaseProvenanceSignature (provenanceJson provenanceSignature publicKey : String) : Bool :=
  if !isFile files provenanceJson ∨ !isFile files provenanceSignature ∨ !isFile files publicKey then false
  else
    match verifyFileSignature files provenanceJson provenanceSignature publicKey with
    | .ok verified => verified
    | .error _ => false

def verifyReport (provenanceDir publicKey provenance : String) (archives : List String) : Json :=
  .object [("schema", .str "ao2.release-provenance-verify.v1"),
    ("release_provenance_dir", .str provenanceDir), ("public_key", .str publicKey),
    ("provenance", .str provenance), ("provenance_verified", .bool true),
    ("archive_count", .nat archives.length),
    ("archives", .arr (archives.map fun archive =>
      .object [("archive", .str archive), ("verified", .bool true)])),
    ("status", .str "passed")]

/-- The archives of a release; there need not be one for macOS. -/
structure ReleaseArchives where
  macosArchive : Option String
  linuxArchive : String
  linuxX8664Archive : String
  windowsArchive : String

def ReleaseArchives.all (a : ReleaseArchives) : List String :=
  a.macosArchive.toList ++ [a.linuxArchive, a.linuxX8664Archive, a.windowsArchive]

def provenancePath (provenanceDir : String) : String := joinPath provenanceDir "ao2-release-provenance.json"

def provenanceSignaturePath (provenanceDir : String) : String :=
  joinPath provenanceDir "ao2-release-provenance.json.sig"

/-- The path of the key that a verification is given. -/
def givenKeyPath (provenanceDir : String) (publicKey : Option String) : String :=
  publicKey.getD (joinPath provenanceDir publicKeyName)

variable [JsonText]

def releaseVerifyProvenance (archives : ReleaseArchives) (provenanceDir : String)
    (publicKey : Option String) : Except String Json := do
  let publicKey := givenKeyPath provenanceDir publicKey
  bailIf (!isFile files publicKey) ("missing release public key: " ++ publicKey)
  archives.all.forM fun archive => verifyReleaseArchiveSignature files archive provenanceDir
  let provenance := provenancePath provenanceDir
  let body ← readToString files provenance
  let provenanceJson ← orContext (parseJson body) ("parse " ++ provenance)
  bailIf (jsonStringOf provenanceJson "schema_version" ≠ "ao2.release-provenance.v1")
    "invalid release provenance schema"
  bailIf (!verifyReleaseProvenanceSignature files provenance (provenanceSignaturePath provenanceDir)
    publicKey) "release provenance signature verification failed"
  .ok (verifyReport provenanceDir publicKey provenance archives.all)

/-! ### The promise -/

/-- The signature in a file is one of what is in another, with the key in a third. -/
def Signs (input signature publicKey : String) : Prop :=
  ∃ message sig key, files input = some message ∧ files signature = some sig ∧
    readRsaPublicKey files publicKey = .ok key ∧ verifyRsaSha256Bytes key message sig = true

/-- The archive is in the list of the document, with its digest. -/
def Named (provenance : Json) (archive : String) : Prop :=
  ∃ name digest entries, fileName archive = some name ∧ sha256File files archive = .ok digest ∧
    provenance.get? "archives" = some (.arr entries) ∧
    ∃ entry ∈ entries, entry.get? "name" = some (.str name) ∧ entry.get? "sha256" = some (.str digest)

def archiveSignature (provenanceDir archive : String) : String :=
  joinPath provenanceDir (((fileName archive).getD "") ++ ".sig")

/-- **One key for everything, and every archive in the document.** -/
structure Covered (archives : ReleaseArchives) (provenanceDir : String) (publicKey : Option String) :
    Prop where
  provenance : Signs files (provenancePath provenanceDir) (provenanceSignaturePath provenanceDir)
    (givenKeyPath provenanceDir publicKey)
  signed : ∀ archive ∈ archives.all, Signs files archive (archiveSignature provenanceDir archive)
    (givenKeyPath provenanceDir publicKey)
  named : ∃ body provenance, readToString files (provenancePath provenanceDir) = .ok body ∧
    parseJson body = some provenance ∧ ∀ archive ∈ archives.all, Named files provenance archive

/-- The key that lies in the directory is the key that is given, or signs the same; and the document
has every archive. -/
structure Consistent (archives : ReleaseArchives) (provenanceDir : String)
    (publicKey : Option String) : Prop where
  key : readRsaPublicKey files (joinPath provenanceDir publicKeyName) =
      readRsaPublicKey files (givenKeyPath provenanceDir publicKey) ∨
    ∀ archive ∈ archives.all, Signs files archive (archiveSignature provenanceDir archive)
      (givenKeyPath provenanceDir publicKey)
  named : ∀ body provenance, readToString files (provenancePath provenanceDir) = .ok body →
    parseJson body = some provenance → ∀ archive ∈ archives.all, Named files provenance archive

end

/-! ### What a verification has looked at -/

section

variable {files : FileSet} [ReleaseCrypto]

theorem signs_of_verifyFileSignature {input signature publicKey : String}
    (h : verifyFileSignature files input signature publicKey = .ok true) :
    Signs files input signature publicKey := by
  rw [verifyFileSignature] at h
  split_ifs at h
  · cases h
  obtain ⟨message, hmessage, h⟩ := bind_eq_ok.mp h
  obtain ⟨sig, hsig, h⟩ := bind_eq_ok.mp h
  obtain ⟨key, hkey, h⟩ := bind_eq_ok.mp h
  exact ⟨message, sig, key, orContext_eq_ok.mp hmessage, orContext_eq_ok.mp hsig, hkey,
    Except.ok.inj h⟩

theorem signs_of_verifyReleaseArchiveSignature {archive provenanceDir : String}
    (h : verifyReleaseArchiveSignature files archive provenanceDir = .ok ()) :
    Signs files archive (archiveSignature provenanceDir archive) (joinPath provenanceDir publicKeyName) := by
  obtain ⟨archiveName, hname, h⟩ := bind_eq_ok.mp h
  obtain ⟨-, h⟩ := seq_eq_ok.mp h
  obtain ⟨-, h⟩ := seq_eq_ok.mp h
  obtain ⟨-, h⟩ := seq_eq_ok.mp h
  obtain ⟨checksumText, -, h⟩ := bind_eq_ok.mp h
  obtain ⟨expected, -, h⟩ := bind_eq_ok.mp h
  obtain ⟨actual, -, h⟩ := bind_eq_ok.mp h
  obtain ⟨-, h⟩ := seq_eq_ok.mp h
  obtain ⟨verified, hverified, h⟩ := bind_eq_ok.mp h
  rw [archiveSignature, orContext_eq_ok.mp hname, Option.getD_some]
  refine signs_of_verifyFileSignature (hverified.trans (congrArg _ ?_))
  simpa using h

theorem signs_of_verifyReleaseProvenanceSignature {input signature publicKey : String}
    (h : verifyReleaseProvenanceSignature files input signature publicKey = true) :
    Signs files input signature publicKey := by
  rw [verifyReleaseProvenanceSignature] at h
  split_ifs at h
  cases hverified : verifyFileSignature files input signature publicKey with
  | error e => rw [hverified] at h; cases h
  | ok verified =>
    rw [hverified] at h
    exact signs_of_verifyFileSignature (hverified.trans (congrArg _ h))

theorem Signs.of_key {input signature publicKey publicKey' : String}
    (h : Signs files input signature publicKey)
    (hkey : readRsaPublicKey files publicKey = readRsaPublicKey files publicKey') :
    Signs files input signature publicKey' := by
  obtain ⟨message, sig, key, hmessage, hsig, hread, hverify⟩ := h
  exact ⟨message, sig, key, hmessage, hsig, hkey ▸ hread, hverify⟩

variable [JsonText] {archives : ReleaseArchives} {provenanceDir : String} {publicKey : Option String}
  {report : Json}

/-- **What a verification has looked at**: the archives with the key of the directory, and the document
with the key that is given. -/
theorem releaseVerifyProvenance_eq_ok
    (h : releaseVerifyProvenance files archives provenanceDir publicKey = .ok report) :
    (∀ archive ∈ archives.all, Signs files archive (archiveSignature provenanceDir archive)
      (joinPath provenanceDir publicKeyName)) ∧
    Signs files (provenancePath provenanceDir) (provenanceSignaturePath provenanceDir)
      (givenKeyPath provenanceDir publicKey) ∧
    ∃ body provenance, readToString files (provenancePath provenanceDir) = .ok body ∧
      parseJson body = some provenance := by
  obtain ⟨-, h⟩ := seq_eq_ok.mp h
  obtain ⟨harchives, h⟩ := seq_eq_ok.mp h
  obtain ⟨body, hbody, h⟩ := bind_eq_ok.mp h
  obtain ⟨provenance, hparse, h⟩ := bind_eq_ok.mp h
  obtain ⟨-, h⟩ := seq_eq_ok.mp h
  obtain ⟨hsignature, -⟩ := seq_eq_ok.mp h
  refine ⟨fun archive harchive => ?_, ?_, body, provenance, hbody, orContext_eq_ok.mp hparse⟩
  · exact signs_of_verifyReleaseArchiveSignature (forM_eq_ok.mp harchives archive harchive)
  · refine signs_of_verifyReleaseProvenanceSignature ?_
    simpa using hsignature

/-- **What is verified is covered if and only if the directory is consistent** with the key. -/
theorem covered_iff (h : releaseVerifyProvenance files archives provenanceDir publicKey = .ok report) :
    Covered files archives provenanceDir publicKey ↔ Consistent files archives provenanceDir publicKey := by
  obtain ⟨harchives, hprovenance, body, provenance, hbody, hparse⟩ := releaseVerifyProvenance_eq_ok h
  constructor
  · rintro ⟨-, hsigns, body', provenance', hbody', hparse', hnamed⟩
    refine ⟨.inr hsigns, fun body'' provenance'' hbody'' hparse'' => ?_⟩
    obtain rfl := Except.ok.inj (hbody'.symm.trans hbody'')
    obtain rfl := Option.some.inj (hparse'.symm.trans hparse'')
    exact hnamed
  · rintro ⟨hkey, hnamed⟩
    refine ⟨hprovenance, ?_, body, provenance, hbody, hparse, hnamed body provenance hbody hparse⟩
    rcases hkey with hkey | hsigns
    · exact fun archive harchive => (harchives archive harchive).of_key hkey
    · exact hsigns

end

/-! ### Archives of another key -/

/-- A key is its text, and a signature is the key and the message. -/
@[reducible] def spelledCrypto : ReleaseCrypto where
  Key := String
  sha256Hex
    | .text s => s
    | .binary _ => ""
  fromPublicKeyPem pem := some pem
  verifyRsaSha256Bytes key message signature :=
    match message, signature with
    | .text message, .text signature => signature = key ++ message
    | _, _ => false

@[reducible] def documentJson : JsonText where
  parseJson text :=
    if text = "document" then some (.obj [("schema_version", .str "ao2.release-provenance.v1")]) else none

attribute [local instance] spelledCrypto documentJson

def otherKeyFiles : FileSet := fun path => [
  ("given.pem", .text "given "),
  ("dist/ao2-release-signing-public.pem", .text "other "),
  ("dist/ao2-release-provenance.json", .text "document"),
  ("dist/ao2-release-provenance.json.sig", .text "given document"),
  ("linux", .text "l"), ("dist/linux.sha256", .text "l  linux"), ("dist/linux.sig", .text "other l"),
  ("x86", .text "x"), ("dist/x86.sha256", .text "x  x86"), ("dist/x86.sig", .text "other x"),
  ("win", .text "w"), ("dist/win.sha256", .text "w  win"), ("dist/win.sig", .text "other w")].lookup path

def otherKeyArchives : ReleaseArchives := ⟨none, "linux", "x86", "win"⟩

theorem verify_otherKey : releaseVerifyProvenance otherKeyFiles otherKeyArchives "dist"
    (some "given.pem") =
      .ok (verifyReport "dist" "given.pem" "dist/ao2-release-provenance.json" otherKeyArchives.all) := by
  rfl

theorem covered_iff_otherKey : Covered otherKeyFiles otherKeyArchives "dist" (some "given.pem") ↔
    Consistent otherKeyFiles otherKeyArchives "dist" (some "given.pem") :=
  covered_iff verify_otherKey

/-- The signatures of the archives are not of the key that is given. -/
theorem not_covered_otherKey :
    releaseVerifyProvenance otherKeyFiles otherKeyArchives "dist" (some "given.pem") =
        .ok (verifyReport "dist" "given.pem" "dist/ao2-release-provenance.json" otherKeyArchives.all) ∧
      ¬ Covered otherKeyFiles otherKeyArchives "dist" (some "given.pem") := by
  refine ⟨verify_otherKey, fun h => ?_⟩
  obtain ⟨message, sig, key, hmessage, hsig, hkey, hverify⟩ := h.signed "linux" (by decide)
  have hmessage' : otherKeyFiles "linux" = some (.text "l") := by decide
  have hsig' : otherKeyFiles (archiveSignature "dist" "linux") = some (.text "other l") := by decide
  have hkey' : readRsaPublicKey otherKeyFiles "given.pem" = .ok "given " := rfl
  obtain rfl := Option.some.inj (hmessage'.symm.trans hmessage)
  obtain rfl := Option.some.inj (hsig'.symm.trans hsig)
  obtain rfl := Except.ok.inj (hkey'.symm.trans hkey)
  exact absurd hverify (by decide)

end Release

end Ao2
