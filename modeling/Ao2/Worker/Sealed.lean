import Ao2.Selection
import Ao2.Worker.Authorize

/-!
# Authorized tasks are sealed

A task that was authorized is to be verified in its time, and no other task with its authorization.
The signer writes the names of the node and of the request as texts, and the verification compares
them as they are: a task whose request is a number is authorized, and never verified. A task that
was changed is refused unless its digest cannot be computed.
-/

namespace Ao2

open Python Interaction

section

variable {F : Type} [FloatValue F] [SigningLibrary] {config : WorkerConfig}
  {options : AuthorizeOptions} {task authorized reread cross : Members F} {s : SignedParts}

omit [SigningLibrary] in
theorem pyEq_str_iff {t : PyStr} {v : PyJson F} : pyEq (.str t) v = true ↔ v = .str t := by
  cases v <;> simp [pyEq, sameValue, numberEq, eq_comm]

omit [SigningLibrary] in
theorem strOrEmpty_str (t : PyStr) : strOrEmpty (.str t : PyJson F) = t := by
  cases t with
  | nil => rfl
  | cons c t => rfl

/-! ### The object without its authorization -/

omit [FloatValue F] [SigningLibrary] in
theorem getItem_unsignedPart (key : String)
    (hne : ofString key ≠ ofString "execution_authorization")
    (cross : Members F) : getItem (unsignedPart cross) key = getItem cross key := by
  have hlookup := lookup_filter_fst (fun k => decide (k ≠ ofString "execution_authorization")) cross
    (ofString key)
  rw [decide_eq_true hne, if_pos rfl] at hlookup
  exact congrArg (fun v => v.getD .null) hlookup

omit [FloatValue F] [SigningLibrary] in
theorem unsignedPart_idem (cross : Members F) :
    unsignedPart (unsignedPart cross) = unsignedPart cross := by
  rw [unsignedPart, unsignedPart, List.filter_filter]
  simp

omit [FloatValue F] [SigningLibrary] in
theorem unsignedPart_setItem (cross : Members F) (v : PyJson F) :
    unsignedPart (setItem (ofString "execution_authorization") v (unsignedPart cross)) =
      unsignedPart cross := by
  have hnone : ofString "execution_authorization" ∉ (unsignedPart cross).map Prod.fst := by
    intro h
    obtain ⟨m, hm, heq⟩ := List.mem_map.mp h
    exact absurd heq (of_decide_eq_true (List.mem_filter.mp hm).2)
  rw [setItem_of_notMem hnone]
  simp [unsignedPart]

theorem carries_cross (s : SignedParts) (cross : Members F) : CarriesSigned s cross (s.cross cross) := by
  rw [CarriesSigned, getItem, SignedParts.cross, lookup_setItem_self]
  rfl

theorem getItem_cross (key : String) (hne : ofString key ≠ ofString "execution_authorization")
    (s : SignedParts) (cross : Members F) : getItem (s.cross cross) key = getItem cross key := by
  rw [getItem, SignedParts.cross, lookup_setItem_of_ne hne]
  rfl

/-! ### The claim -/

/-- The part of a task that is for the worker. -/
def crossOf (task : Members F) : Members F :=
  match getItem task "ao2_cross_host" with
  | .dict cross => cross
  | _ => []

/-- **A task is sealed**: in its time it is verified, and with this change it is refused. -/
structure Sealed (config : WorkerConfig) (options : AuthorizeOptions)
    (authorized change : Members F) : Prop where
  verified : ∀ current, options.issuedAt ≤ current → current ≤ options.expiresAt →
    verdictAt config (crossOf authorized) current = .ok ()
  refused : ∀ current, ∃ reason, verdictAt config change current = .error (.refused reason)

/-- An object was changed outside of its authorization, or lost it. -/
def Altered (cross change : Members F) : Prop :=
  change.lookup (ofString "execution_authorization") = none ∨
    getItem change "execution_authorization" = getItem cross "execution_authorization" ∧
      sortKeys (.dict (unsignedPart change)) ≠ sortKeys (.dict (unsignedPart cross))

/-- The node and the request are named by texts. -/
structure TextNames (cross : Members F) : Prop where
  target : ∃ node, getItem cross "target_node" = .str node
  request : ∃ requestId, getItem cross "request_id" = .str requestId

/-- What is changed can be read: the authorization is gone, or the names are others, or there is a
canonical form. -/
def LegibleChange (cross change : Members F) : Prop :=
  change.lookup (ofString "execution_authorization") = none ∨
    getItem change "target_node" ≠ .str (strOrEmpty (getItem cross "target_node")) ∨
    getItem change "request_id" ≠ .str (strOrEmpty (getItem cross "request_id")) ∨
    Encodable (.dict (unsignedPart change))

/-- Two objects have no digest in common, unless they have the same canonical form. -/
def NoCollision (cross change : Members F) : Prop :=
  ∀ bytes bytes', canonicalJsonBytes (.dict (unsignedPart cross)) = .ok bytes →
    canonicalJsonBytes (.dict (unsignedPart change)) = .ok bytes' →
    sha256Hex bytes = sha256Hex bytes' → bytes = bytes'

/-! ### What is signed is verified -/

variable {change : Members F}

theorem executionActionDigest_cross (s : SignedParts) (cross : Members F) :
    executionActionDigest (s.cross (unsignedPart cross)) =
      executionActionDigest (unsignedPart cross) := by
  have hdigest (c : Members F) : executionActionDigest c =
      (canonicalJsonBytes (.dict (unsignedPart c))).map sha256Hex := rfl
  rw [hdigest, hdigest, unsignedPart_idem, SignedParts.cross, unsignedPart_setItem]

theorem getItem_signed (key : String) (hne : ofString key ≠ ofString "execution_authorization") :
    getItem (s.cross (unsignedPart cross)) key = getItem cross key := by
  rw [getItem_cross key hne, getItem_unsignedPart key hne]

/-- **A task is verified in its time** if and only if its names are texts. -/
theorem verified_iff (hlaws : SigningLaws) (hs : SignedAs config options (unsignedPart cross) s) :
    (∀ current, options.issuedAt ≤ current → current ≤ options.expiresAt →
      verdictAt config (s.cross (unsignedPart cross)) current = .ok ()) ↔ TextNames cross := by
  have hverdict := verdictAt_carried hlaws hs (carries_cross s (unsignedPart cross))
  have hsubject := checkSubject_carried hs (s.cross (unsignedPart cross))
  rw [getItem_signed "target_node" (by decide), getItem_signed "request_id" (by decide),
    getItem_unsignedPart "target_node" (by decide), getItem_unsignedPart "request_id" (by decide),
    executionActionDigest_cross, hs.digest] at hsubject
  constructor
  · intro h
    have httl := hs.ttl
    have hok := h options.issuedAt le_rfl (by rw [AuthorizeOptions.expiresAt]; omega)
    rw [hverdict] at hok
    obtain ⟨_, hcheck, _⟩ := bind_eq_ok.mp hok
    rw [hsubject] at hcheck
    obtain ⟨_, htarget, hcheck⟩ := bind_eq_ok.mp hcheck
    obtain ⟨_, hrequest, _⟩ := bind_eq_ok.mp hcheck
    exact ⟨⟨_, pyEq_str_iff.mp (require_eq_ok.mp htarget)⟩, _,
      pyEq_str_iff.mp (require_eq_ok.mp hrequest)⟩
  · rintro ⟨⟨node, hnode⟩, requestId, hrequest⟩ current hlow hhigh
    have hskew : (0 : ℤ) ≤ executionAuthorizationClockSkew := by decide
    have hclock : checkClock current options.issuedAt options.expiresAt = .ok () := by
      rw [checkClock, if_neg (by omega), if_neg (by omega)]
    rw [hverdict, hsubject, hnode, hrequest, strOrEmpty_str, strOrEmpty_str, hclock]
    refine bind_eq_ok.mpr ⟨(), ?_, rfl⟩
    refine bind_eq_ok.mpr ⟨(), require_eq_ok.mpr (pyEq_str_iff.mpr rfl), ?_⟩
    refine bind_eq_ok.mpr ⟨(), require_eq_ok.mpr (pyEq_str_iff.mpr rfl), ?_⟩
    exact bind_eq_ok.mpr ⟨s.actionDigest, rfl, require_eq_ok.mpr (isText_iff.mpr rfl)⟩

/-! ### What is changed is refused -/

/-- **An object that was changed is refused** if and only if it can be read. -/
theorem refused_altered_iff (hlaws : SigningLaws) (hF : ReprTexts F)
    (hs : SignedAs config options (unsignedPart cross) s)
    (haltered : Altered (s.cross (unsignedPart cross)) change)
    (hcollision : NoCollision cross change) :
    (∀ current, ∃ reason, verdictAt config change current = .error (.refused reason)) ↔
      LegibleChange cross change := by
  rcases haltered with hnone | ⟨hkept, haltered⟩
  · refine iff_of_true (fun current => ⟨"execution_authorization_missing", ?_⟩) (.inl hnone)
    rw [verdictAt_eq, checkAuthorization, readAuthorization, getItem, hnone]
    rfl
  rw [SignedParts.cross, unsignedPart_setItem] at haltered
  have hcarries : CarriesSigned s (unsignedPart cross) change := hkept.trans (carries_cross s _)
  have hsome : change.lookup (ofString "execution_authorization") ≠ none := fun hnone => by
    rw [CarriesSigned, getItem, hnone] at hcarries
    cases hcarries
  have hverdict := verdictAt_carried hlaws hs hcarries
  have hsubject := checkSubject_carried hs change
  rw [getItem_unsignedPart "target_node" (by decide),
    getItem_unsignedPart "request_id" (by decide)] at hsubject
  by_cases htarget : getItem change "target_node" = .str (strOrEmpty (getItem cross "target_node"))
  swap
  · refine iff_of_true (fun current => ⟨"execution_authorization_target_mismatch", ?_⟩)
      (.inr (.inl htarget))
    rw [hverdict, hsubject, Bool.eq_false_iff.mpr fun h => htarget (pyEq_str_iff.mp h)]
    rfl
  rw [pyEq_str_iff.mpr htarget] at hsubject
  by_cases hrequest : getItem change "request_id" = .str (strOrEmpty (getItem cross "request_id"))
  swap
  · refine iff_of_true (fun current => ⟨"execution_authorization_request_mismatch", ?_⟩)
      (.inr (.inr (.inl hrequest)))
    rw [hverdict, hsubject, Bool.eq_false_iff.mpr fun h => hrequest (pyEq_str_iff.mp h)]
    rfl
  rw [pyEq_str_iff.mpr hrequest] at hsubject
  have hdigest : executionActionDigest change =
      (canonicalJsonBytes (.dict (unsignedPart change))).map sha256Hex := rfl
  by_cases hencodable : Encodable (.dict (unsignedPart change))
  · refine iff_of_true (fun current => ⟨"execution_authorization_action_digest_mismatch", ?_⟩)
      (.inr (.inr (.inr hencodable)))
    obtain ⟨bytes', hbytes'⟩ := (canonicalJsonBytes_isOk_iff _).mpr hencodable
    obtain ⟨bytes, hbytes, hown⟩ := executionActionDigest_ok hs.digest
    replace hbytes : canonicalJsonBytes (.dict (unsignedPart cross)) = .ok bytes := by
      rw [← unsignedPart_idem cross]
      exact hbytes
    have hother : isText (.str s.actionDigest : PyJson F) (sha256Hex bytes') = false := by
      refine Bool.eq_false_iff.mpr fun h => haltered ?_
      have hsame : sha256Hex bytes = sha256Hex bytes' :=
        hown.trans (PyJson.str.inj (isText_iff.mp h))
      obtain rfl := hcollision bytes bytes' hbytes hbytes' hsame
      exact canonicalJsonBytes_injective hF hbytes' hbytes
    rw [hverdict, hsubject, hdigest, hbytes']
    change (require (isText (.str s.actionDigest : PyJson F) (sha256Hex bytes')) _ >>= _) = _
    rw [hother]
    rfl
  · have hlegible : ¬ LegibleChange cross change := by
      rintro (h | h | h | h)
      · exact hsome h
      · exact h htarget
      · exact h hrequest
      · exact hencodable h
    refine iff_of_false (fun h => ?_) hlegible
    obtain ⟨reason, hrefused⟩ := h 0
    obtain ⟨e, herror⟩ := canonicalJsonBytes_error_iff.mpr hencodable
    rw [hverdict, hsubject, hdigest, herror] at hrefused
    cases hrefused

/-- **A task is sealed** if and only if its names are texts and what is changed can be read. -/
theorem sealed_iff (hlaws : SigningLaws) (hF : ReprTexts F)
    (h : authorizeControlTask config options task = .ok authorized)
    (hcross : controlTask task = .ok (reread, cross))
    (haltered : Altered (crossOf authorized) change)
    (hcollision : NoCollision cross change) :
    Sealed config options authorized change ↔ TextNames cross ∧ LegibleChange cross change := by
  obtain ⟨reread', cross', s, hcross', hs, rfl⟩ := authorizeControlTask_ok h
  obtain ⟨rfl, rfl⟩ := Prod.mk.inj (Except.ok.inj (hcross.symm.trans hcross'))
  have hsigned : crossOf (setItem (ofString "ao2_cross_host")
      (.dict (s.cross (unsignedPart cross))) reread) = s.cross (unsignedPart cross) := by
    rw [crossOf, getItem, lookup_setItem_self]
    rfl
  rw [hsigned] at haltered
  rw [← verified_iff hlaws hs, ← refused_altered_iff hlaws hF hs haltered hcollision]
  constructor
  · intro hsealed
    have hverified := hsealed.verified
    rw [hsigned] at hverified
    exact ⟨hverified, hsealed.refused⟩
  · rintro ⟨hverified, hrefused⟩
    refine ⟨?_, hrefused⟩
    rw [hsigned]
    exact hverified

end

/-! ### A request that is a number -/

section

/-- Numbers by their texts. -/
@[reducible] def markedTexts : FloatValue (List Char) where
  parseFloat := id
  floatRepr := id
  floatTruthy text := text ≠ ['0', '.', '0']
  floatFinite text := text.all isNumberChar && text.any fun c => c = '.' ∨ c = 'e'
  floatStr text := text.map ofChar
  floatEq x y := x = y
  floatSame x y := x = y
  floatEqInt x n := x = (toString n).toList
  reprStr s := ofString "'" ++ s ++ ofString "'"

/-- A byte as a character, and back. -/
def spellByte (b : UInt8) : CodePoint := Fin.ofNat _ b.toNat

def samplePem : PyStr :=
  ofString "-----BEGIN PUBLIC KEY-----\nAA==\n-----END PUBLIC KEY-----\n"

def sampleKey : Bytes := bytesOf "-----BEGIN PUBLIC KEY-----\nAA==\n-----END PUBLIC KEY-----\n"

def samplePrivateKey : Bytes := bytesOf "private"

/-- The text without its offset, as a number. -/
def readNumber? (text : PyStr) : Option ℤ :=
  SerdeValue.integerOf ((text.take (text.length - 6)).map fun c => .ofNat c.val)

/-- A digest spells what it is of, except that of the key, and a signature is the private key and
the subject. -/
@[reducible] def spellingSigner : SigningLibrary where
  sha256Hex bytes := if bytes = sampleKey then zeros else ofChar 'x' :: bytes.map spellByte
  b64decode text := some (text.map fun c => .ofNat c.val)
  fromIsoFormat text := (readNumber? text).or
    (if text = ofString "1970-01-01T00:00:00+00:00" then some 0
      else if text = ofString "1970-01-01T00:05:00+00:00" then some 300000000 else none)
  b64encode bytes := bytes.map spellByte
  isoFormat t :=
    if t = 0 then some (ofString "1970-01-01T00:00:00")
    else if t = 300000000 then some (ofString "1970-01-01T00:05:00")
    else some (ofString (toString t))
  derivePublicKey privateKey := if privateKey = samplePrivateKey then some samplePem else none
  signSha256 privateKey subject :=
    if (privateKey ++ subject).length ≤ 4096 then some (privateKey ++ subject) else none
  verifySha256 publicKey signature subject :=
    publicKey = sampleKey ∧ signature = samplePrivateKey ++ subject

attribute [local instance] markedTexts spellingSigner

theorem reprTexts_marked : ReprTexts (List Char) where
  unique _ _ _ _ h := h
  number x hx := List.all_eq_true.mp (Bool.and_eq_true_iff.mp hx).1
  marked x hx := by
    obtain ⟨c, hc, hmark⟩ := List.any_eq_true.mp (Bool.and_eq_true_iff.mp hx).2
    exact ⟨c, hc, of_decide_eq_true hmark⟩

theorem canonical_samplePem : canonicalPublicKeyBytes samplePem = some sampleKey :=
    by decide +kernel

theorem readNumber?_toString (t : ℤ) :
    readNumber? (ofString (toString t) ++ ofString "+00:00") = some t := by
  have htake : (ofString (toString t) ++ ofString "+00:00").take
      ((ofString (toString t) ++ ofString "+00:00").length - 6) = ofString (toString t) := by
    rw [List.length_append, show (ofString "+00:00").length = 6 from rfl, Nat.add_sub_cancel,
      List.take_left]
  have hchars : (ofString (toString t)).map (fun c => Char.ofNat c.val) = (toString t).toList := by
    rw [ofString, List.map_map]
    exact (List.map_congr_left fun c _ => Char.ofNat_toNat c).trans (List.map_id _)
  rw [readNumber?, htake, hchars, SerdeValue.integerOf_toString]

theorem derivePublicKey_spelling {privateKey : Bytes} {pem : PyStr}
    (h : derivePublicKey privateKey = some pem) :
    privateKey = samplePrivateKey ∧ pem = samplePem := by
  change (if privateKey = samplePrivateKey then some samplePem else none) = some pem at h
  split at h
  · next heq => exact ⟨heq, (Option.some.inj h).symm⟩
  · cases h

theorem signSha256_spelling {privateKey subject signature : Bytes}
    (h : signSha256 privateKey subject = some signature) :
    signature = privateKey ++ subject ∧ signature.length ≤ 4096 := by
  change (if (privateKey ++ subject).length ≤ 4096 then some (privateKey ++ subject) else none) =
    some signature at h
  split at h
  · next hle =>
    obtain rfl := Option.some.inj h
    exact ⟨rfl, hle⟩
  · cases h

theorem signingLaws_spelling : SigningLaws where
  dates t text h := by
    change (if t = 0 then some (ofString "1970-01-01T00:00:00")
      else if t = 300000000 then some (ofString "1970-01-01T00:05:00")
      else some (ofString (toString t))) = some text at h
    split at h
    · next hzero =>
      obtain rfl := Option.some.inj h
      rw [hzero]
      decide +kernel
    split at h
    · next hlater =>
      obtain rfl := Option.some.inj h
      rw [hlater]
      decide +kernel
    · obtain rfl := Option.some.inj h
      change (readNumber? _).or _ = _
      rw [readNumber?_toString, Option.some_or]
  base64 bytes := by
    change some ((bytes.map spellByte).map fun c => UInt8.ofNat c.val) = some bytes
    rw [List.map_map]
    refine congrArg some ((List.map_congr_left fun b _ => ?_).trans (List.map_id bytes))
    have hb := b.toNat_lt
    rw [Function.comp_apply, spellByte, Fin.val_ofNat, Nat.mod_eq_of_lt (by omega)]
    exact UInt8.ofNat_toNat
  verifies privateKey subject signature publicKey pem hpem hkey hsign := by
    obtain ⟨rfl, rfl⟩ := derivePublicKey_spelling hpem
    obtain ⟨rfl, -⟩ := signSha256_spelling hsign
    rw [canonical_samplePem] at hkey
    obtain rfl := Option.some.inj hkey
    exact decide_eq_true ⟨rfl, rfl⟩
  publicKeyLength privateKey publicKey pem hpem hkey := by
    obtain ⟨rfl, rfl⟩ := derivePublicKey_spelling hpem
    rw [canonical_samplePem] at hkey
    obtain rfl := Option.some.inj hkey
    decide
  signatureLength privateKey subject signature h := by
    change (signature.map spellByte).length ≤ 4096
    rw [List.length_map]
    exact (signSha256_spelling h).2

def sampleConfig : WorkerConfig := ⟨ofString "node", [zeros]⟩

def sampleOptions : AuthorizeOptions := ⟨samplePrivateKey, samplePem, 300, 0, true⟩

def sampleTask (requestId : PyJson (List Char)) : Members (List Char) :=
  [(ofString "ao2_cross_host", .dict [(ofString "target_node", .str (ofString "node")),
    (ofString "request_id", requestId), (ofString "parameters", .dict [])])]

def sampleCross (requestId : PyJson (List Char)) : Members (List Char) :=
  [(ofString "target_node", .str (ofString "node")), (ofString "request_id", requestId),
    (ofString "parameters", .dict [])]

theorem controlTask_sample (requestId : PyJson (List Char))
    (h : requestId = .int 7 ∨ requestId = .str (ofString "r-1")) :
    controlTask (sampleTask requestId) = .ok (sampleTask requestId, sampleCross requestId) := by
  rcases h with rfl | rfl
  · rfl
  · rfl

/-- The task that was authorized, if one was. -/
def authorizedOf (r : Except AuthorizeError (Members (List Char))) : Members (List Char) :=
  match r with
  | .ok authorized => authorized
  | .error _ => []

theorem eq_authorizedOf {r : Except AuthorizeError (Members (List Char))} (h : r.isOk = true) :
    r = .ok (authorizedOf r) := by
  cases r with
  | ok authorized => rfl
  | error e => cases h

def sampleAuthorized (requestId : PyJson (List Char)) : Members (List Char) :=
  authorizedOf (authorizeControlTask sampleConfig sampleOptions (sampleTask requestId))

theorem authorize_sample {requestId : PyJson (List Char)}
    (h : (authorizeControlTask sampleConfig sampleOptions (sampleTask requestId)).isOk = true) :
    authorizeControlTask sampleConfig sampleOptions (sampleTask requestId) =
      .ok (sampleAuthorized requestId) :=
  eq_authorizedOf h

theorem sha256Hex_spelling_injective {bytes bytes' : Bytes}
    (h : sha256Hex bytes = sha256Hex bytes') :
    bytes = bytes' := by
  have hspell : Function.Injective spellByte := fun b b' heq => by
    have hb := b.toNat_lt
    have hb' := b'.toNat_lt
    have hval := congrArg Fin.val heq
    rw [spellByte, spellByte, Fin.val_ofNat, Fin.val_ofNat, Nat.mod_eq_of_lt (by omega),
      Nat.mod_eq_of_lt (by omega)] at hval
    exact UInt8.toNat_inj.mp hval
  have hzeros (b : Bytes) : zeros ≠ ofChar 'x' :: b.map spellByte := fun heq =>
    absurd (List.cons.inj heq).1 (by decide)
  change (if bytes = sampleKey then zeros else ofChar 'x' :: bytes.map spellByte) =
    (if bytes' = sampleKey then zeros else ofChar 'x' :: bytes'.map spellByte) at h
  split at h <;> split at h
  · next hkey hkey' => rw [hkey, hkey']
  · exact absurd h (hzeros _)
  · exact absurd h.symm (hzeros _)
  · exact List.map_injective_iff.mpr hspell (List.cons.inj h).2

/-- A task with another member. -/
theorem altered_cons (v : PyJson (List Char)) (cross : Members (List Char)) :
    Altered cross ((ofString "action", v) :: cross) := by
  have hlength (members : Members (List Char)) :
      (sortMembers members).length = members.length := by
    induction members with
    | nil => rfl
    | cons m members ih => rw [sortMembers, List.length_cons, List.length_cons, ih]
  refine .inr ⟨rfl, fun h => ?_⟩
  have hlengths := congrArg List.length (PyJson.dict.inj h)
  rw [List.length_insertionSort, List.length_insertionSort, hlength, hlength] at hlengths
  exact absurd hlengths (Nat.succ_ne_self _)

def sampleChange : Members (List Char) :=
  (ofString "action", .str (ofString "status")) ::
    crossOf (sampleAuthorized (.str (ofString "r-1")))

theorem sealed_iff_sample :
    Sealed sampleConfig sampleOptions (sampleAuthorized (.str (ofString "r-1"))) sampleChange ↔
      TextNames (sampleCross (.str (ofString "r-1"))) ∧
        LegibleChange (sampleCross (.str (ofString "r-1"))) sampleChange :=
  sealed_iff signingLaws_spelling reprTexts_marked (authorize_sample (by decide +kernel))
    (controlTask_sample _ (.inr rfl)) (altered_cons _ _) fun _ _ _ _ => sha256Hex_spelling_injective

/-- **A request that is a number is authorized**, and never verified. -/
theorem not_sealed_number :
    authorizeControlTask sampleConfig sampleOptions (sampleTask (.int 7)) =
        .ok (sampleAuthorized (.int 7)) ∧
      ∀ change, ¬ Sealed sampleConfig sampleOptions (sampleAuthorized (.int 7)) change := by
  have hauthorized := @authorize_sample (.int 7) (by decide +kernel)
  refine ⟨hauthorized, fun change hsealed => ?_⟩
  have hverdict := hsealed.verified 0 le_rfl (by decide)
  have herror : (verdictAt sampleConfig (crossOf (sampleAuthorized (.int 7))) 0).isOk = false := by
    decide +kernel
  rw [hverdict] at herror
  cases herror

end

end Ao2
