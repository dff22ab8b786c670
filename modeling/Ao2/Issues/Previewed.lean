import Ao2.Issues.Draft
import Ao2.Json.Encoding
import Ao2.Json.Pretty
import Ao2.Run.Quiet
import Ao2.Texts.Ascii
import Ao2.Texts.Scan

/-!
# What a preview writes

An action that is written for some evidence is read again: it passes the checks of the reader, and
the digest of its subject is that of no other subject. Its request says where the evidence is, once.

## Main results

* `DraftAction.fromJson_document` — what is written is read as it was
* `occurrences_evidenceFooterPrefix` — the evidence is named once
-/

namespace Ao2

namespace Issues

namespace Draft

open Json

/-! ### What is read back -/

theorem RepositoryIdentity.fromJson_document (r : RepositoryIdentity) :
    RepositoryIdentity.fromJson r.document = some r := rfl

theorem SafetyBoundary.fromJson_document (s : SafetyBoundary) :
    SafetyBoundary.fromJson s.document = some s := rfl

theorem RepairEvidence.fromJson_document (r : RepairEvidence) :
    RepairEvidence.fromJson r.document = some r := by
  change (items? str? (.strs r.changedFiles)).bind _ = _
  rw [items?_strs]
  rfl

theorem IssueIdentity.fromJson_document {i : IssueIdentity} (h : i.number < 18446744073709551616) :
    IssueIdentity.fromJson i.document = some i := by
  obtain ⟨m, hm⟩ : ∃ m, i.document = .obj m := ⟨_, rfl⟩
  have hfields : i.document.fieldsOf
      ["canonical_url", "number", "snapshot_sha256", "classification"] = some m := by
    obtain rfl := Json.obj.inj hm
    rfl
  have hurl : field str? "canonical_url" m = some i.canonicalUrl := by
    obtain rfl := Json.obj.inj hm
    rfl
  have hnumber : field unsigned64? "number" m = some i.number := by
    obtain rfl := Json.obj.inj hm
    exact (field_of_lookup rfl).trans (unsigned?_nat h)
  have hsnapshot : field str? "snapshot_sha256" m = some i.snapshotSha256 := by
    obtain rfl := Json.obj.inj hm
    rfl
  have hclassification : field str? "classification" m = some i.classification := by
    obtain rfl := Json.obj.inj hm
    rfl
  rw [IssueIdentity.fromJson, hfields]
  simp only [Option.bind_eq_bind, Option.bind_some, hurl, hnumber, hsnapshot, hclassification]

theorem DraftRequest.fromJson_document (r : DraftRequest) :
    DraftRequest.fromJson r.document = some r := rfl

theorem DraftSubject.fromJson_document {s : DraftSubject} (h : s.issue.number < 18446744073709551616) :
    DraftSubject.fromJson s.document = some s := by
  obtain ⟨m, hm⟩ : ∃ m, s.document = .obj m := ⟨_, rfl⟩
  have hfields : s.document.fieldsOf
      ["operation", "issue", "repository", "repair", "support_bundle", "request", "safety"] = some m := by
    rw [hm]
    obtain rfl := Json.obj.inj hm
    cases s.supportBundle <;> rfl
  have hoperation : field str? "operation" m = some s.operation := by
    obtain rfl := Json.obj.inj hm
    rfl
  have hissue : field IssueIdentity.fromJson "issue" m = some s.issue := by
    obtain rfl := Json.obj.inj hm
    exact (field_of_lookup rfl).trans (IssueIdentity.fromJson_document h)
  have hrepository : field RepositoryIdentity.fromJson "repository" m = some s.repository := by
    obtain rfl := Json.obj.inj hm
    exact (field_of_lookup rfl).trans (RepositoryIdentity.fromJson_document _)
  have hrepair : field RepairEvidence.fromJson "repair" m = some s.repair := by
    obtain rfl := Json.obj.inj hm
    exact (field_of_lookup rfl).trans (RepairEvidence.fromJson_document _)
  have hsupport : optionalField SupportBundleSubjectBinding.fromJson "support_bundle" m =
      some s.supportBundle := by
    obtain rfl := Json.obj.inj hm
    cases s.supportBundle <;> rfl
  have hrequest : field DraftRequest.fromJson "request" m = some s.request := by
    obtain rfl := Json.obj.inj hm
    exact (field_of_lookup (by cases s.supportBundle <;> rfl)).trans (DraftRequest.fromJson_document _)
  have hsafety : field SafetyBoundary.fromJson "safety" m = some s.safety := by
    obtain rfl := Json.obj.inj hm
    exact (field_of_lookup (by cases s.supportBundle <;> rfl)).trans (SafetyBoundary.fromJson_document _)
  rw [DraftSubject.fromJson, hfields]
  simp only [Option.bind_eq_bind, Option.bind_some, hoperation, hissue, hrepository, hrepair, hsupport,
    hrequest, hsafety]

theorem DraftAction.fromJson_document {a : DraftAction}
    (h : a.subject.issue.number < 18446744073709551616) : DraftAction.fromJson a.document = some a := by
  obtain ⟨m, hm⟩ : ∃ m, a.document = .obj m := ⟨_, rfl⟩
  have hfields : a.document.fieldsOf ["schema_version", "subject", "approval"] = some m := by
    obtain rfl := Json.obj.inj hm
    rfl
  have hschema : field str? "schema_version" m = some a.schemaVersion := by
    obtain rfl := Json.obj.inj hm
    rfl
  have hsubject : field DraftSubject.fromJson "subject" m = some a.subject := by
    obtain rfl := Json.obj.inj hm
    exact (field_of_lookup rfl).trans (DraftSubject.fromJson_document h)
  have happroval : field DraftApproval.fromJson "approval" m = some a.approval := by
    obtain rfl := Json.obj.inj hm
    rfl
  rw [DraftAction.fromJson, hfields]
  simp only [Option.bind_eq_bind, Option.bind_some, hschema, hsubject, happroval]

/-! ### Numbers that were read -/

theorem IssueIdentity.number_lt {v : Json} {i : IssueIdentity} (h : IssueIdentity.fromJson v = some i) :
    i.number < 18446744073709551616 := by
  simp only [IssueIdentity.fromJson, Option.bind_eq_bind, Option.bind_eq_some_iff, Option.some.injEq] at h
  obtain ⟨m, -, _, -, n, hn, _, -, _, -, rfl⟩ := h
  obtain ⟨w, -, hw⟩ := Option.bind_eq_some_iff.mp hn
  exact lt_of_unsigned? hw

theorem DraftEvidence.number_lt {v : Json} {e : DraftEvidence} (h : DraftEvidence.fromJson v = some e) :
    e.issue.number < 18446744073709551616 := by
  simp only [DraftEvidence.fromJson, Option.bind_eq_bind, Option.bind_eq_some_iff, Option.some.injEq] at h
  obtain ⟨m, -, _, -, i, hi, _, -, _, -, _, -, _, -, rfl⟩ := h
  obtain ⟨w, -, hw⟩ := Option.bind_eq_some_iff.mp hi
  exact IssueIdentity.number_lt hw

/-! ### Subjects of digests -/

theorem nat_injective : Function.Injective Json.nat := fun _ _ h => Int.ofNat.inj (Json.num.inj h)

theorem strs_injective : Function.Injective Json.strs := fun _ _ h =>
  List.map_injective_iff.mpr (fun _ _ => Json.str.inj) (Json.arr.inj h)

theorem IssueIdentity.toJson_injective : Function.Injective IssueIdentity.toJson := by
  rintro ⟨⟩ ⟨⟩ h
  simp only [IssueIdentity.toJson, Json.obj.injEq, List.cons.injEq, Prod.mk.injEq, Json.str.injEq,
    nat_injective.eq_iff, true_and, and_true] at h
  obtain ⟨rfl, rfl, rfl, rfl⟩ := h
  rfl

theorem RepositoryIdentity.toJson_injective : Function.Injective RepositoryIdentity.toJson := by
  rintro ⟨⟩ ⟨⟩ h
  simp only [RepositoryIdentity.toJson, Json.obj.injEq, List.cons.injEq, Prod.mk.injEq,
    Json.str.injEq, true_and, and_true] at h
  obtain ⟨rfl, rfl, rfl, rfl, rfl, rfl⟩ := h
  rfl

theorem RepairProvenance.toJson_injective : Function.Injective RepairProvenance.toJson := by
  rintro ⟨⟩ ⟨⟩ h
  simp only [RepairProvenance.toJson, Json.obj.injEq, List.cons.injEq, Prod.mk.injEq,
    Json.str.injEq, true_and, and_true] at h
  obtain ⟨rfl, rfl, rfl⟩ := h
  rfl

theorem RepairEvidence.toJson_injective : Function.Injective RepairEvidence.toJson := by
  rintro ⟨⟩ ⟨⟩ h
  simp only [RepairEvidence.toJson, Json.obj.injEq, List.cons.injEq, Prod.mk.injEq,
    Json.str.injEq, strs_injective.eq_iff, RepairProvenance.toJson_injective.eq_iff, true_and,
    and_true] at h
  obtain ⟨rfl, rfl, rfl, rfl, rfl, rfl⟩ := h
  rfl

theorem SafetyBoundary.toJson_injective : Function.Injective SafetyBoundary.toJson := by
  rintro ⟨⟩ ⟨⟩ h
  simp only [SafetyBoundary.toJson, Json.obj.injEq, List.cons.injEq, Prod.mk.injEq,
    Json.bool.injEq, true_and, and_true] at h
  obtain ⟨rfl, rfl, rfl, rfl, rfl, rfl, rfl, rfl⟩ := h
  rfl

theorem SupportBundleSubjectBinding.toJson_injective :
    Function.Injective SupportBundleSubjectBinding.toJson := by
  rintro ⟨⟩ ⟨⟩ h
  simp only [SupportBundleSubjectBinding.toJson, Json.obj.injEq, List.cons.injEq, Prod.mk.injEq,
    Json.str.injEq, true_and, and_true] at h
  obtain ⟨rfl, rfl, rfl, rfl, rfl, rfl⟩ := h
  rfl

theorem CommitPreconditions.toJson_injective : Function.Injective CommitPreconditions.toJson := by
  rintro ⟨⟩ ⟨⟩ h
  simp only [CommitPreconditions.toJson, Json.obj.injEq, List.cons.injEq, Prod.mk.injEq,
    Json.str.injEq, true_and, and_true] at h
  obtain ⟨rfl, rfl⟩ := h
  rfl

theorem DraftRequestBody.toJson_injective : Function.Injective DraftRequestBody.toJson := by
  rintro ⟨⟩ ⟨⟩ h
  simp only [DraftRequestBody.toJson, Json.obj.injEq, List.cons.injEq, Prod.mk.injEq,
    Json.str.injEq, Json.bool.injEq, CommitPreconditions.toJson_injective.eq_iff, true_and,
    and_true] at h
  obtain ⟨rfl, rfl, rfl, rfl, rfl, rfl⟩ := h
  rfl

theorem DraftRequest.toJson_injective : Function.Injective DraftRequest.toJson := by
  rintro ⟨⟩ ⟨⟩ h
  simp only [DraftRequest.toJson, Json.obj.injEq, List.cons.injEq, Prod.mk.injEq,
    Json.str.injEq, DraftRequestBody.toJson_injective.eq_iff, true_and, and_true] at h
  obtain ⟨rfl, rfl, rfl⟩ := h
  rfl

/-- **Subjects with the same value are the same.** -/
theorem DraftSubject.toJson_injective : Function.Injective DraftSubject.toJson := by
  rintro ⟨operation, issue, repository, repair, bundle, request, safety⟩
    ⟨operation', issue', repository', repair', bundle', request', safety'⟩ h
  cases bundle <;> cases bundle' <;>
    simp only [DraftSubject.toJson, Json.obj.injEq, List.cons_append, List.nil_append,
      List.cons.injEq, Prod.mk.injEq, Json.str.injEq, IssueIdentity.toJson_injective.eq_iff,
      RepositoryIdentity.toJson_injective.eq_iff, RepairEvidence.toJson_injective.eq_iff,
      SupportBundleSubjectBinding.toJson_injective.eq_iff, DraftRequest.toJson_injective.eq_iff,
      SafetyBoundary.toJson_injective.eq_iff, true_and, and_true, List.append_nil, reduceCtorEq,
      and_false] at h
  case none.none =>
    obtain ⟨rfl, rfl, rfl, rfl, rfl, rfl⟩ := h
    rfl
  case some.some =>
    obtain ⟨rfl, rfl, rfl, rfl, rfl, rfl, rfl⟩ := h
    rfl

/-! ### The footer -/

/-- A text without the characters at which the footer is cut. -/
def IsPlain (text : List Char) : Prop := ∀ c ∈ text, c ∉ [' ', ':', '\n']

theorem IsPlain.append {a b : List Char} (ha : IsPlain a) (hb : IsPlain b) : IsPlain (a ++ b) :=
  fun c hc => (List.mem_append.mp hc).elim (ha c) (hb c)

theorem IsPlain.not_mem {text : List Char} {c : Char} (h : IsPlain text) (hc : c ∈ [' ', ':', '\n']) :
    c ∉ text := fun hmem => h c hmem hc

theorem isPlain_of_all {p : Char → Bool} {text : List Char}
    (hp : [' ', ':', '\n'].all (fun c => !p c) = true) (h : text.all p = true) : IsPlain text := by
  intro c hc hcut
  have hnot := List.all_eq_true.mp hp c hcut
  rw [List.all_eq_true.mp h c hc] at hnot
  cases hnot

theorem IsPlain.map_toLower {text : List Char} (h : IsPlain text) : IsPlain (text.map Char.toLower) := by
  intro c hc hcut
  obtain ⟨d, hd, rfl⟩ := List.mem_map.mp hc
  rcases toLower_cases d with hsame | ⟨hlow, -, hlower⟩
  · rw [hsame] at hcut
    exact h d hd hcut
  · have hall : [' ', ':', '\n'].all (fun c => decide (c.toNat < 97)) = true := rfl
    have hsmall := of_decide_eq_true (List.all_eq_true.mp hall _ hcut)
    omega

theorem toList_of_isSha256 {value : String} (h : isSha256 value = true) :
    value.toList.all isLowerHex = true := by
  rw [isSha256, Bool.and_eq_true] at h
  rw [toList_eq_bytes fun c hc => toNat_lt_of_isLowerHex (List.all_eq_true.mp h.2 c hc)]
  exact h.2

def isSlugChar (c : Char) : Bool := isAsciiAlphanumeric c || c ∈ ['-', '_', '.']

theorem toList_of_validSlug {value : String} (h : validSlug value = true) :
    value.toList.all isSlugChar = true := by
  simp only [validSlug, Bool.and_eq_true] at h
  have hall : (bytes value).all isSlugChar = true := h.1.1.2
  have hascii : ∀ c ∈ bytes value, c.toNat < 128 := by
    intro c hc
    have hchar := List.all_eq_true.mp hall c hc
    rw [isSlugChar, Bool.or_eq_true, decide_eq_true_eq] at hchar
    rcases hchar with hchar | hchar
    · exact toNat_lt_of_isAlphanum hchar
    · have hall : ['-', '_', '.'].all (fun c => decide (c.toNat < 128)) = true := rfl
      exact of_decide_eq_true (List.all_eq_true.mp hall c hchar)
  rw [toList_eq_bytes hascii]
  exact hall

/-- The three words of a footer. The address in the second one ends in a digit. -/
def inWords (name link address : List Char) (digit : Char) (note snapshot : List Char) : List Char :=
  name ++ ' ' :: (link ++ ':' :: (address ++ [digit]) ++ ' ' :: (note ++ snapshot))

def footerText (address : List Char) (digit : Char) (snapshot : List Char) : List Char :=
  inWords "AO2-Evidence:".toList "issue_url=https".toList address digit "snapshot_sha256=".toList snapshot

theorem append_eq_inWords {name key link owner repo path number note snapshot : List Char} {digit : Char} :
    name ++ ((' ' :: (key ++ ':' :: link)) ++ (owner ++ (['/'] ++ (repo ++ (path ++
      ((number ++ [digit]) ++ ((' ' :: note) ++ snapshot))))))) =
    inWords name key (link ++ (owner ++ ('/' :: (repo ++ (path ++ number))))) digit note snapshot := by
  simp only [inWords, List.append_assoc, List.cons_append, List.nil_append]

/-- The footer of an issue that was checked. -/
theorem evidenceFooter_eq {issue : IssueIdentity} {repository : RepositoryIdentity}
    (h : validateIssue issue repository = .ok ()) :
    ∃ address digit, (evidenceFooter issue).toList =
        footerText address digit issue.snapshotSha256.toList ∧
      IsPlain (address ++ [digit]) ∧ digit.isDigit = true ∧ IsPlain issue.snapshotSha256.toList := by
  simp only [validateIssue, seq_eq_ok, bailIf_eq_ok, Bool.not_eq_false] at h
  obtain ⟨-, -, hsnapshot, h⟩ := h
  obtain ⟨⟨owner, repo⟩, hsplit, h⟩ := bind_eq_ok.mp h
  obtain ⟨-, howner, hrepo⟩ := splitRepository_eq_ok hsplit
  have hurl := not_not.mp (bailIf_eq_ok.mp h)
  have hdigits : ∀ c ∈ Nat.toDigits 10 issue.number, c.isDigit = true := fun c =>
    Nat.isDigit_of_mem_toDigits (by decide) (by decide)
  obtain ⟨number, digit, hnumber⟩ : ∃ number digit, Nat.toDigits 10 issue.number = number ++ [digit] :=
    ⟨_, _, (List.dropLast_concat_getLast (Nat.toDigits_ne_nil)).symm⟩
  have hplain : IsPlain (Nat.toDigits 10 issue.number) :=
    isPlain_of_all (p := Char.isDigit) rfl (List.all_eq_true.mpr hdigits)
  refine ⟨"//github.com/".toList ++ (owner.toList ++ ('/' :: (repo.toList ++ ("/issues/".toList ++ number)))),
    digit, ?_, ?_, ?_, ?_⟩
  · have hscheme : " issue_url=".toList ++ "https://github.com/".toList =
        ' ' :: ("issue_url=https".toList ++ ':' :: "//github.com/".toList) := by decide
    have hkey : " snapshot_sha256=".toList = ' ' :: "snapshot_sha256=".toList := by decide
    have hslash : "/".toList = ['/'] := rfl
    have htext : (evidenceFooter issue).toList = "AO2-Evidence:".toList ++
        ((" issue_url=".toList ++ "https://github.com/".toList) ++ (owner.toList ++ ("/".toList ++
          (repo.toList ++ ("/issues/".toList ++ (Nat.toDigits 10 issue.number ++
            (" snapshot_sha256=".toList ++ issue.snapshotSha256.toList))))))) := by
      simp only [evidenceFooter, evidenceFooterPrefix, hurl, String.toList_append, toList_toString,
        List.append_assoc]
    rw [hscheme, hkey, hslash, hnumber] at htext
    exact htext.trans append_eq_inWords
  · have htext : "//github.com/".toList ++ (owner.toList ++ ('/' :: (repo.toList ++
        ("/issues/".toList ++ number)))) ++ [digit] = "//github.com/".toList ++ (owner.toList ++
          (['/'] ++ (repo.toList ++ ("/issues/".toList ++ Nat.toDigits 10 issue.number)))) := by
      rw [hnumber]
      simp only [List.append_assoc, List.cons_append, List.nil_append]
    rw [htext]
    have hslashed {value : String} (h : value.toList.all (fun c => isSlugChar c || c = '/') = true) :
        IsPlain value.toList := isPlain_of_all (p := fun c => isSlugChar c || c = '/') rfl h
    have hsegment {value : String} (h : validSlug value = true) : IsPlain value.toList :=
      isPlain_of_all (p := isSlugChar) rfl (toList_of_validSlug h)
    exact (hslashed (by decide)).append ((hsegment howner).append (.append (@hslashed "/" (by decide))
      ((hsegment hrepo).append ((hslashed (by decide)).append hplain))))
  · exact hdigits digit (by rw [hnumber]; exact List.mem_append_right _ List.mem_cons_self)
  · exact isPlain_of_all rfl (toList_of_isSha256 hsnapshot)

/-! ### What the footer says -/

theorem not_suffix_of_last {u text : List Char} {p q : Char} (h : p ≠ q) : ¬ u ++ [p] <:+ text ++ [q] := by
  rintro ⟨s, hs⟩
  have hlast := congrArg List.getLast? hs
  rw [← List.append_assoc, List.getLast?_concat, List.getLast?_concat] at hlast
  exact h (Option.some.inj hlast)

/-- A word of two parts is not in a text of three words, unless it begins at the end of one of them. -/
theorem not_infix_words {u v a b c : List Char} (hu : ' ' ∉ u) (ha : ' ' ∉ a) (hb : ' ' ∉ b) (hc : ' ' ∉ c)
    (hua : ¬ u <:+ a) (hub : ¬ u <:+ b) : ¬ u ++ ' ' :: v <:+: a ++ ' ' :: (b ++ ' ' :: c) := by
  intro h
  rcases suffix_or_infix hu ha h with h | h
  · exact hua h
  rcases suffix_or_infix hu hb h with h | h
  · exact hub h
  · exact hc (h.subset (List.mem_append_right u List.mem_cons_self))

section

variable {address snapshot : List Char} {digit : Char}

theorem map_toLower_inWords {name link note : List Char} :
    (inWords name link address digit note snapshot).map Char.toLower =
    name.map Char.toLower ++ ' ' :: (((link.map Char.toLower ++ ':' :: address.map Char.toLower) ++
      [digit.toLower]) ++ ' ' :: (note.map Char.toLower ++ snapshot.map Char.toLower)) := by
  have hblank : ' '.toLower = ' ' := by decide
  have hcolon : ':'.toLower = ':' := by decide
  simp only [inWords, List.map_append, List.map_cons, List.map_nil, hblank, hcolon, List.append_assoc,
    List.cons_append]

/-- A claim does not begin in a footer. -/
theorem not_infix_footer {u v : List Char} {p : Char} (haddress : IsPlain (address ++ [digit]))
    (hdigit : digit.isDigit = true) (hsnapshot : IsPlain snapshot) (hu : ' ' ∉ u ++ [p]) (hp : p ≠ ':')
    (hletter : p.isDigit = false) :
    ¬ (u ++ [p]) ++ ' ' :: v <:+: (footerText address digit snapshot).map Char.toLower := by
  have hsame : digit.toLower = digit := by
    rcases toLower_cases digit with hsame | ⟨hlow, -, -⟩
    · exact hsame
    · rw [Char.isDigit, Bool.and_eq_true, decide_eq_true_eq, decide_eq_true_eq] at hdigit
      have : digit.toNat ≤ 57 := UInt32.le_iff_toNat_le.mp hdigit.2
      omega
  have hne : p ≠ digit := by
    rintro rfl
    rw [hdigit] at hletter
    cases hletter
  have hplain := haddress.map_toLower
  rw [List.map_append, List.map_singleton, hsame] at hplain
  have hname : ' ' ∉ "AO2-Evidence:".toList.map Char.toLower := by decide
  have hlink : ' ' ∉ "issue_url=https".toList.map Char.toLower ++ [':'] := by decide
  have hnote : ' ' ∉ "snapshot_sha256=".toList.map Char.toLower := by decide
  have hend : "AO2-Evidence:".toList.map Char.toLower = "ao2-evidence".toList ++ [':'] := by decide
  rw [footerText, map_toLower_inWords, hsame]
  refine not_infix_words hu hname ?_ ?_ ?_ (not_suffix_of_last hne)
  · rw [List.append_assoc, List.cons_append, ← List.singleton_append, ← List.append_assoc]
    exact fun hmem => (List.mem_append.mp hmem).elim hlink (hplain.not_mem List.mem_cons_self)
  · exact fun hmem => (List.mem_append.mp hmem).elim hnote
      (hsnapshot.map_toLower.not_mem List.mem_cons_self)
  · rw [hend]
    exact not_suffix_of_last hp

/-- The footer says where the evidence is once. -/
theorem occurrences_footerText (haddress : IsPlain (address ++ [digit])) (hsnapshot : IsPlain snapshot) :
    occurrences "AO2-Evidence:".toList (footerText address digit snapshot) = 1 := by
  have hne : "AO2-Evidence:".toList ≠ [] := by decide
  have hblank : ' ' ∉ "AO2-Evidence:".toList := by decide
  have hname : occurrences "AO2-Evidence:".toList "AO2-Evidence:".toList = 1 := by decide
  have hcolon : "AO2-Evidence:".toList = "AO2-Evidence".toList ++ ':' :: [] := by decide
  have hnone : ':' ∉ "AO2-Evidence".toList := by decide
  have hstart : ':' ∉ "issue_url=https".toList := by decide
  have hend : ¬ "AO2-Evidence".toList <:+ "issue_url=https".toList := by decide
  have hnote : ':' ∉ "snapshot_sha256=".toList := by decide
  have hcolons : ':' ∈ [' ', ':', '\n'] := by decide
  have hlink : occurrences "AO2-Evidence:".toList ("issue_url=https".toList ++ ':' :: (address ++ [digit])) = 0 := by
    rw [occurrences_eq_zero hne, hcolon]
    intro h
    rcases suffix_or_infix hnone hstart h with h | h
    · exact hend h
    · exact haddress.not_mem hcolons (h.subset (List.mem_append_right _ List.mem_cons_self))
  have hsha : occurrences "AO2-Evidence:".toList ("snapshot_sha256=".toList ++ snapshot) = 0 := by
    rw [occurrences_eq_zero hne, hcolon]
    intro h
    have hmem := h.subset (List.mem_append_right _ List.mem_cons_self)
    exact (List.mem_append.mp hmem).elim hnote (hsnapshot.not_mem hcolons)
  rw [footerText, inWords, occurrences_append_cons hne hblank, occurrences_append_cons hne hblank, hname,
    hlink, hsha]

end

/-- The lines of a body that was bound. -/
theorem toList_bound (body footer : String) :
    (body ++ "\n\n" ++ footer).toList = body.toList ++ '\n' :: ([] ++ '\n' :: footer.toList) := by
  have hlines : "\n\n".toList = ['\n', '\n'] := rfl
  simp only [String.toList_append, hlines, List.append_assoc, List.cons_append, List.nil_append]

section

variable {body : String} {issue : IssueIdentity} {repository : RepositoryIdentity}

/-- **The evidence is named once** in a body that was bound. -/
theorem occurrences_evidenceFooterPrefix (hissue : validateIssue issue repository = .ok ())
    (hbody : containsText body evidenceFooterPrefix = false) :
    occurrences evidenceFooterPrefix.toList (body ++ "\n\n" ++ evidenceFooter issue).toList = 1 := by
  obtain ⟨address, digit, hfooter, haddress, -, hsnapshot⟩ := evidenceFooter_eq hissue
  have hne : evidenceFooterPrefix.toList ≠ [] := by decide
  have hline : '\n' ∉ evidenceFooterPrefix.toList := by decide
  have hnone : occurrences evidenceFooterPrefix.toList body.toList = 0 :=
    (occurrences_eq_zero hne).mpr fun h => by rw [containsText, decide_eq_false_iff_not] at hbody; exact hbody h
  rw [toList_bound, occurrences_append_cons hne hline, occurrences_append_cons hne hline, hnone,
    occurrences_nil hne, hfooter]
  have := occurrences_footerText haddress hsnapshot
  rw [evidenceFooterPrefix, this]

/-- A claim is in a body that was bound if it was in the body. -/
theorem infix_bound_iff {u v : List Char} {p : Char} (hissue : validateIssue issue repository = .ok ())
    (hline : '\n' ∉ (u ++ [p]) ++ ' ' :: v) (hu : ' ' ∉ u ++ [p]) (hp : p ≠ ':')
    (hletter : p.isDigit = false) :
    (u ++ [p]) ++ ' ' :: v <:+: (body ++ "\n\n" ++ evidenceFooter issue).toList.map Char.toLower ↔
      (u ++ [p]) ++ ' ' :: v <:+: body.toList.map Char.toLower := by
  obtain ⟨address, digit, hfooter, haddress, hdigit, hsnapshot⟩ := evidenceFooter_eq hissue
  have hne : (u ++ [p]) ++ ' ' :: v ≠ [] := List.append_ne_nil_of_right_ne_nil _ (List.cons_ne_nil _ _)
  have hlower : '\n'.toLower = '\n' := by decide
  have hnot := @not_infix_footer address _ digit u v p haddress hdigit hsnapshot hu hp hletter
  rw [toList_bound, List.map_append, List.map_cons, hlower, infix_append_cons_iff hne hline, hfooter,
    List.map_append, List.map_cons, List.map_nil, hlower, infix_append_cons_iff hne hline, List.infix_nil]
  exact ⟨fun h => h.elim id fun h => h.elim (absurd · hne) (absurd · hnot), .inl⟩

/-- A footer makes no claim. -/
theorem containsReservedSupportClaim_bound (hissue : validateIssue issue repository = .ok ()) :
    containsReservedSupportClaim (body ++ "\n\n" ++ evidenceFooter issue) =
      containsReservedSupportClaim body := by
  have hfingerprint : "problem fingerprint:".toList = ("proble".toList ++ ['m']) ++ ' ' :: "fingerprint:".toList := by
    decide
  have hbundle : "bundle sha-256:".toList = ("bundl".toList ++ ['e']) ++ ' ' :: "sha-256:".toList := by
    decide
  have hfirst : '\n' ∉ ("proble".toList ++ ['m']) ++ ' ' :: "fingerprint:".toList := by decide
  have hsecond : '\n' ∉ ("bundl".toList ++ ['e']) ++ ' ' :: "sha-256:".toList := by decide
  rw [containsReservedSupportClaim, containsReservedSupportClaim]
  simp only [containsText, toAsciiLowercase, String.toList_ofList, hfingerprint, hbundle]
  simp only [infix_bound_iff hissue hfirst (by decide) (by decide) rfl,
    infix_bound_iff hissue hsecond (by decide) (by decide) rfl]

/-! ### The checks of the reader -/

theorem validateEvidenceFooter_bound (hblank : isBlank body = false)
    (hbody : containsText body evidenceFooterPrefix = false) :
    validateEvidenceFooter (body ++ "\n\n" ++ evidenceFooter issue) issue = .ok () := by
  have hstrip : stripSuffix ("\n\n" ++ evidenceFooter issue).toList
      (body ++ "\n\n" ++ evidenceFooter issue).toList = some body.toList := by
    obtain ⟨footer, hfooter⟩ : ∃ footer, footer = "\n\n" ++ evidenceFooter issue := ⟨_, rfl⟩
    rw [String.append_assoc, ← hfooter, String.toList_append, stripSuffix, if_pos (List.suffix_append _ _),
      List.length_append, Nat.add_sub_cancel, List.take_left' rfl]
  have hnone : ¬ (isBlank (.ofList body.toList) = true ∨
      containsText (.ofList body.toList) evidenceFooterPrefix = true) := by
    rw [String.ofList_toList, hblank, hbody]
    decide
  rw [validateEvidenceFooter, hstrip]
  exact if_neg hnone

theorem bindEvidenceFooter_eq_ok {bound : String} (h : bindEvidenceFooter body issue = .ok bound) :
    bound = body ++ "\n\n" ++ evidenceFooter issue ∧ containsText body evidenceFooterPrefix = false ∧
      validateText "body" bound maxBodyBytes = .ok () := by
  simp only [bindEvidenceFooter, seq_eq_ok, bailIf_eq_ok, Bool.not_eq_true] at h
  obtain ⟨hbody, htext, h⟩ := h
  obtain rfl := Except.ok.inj h
  rw [validateText, bailIf_eq_ok] at htext
  exact ⟨rfl, hbody, bailIf_eq_ok.mpr htext⟩

end

/-- What a subject has of its evidence. -/
structure SubjectOf (evidence : DraftEvidence) (binding : Option SupportBundleSubjectBinding)
    (subject : DraftSubject) : Prop where
  issue : validateIssue evidence.issue evidence.repository = .ok ()
  repository : validateRepository evidence.repository = .ok ()
  repair : validateRepair evidence.repair = .ok ()
  safety : validateSafety evidence.safety = .ok ()
  title : validateText "title" evidence.draft.title maxTitleBytes = .ok ()
  blank : isBlank evidence.draft.body = false
  bound : bindEvidenceFooter evidence.draft.body evidence.issue = .ok subject.request.body.body
  request : ∃ owner repo, splitRepository evidence.repository.target = .ok (owner, repo) ∧
    subject = {
      operation := "open_feature_generated_draft_pr"
      issue := evidence.issue
      repository := evidence.repository
      repair := evidence.repair
      supportBundle := binding
      request := {
        method := "POST"
        path := pullsPath owner repo
        body := {
          title := evidence.draft.title
          body := subject.request.body.body
          head := owner ++ ":" ++ evidence.repository.headBranch
          base := evidence.repository.baseBranch
          draft := true
          preconditions := ⟨evidence.repository.baseCommit, evidence.repository.headCommit⟩ } }
      safety := evidence.safety }

theorem subjectOf_of_subjectFromEvidence {evidence : DraftEvidence}
    {binding : Option SupportBundleSubjectBinding} {subject : DraftSubject}
    (h : subjectFromEvidence evidence binding = .ok subject) : SubjectOf evidence binding subject := by
  rw [subjectFromEvidence] at h
  simp only [seq_eq_ok] at h
  obtain ⟨-, hissue, hrepository, hrepair, hsafety, htitle, hbody, h⟩ := h
  obtain ⟨bound, hbound, h⟩ := bind_eq_ok.mp h
  obtain ⟨⟨owner, repo⟩, hsplit, h⟩ := bind_eq_ok.mp h
  obtain rfl := Except.ok.inj h
  rw [validateText, bailIf_eq_ok, not_or, Bool.not_eq_true] at hbody
  exact ⟨hissue, hrepository, hrepair, hsafety, htitle, hbody.1, hbound, owner, repo, hsplit, rfl⟩

theorem isSha256_fingerprint {digest fingerprint : String} (hhex : isSha256 digest = true)
    (h : fingerprint = "sha256:" ++ digest) :
    "sha256:".toList <+: fingerprint.toList ∧ isSha256 (.ofList (fingerprint.toList.drop 7)) = true := by
  have hdrop : ("sha256:".toList ++ digest.toList).drop 7 = digest.toList := List.drop_left' (by decide)
  rw [h, String.toList_append, hdrop, String.ofList_toList]
  exact ⟨List.prefix_append _ _, hhex⟩

/-- A binding that is as it has to be. -/
theorem validateSupportBundle_some {subject : DraftSubject} {b : SupportBundleSubjectBinding}
    (hb : subject.supportBundle = some b)
    (hschema : b.schemaVersion = "ao2.github-draft-pr-support-binding.v0.1")
    (hbundle : isSha256 b.bundleSha256 = true)
    (hfingerprint : "sha256:".toList <+: b.problemFingerprint.toList ∧
      isSha256 (.ofList (b.problemFingerprint.toList.drop 7)) = true)
    (hpack : subject.repair.evidencePackSha256 = b.bundleSha256)
    (hmetadata : Support.validateGovernedIssueMetadata b.workflowIdentity b.failureCategory
      b.failedPhase = .ok ())
    (htitle : subject.request.body.title = (supportDraftText b).title)
    (hbody : bindEvidenceFooter (supportDraftText b).body subject.issue = .ok subject.request.body.body) :
    validateSupportBundle subject = .ok () := by
  have hrequest : bailIf (subject.request.body.title ≠ (supportDraftText b).title ∨
      subject.request.body.body ≠ subject.request.body.body)
      "support bundle draft request does not match its canonical binding" = .ok () :=
    bailIf_eq_ok.mpr (not_or.mpr ⟨not_not_intro htitle, not_not_intro rfl⟩)
  rw [validateSupportBundle, hb]
  dsimp only
  rw [seq_eq_ok, seq_eq_ok, bind_eq_ok, bailIf_eq_ok]
  refine ⟨?_, hmetadata, _, hbody, hrequest⟩
  rw [not_or, not_or, not_or, not_not, not_not, not_not, Bool.not_eq_false]
  exact ⟨hschema, hbundle, hfingerprint, hpack⟩

section

variable [Platform] [IssueLibrary] {evidence : DraftEvidence}
  {supportBundle : Option (Except String Octets)} {binding : Option SupportBundleSubjectBinding}
  {subject : DraftSubject}

/-- The binding of some evidence passes the checks of the reader. -/
theorem validateSupportBundle_of_supportBinding (hhex : ∀ v, isSha256 (sha256Json v) = true)
    (hbinding : supportBinding evidence supportBundle = .ok binding)
    (h : SubjectOf evidence binding subject) : validateSupportBundle subject = .ok () := by
  obtain ⟨owner, repo, -, hsubject⟩ := h.request
  have hissue : subject.issue = evidence.issue := congrArg DraftSubject.issue hsubject
  have hrepair : subject.repair = evidence.repair := congrArg DraftSubject.repair hsubject
  have hbound : subject.supportBundle = binding := congrArg DraftSubject.supportBundle hsubject
  have htitle : subject.request.body.title = evidence.draft.title :=
    congrArg (fun s => s.request.body.title) hsubject
  cases supportBundle with
  | none =>
    simp only [supportBinding, seq_eq_ok, bailIf_eq_ok, Bool.not_eq_true] at hbinding
    obtain ⟨hclaim, hnone⟩ := hbinding
    obtain rfl := Except.ok.inj hnone
    obtain ⟨hbody, -, -⟩ := bindEvidenceFooter_eq_ok h.bound
    rw [validateSupportBundle, hbound]
    dsimp only
    rw [bailIf_eq_ok, hbody, containsReservedSupportClaim_bound h.issue, hclaim]
    decide
  | some bundle =>
    rw [supportBinding] at hbinding
    obtain ⟨governed, hgoverned, hbinding⟩ := bind_eq_ok.mp hbinding
    obtain ⟨⟨v, hfingerprint⟩, hmetadata⟩ := Support.validateForGovernedIssue_eq_ok hgoverned
    simp only [seq_eq_ok, bailIf_eq_ok, not_not, ne_eq] at hbinding
    obtain ⟨hpack, hdraft, hsome⟩ := hbinding
    obtain rfl := Except.ok.inj hsome
    have hdigests := h.repair
    simp only [validateRepair, seq_eq_ok, bailIf_eq_ok, forM_eq_ok, List.forall_mem_cons,
      Bool.not_eq_false] at hdigests
    have hbundle : isSha256 governed.bundleSha256 = true := by
      rw [← hpack]
      exact hdigests.2.1.2.1
    have hbody := h.bound
    rw [hdraft] at hbody htitle
    refine validateSupportBundle_some hbound rfl hbundle (isSha256_fingerprint (hhex v) hfingerprint) ?_
      hmetadata htitle ?_
    · rw [hrepair, hpack]
    · rw [hissue]
      exact hbody

/-- **What is written passes the checks of the reader.** -/
theorem validateSubject_of_subjectOf (hhex : ∀ v, isSha256 (sha256Json v) = true)
    (hbinding : supportBinding evidence supportBundle = .ok binding)
    (h : SubjectOf evidence binding subject) : validateSubject subject = .ok () := by
  have hsupport := validateSupportBundle_of_supportBinding hhex hbinding h
  obtain ⟨hbody, hunreserved, htext⟩ := bindEvidenceFooter_eq_ok h.bound
  have hfooter : validateEvidenceFooter subject.request.body.body evidence.issue = .ok () := by
    rw [hbody]
    exact validateEvidenceFooter_bound h.blank hunreserved
  obtain ⟨owner, repo, hsplit, hsubject⟩ := h.request
  rw [hsubject] at hsupport ⊢
  rw [validateSubject]
  simp only [seq_eq_ok]
  refine ⟨bailIf_eq_ok.mpr (not_not_intro rfl), h.issue, h.repository, h.repair, h.safety, hsupport,
    hfooter, bind_eq_ok.mpr ⟨(owner, repo), hsplit, ?_⟩⟩
  simp only [seq_eq_ok, bailIf_eq_ok]
  exact ⟨by simp, by simp, by simp, by simp, h.title, htext⟩

/-! ### The result -/

/-- What is known of a preview. -/
theorem preview_eq_ok {evidenceFile : Except String Octets} {action : DraftAction} {file : Octets}
    (h : preview evidenceFile supportBundle = .ok (action, file)) :
    ∃ evidence binding, readBoundedJson DraftEvidence.fromJson evidenceFile = .ok evidence ∧
      supportBinding evidence supportBundle = .ok binding ∧ SubjectOf evidence binding action.subject ∧
      action.schemaVersion = "ao2.github-draft-pr-action.v1" ∧
      action.approval = ⟨"sha256-ao2-canonical-v1", sha256Json action.subject.toJson⟩ ∧
      file.length ≤ maxInputBytes := by
  rw [preview] at h
  obtain ⟨evidence, hevidence, h⟩ := bind_eq_ok.mp h
  obtain ⟨binding, hbinding, h⟩ := bind_eq_ok.mp h
  obtain ⟨subject, hsubject, h⟩ := bind_eq_ok.mp h
  obtain ⟨hlength, h⟩ := seq_eq_ok.mp h
  obtain ⟨rfl, rfl⟩ := Prod.mk.inj (Except.ok.inj h)
  exact ⟨evidence, binding, hevidence, hbinding, subjectOf_of_subjectFromEvidence hsubject, rfl, rfl,
    Nat.le_of_not_lt (bailIf_eq_ok.mp hlength)⟩

theorem preview_of {evidenceFile : Except String Octets} {digest : String} {file : Octets}
    (hevidence : readBoundedJson DraftEvidence.fromJson evidenceFile = .ok evidence)
    (hbinding : supportBinding evidence supportBundle = .ok binding)
    (hsubject : subjectFromEvidence evidence binding = .ok subject)
    (hdigest : sha256Json subject.toJson = digest)
    (hfile : toVecPretty (DraftAction.mk "ao2.github-draft-pr-action.v1" subject
      ⟨"sha256-ao2-canonical-v1", digest⟩).document ++ [10] = file)
    (hlength : file.length ≤ maxInputBytes) :
    preview evidenceFile supportBundle = .ok
      (⟨"ao2.github-draft-pr-action.v1", subject, ⟨"sha256-ao2-canonical-v1", digest⟩⟩, file) := by
  obtain rfl := hdigest
  obtain rfl := hfile
  rw [preview, hevidence]
  refine bind_eq_ok.mpr ⟨_, rfl, bind_eq_ok.mpr ⟨_, hbinding, bind_eq_ok.mpr ⟨_, hsubject, ?_⟩⟩⟩
  exact seq_eq_ok.mpr ⟨bailIf_eq_ok.mpr (Nat.not_lt.mpr hlength), rfl⟩

/-- **What a preview writes is accepted, and nothing else.** Digests are hexadecimal, and no other value
has the digest of the subject that was written; the library reads what it wrote. Then the reader
accepts the action with its own digest, the body of its request is that of the evidence and the footer
of its issue, which is nowhere else in it, and an action with another subject is refused. -/
theorem preview_verified {evidenceFile : Except String Octets} {action : DraftAction} {file : Octets}
    (hhex : ∀ v, isSha256 (sha256Json v) = true)
    (hpreview : preview evidenceFile supportBundle = .ok (action, file))
    (hread : IssueLibrary.fromSlice file = some action.document)
    (hunique : ∀ v, sha256Json v = sha256Json action.subject.toJson → v = action.subject.toJson) :
    loadAndVerifyAction (.ok file) action.approval.actionDigest = .ok action ∧
      (∃ evidence, readBoundedJson DraftEvidence.fromJson evidenceFile = .ok evidence ∧
        action.subject.issue = evidence.issue ∧ action.subject.request.body.body =
          evidence.draft.body ++ "\n\n" ++ evidenceFooter evidence.issue) ∧
      occurrences evidenceFooterPrefix.toList action.subject.request.body.body.toList = 1 ∧
      ∀ other action', readBoundedJson DraftAction.fromJson other = .ok action' →
        action'.subject ≠ action.subject →
        ∃ message, loadAndVerifyAction other action.approval.actionDigest = .error message := by
  obtain ⟨evidence, binding, hevidence, hbinding, hsubject, hschema, happroval, hlength⟩ :=
    preview_eq_ok hpreview
  obtain ⟨bytes, -, -, hbytes⟩ := readBoundedJson_eq_ok.mp hevidence
  obtain ⟨v, -, hv⟩ := Option.bind_eq_some_iff.mp hbytes
  have hnumber := DraftEvidence.number_lt hv
  obtain ⟨hbody, hunreserved, -⟩ := bindEvidenceFooter_eq_ok hsubject.bound
  have hissue : action.subject.issue = evidence.issue := by
    obtain ⟨owner, repo, -, hrequest⟩ := hsubject.request
    exact congrArg DraftSubject.issue hrequest
  have hdigest : action.approval.actionDigest = sha256Json action.subject.toJson := by rw [happroval]
  have hroundTrip : readBoundedJson DraftAction.fromJson (.ok file) = .ok action := by
    rw [readBoundedJson_eq_ok]
    refine ⟨file, rfl, hlength, ?_⟩
    rw [hread, Option.bind_some]
    exact DraftAction.fromJson_document (by rwa [hissue])
  refine ⟨?_, ⟨evidence, hevidence, hissue, hbody⟩, ?_, ?_⟩
  · have halgorithm : action.approval.algorithm = "sha256-ao2-canonical-v1" := by rw [happroval]
    rw [loadAndVerifyAction, seq_eq_ok, bailIf_eq_ok, hdigest, hhex, bind_eq_ok]
    refine ⟨Bool.noConfusion, action, hroundTrip, ?_⟩
    simp only [seq_eq_ok, bailIf_eq_ok, not_not, ne_eq]
    exact ⟨hschema, halgorithm, validateSubject_of_subjectOf hhex hbinding hsubject, hdigest, trivial, trivial⟩
  · rw [hbody]
    exact occurrences_evidenceFooterPrefix hsubject.issue hunreserved
  · intro other action' hother hne
    cases hload : loadAndVerifyAction other action.approval.actionDigest with
    | error message => exact ⟨message, rfl⟩
    | ok found =>
      obtain ⟨hfound, -, -, hsame⟩ := loadAndVerifyAction_eq_ok hload
      rw [hother] at hfound
      obtain rfl := Except.ok.inj hfound
      rw [hdigest] at hsame
      exact absurd (DraftSubject.toJson_injective (hunique _ hsame)) hne

end

/-! ### A sample -/

def sampleEvidence : DraftEvidence where
  schemaVersion := "ao2.github-draft-pr-evidence.v1"
  issue := ⟨"https://github.com/o/r/issues/1", 1,
    "aaaaaaaaaaaaaaaaaaaaaaaaaaaaaaaaaaaaaaaaaaaaaaaaaaaaaaaaaaaaaaaa", "authentic_bug"⟩
  repository := ⟨"o/r", "main", "1111111111111111111111111111111111111111", "o/r", "fix",
    "2222222222222222222222222222222222222222"⟩
  repair := ⟨["a.rs"], "bbbbbbbbbbbbbbbbbbbbbbbbbbbbbbbbbbbbbbbbbbbbbbbbbbbbbbbbbbbbbbbb",
    "cccccccccccccccccccccccccccccccccccccccccccccccccccccccccccccccc",
    "dddddddddddddddddddddddddddddddddddddddddddddddddddddddddddddddd", "verified",
    ⟨"q", "s", "3333333333333333333333333333333333333333"⟩⟩
  draft := ⟨"t", "b"⟩
  safety := ⟨false, false, false, false, false, false, false, false⟩

/-- The value of some evidence. -/
def evidenceValue (e : DraftEvidence) : Json :=
  .obj [("schema_version", .str e.schemaVersion), ("issue", e.issue.document),
    ("repository", e.repository.document), ("repair", e.repair.document),
    ("draft", .obj [("title", .str e.draft.title), ("body", .str e.draft.body)]),
    ("safety", e.safety.document)]

theorem fromJson_evidenceValue {e : DraftEvidence} (h : e.issue.number < 18446744073709551616) :
    DraftEvidence.fromJson (evidenceValue e) = some e := by
  obtain ⟨m, hm⟩ : ∃ m, evidenceValue e = .obj m := ⟨_, rfl⟩
  have hfields : (evidenceValue e).fieldsOf
      ["schema_version", "issue", "repository", "repair", "draft", "safety"] = some m := by
    obtain rfl := Json.obj.inj hm
    rfl
  have hschema : field str? "schema_version" m = some e.schemaVersion := by
    obtain rfl := Json.obj.inj hm
    rfl
  have hissue : field IssueIdentity.fromJson "issue" m = some e.issue := by
    obtain rfl := Json.obj.inj hm
    exact (field_of_lookup rfl).trans (IssueIdentity.fromJson_document h)
  have hrepository : field RepositoryIdentity.fromJson "repository" m = some e.repository := by
    obtain rfl := Json.obj.inj hm
    exact (field_of_lookup rfl).trans (RepositoryIdentity.fromJson_document _)
  have hrepair : field RepairEvidence.fromJson "repair" m = some e.repair := by
    obtain rfl := Json.obj.inj hm
    exact (field_of_lookup rfl).trans (RepairEvidence.fromJson_document _)
  have hdraft : field DraftText.fromJson "draft" m = some e.draft := by
    obtain rfl := Json.obj.inj hm
    rfl
  have hsafety : field SafetyBoundary.fromJson "safety" m = some e.safety := by
    obtain rfl := Json.obj.inj hm
    exact (field_of_lookup rfl).trans (SafetyBoundary.fromJson_document _)
  rw [DraftEvidence.fromJson, hfields]
  simp only [Option.bind_eq_bind, Option.bind_some, hschema, hissue, hrepository, hrepair, hdraft, hsafety]

def sampleSubject : DraftSubject where
  operation := "open_feature_generated_draft_pr"
  issue := sampleEvidence.issue
  repository := sampleEvidence.repository
  repair := sampleEvidence.repair
  supportBundle := none
  request := ⟨"POST", "/repos/o/r/pulls", ⟨"t", "b\n\n" ++ evidenceFooter sampleEvidence.issue, "o:fix",
    "main", true, ⟨"1111111111111111111111111111111111111111", "2222222222222222222222222222222222222222"⟩⟩⟩
  safety := sampleEvidence.safety

def sampleDigest : String := "463d6273d069ffbad61c7525d404c6befb440e97b352b6e8fdf8b532df9cd0f1"

def sampleAction : DraftAction :=
  ⟨"ao2.github-draft-pr-action.v1", sampleSubject, ⟨"sha256-ao2-canonical-v1", sampleDigest⟩⟩

/-- The evidence in a file that begins with an empty line. -/
def sampleEvidenceFile : Octets := 10 :: utf8Bytes (prettyText [] (evidenceValue sampleEvidence))

def sampleActionFile : Octets := utf8Bytes (prettyText [] sampleAction.document) ++ [10]

/-- The digest of the sample, and another one for all else. -/
@[reducible] def samplePlatform : Platform :=
  { spellingPlatform with
    sha256Json := fun v => if v = sampleSubject.toJson then sampleDigest else
      "0000000000000000000000000000000000000000000000000000000000000000"
    prettyJson := fun v => .ofList (prettyText [] v) }

@[reducible] def sampleLibrary : IssueLibrary where
  fromSlice bytes :=
    if bytes = sampleEvidenceFile then some (evidenceValue sampleEvidence)
    else if bytes = sampleActionFile then some sampleAction.document
    else none
  sha256 _ := sampleDigest
  parseRfc3339 _ := none

section

attribute [local instance] samplePlatform sampleLibrary

theorem sampleActionFile_ne : sampleActionFile ≠ sampleEvidenceFile := fun h =>
  absurd (congrArg List.head? h) (by decide +kernel)

theorem fromSlice_sampleEvidenceFile : IssueLibrary.fromSlice sampleEvidenceFile = some (evidenceValue sampleEvidence) :=
  if_pos rfl

theorem fromSlice_sampleActionFile :
    IssueLibrary.fromSlice sampleActionFile = some sampleAction.document :=
  (if_neg sampleActionFile_ne).trans (if_pos rfl)

theorem sha256Json_sample : sha256Json sampleSubject.toJson = sampleDigest := if_pos rfl

theorem preview_sample : preview (.ok sampleEvidenceFile) none = .ok (sampleAction, sampleActionFile) := by
  have hevidence : readBoundedJson DraftEvidence.fromJson (.ok sampleEvidenceFile) = .ok sampleEvidence := by
    rw [readBoundedJson_eq_ok]
    refine ⟨_, rfl, by decide +kernel, ?_⟩
    rw [fromSlice_sampleEvidenceFile, Option.bind_some, fromJson_evidenceValue (by decide)]
  have hfile : toVecPretty sampleAction.document ++ [10] = sampleActionFile := by
    rw [toVecPretty]
    exact congrArg (fun text => utf8Bytes text ++ [10]) String.toList_ofList
  exact preview_of hevidence rfl rfl sha256Json_sample hfile (by decide +kernel)

/-- What is previewed for the sample is accepted, and no action with another subject. -/
theorem preview_verified_sample :
    loadAndVerifyAction (.ok sampleActionFile) sampleDigest = .ok sampleAction := by
  refine (preview_verified (fun v => ?_) preview_sample fromSlice_sampleActionFile fun v h => ?_).1
  · by_cases hv : v = sampleSubject.toJson
    · rw [hv, sha256Json_sample]
      decide +kernel
    · rw [show sha256Json v = _ from if_neg hv]
      decide +kernel
  · by_contra hv
    have hzero : sha256Json v = "0000000000000000000000000000000000000000000000000000000000000000" := if_neg hv
    have hdigest : sampleDigest = "0000000000000000000000000000000000000000000000000000000000000000" :=
      sha256Json_sample.symm.trans (h.symm.trans hzero)
    exact absurd hdigest (by decide +kernel)

end

end Draft

end Issues

end Ao2
