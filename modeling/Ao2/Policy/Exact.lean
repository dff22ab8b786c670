import Ao2.Json.Encoding
import Ao2.Policy

/-!
# What an approval is bound to

A ticket is granted to whatever is bound to the same digest. That is the request as a whole, except for a
sandbox patch: it is bound to the digest that it carries itself, and to nothing else of the request.

## Main results

* `grantExact_iff` — for digests without collisions, one ticket is granted to requests that are bound alike
* `granted_elsewhere` — a ticket for a patch of one resource, granted to that of another
-/

namespace Ao2

/-- The digest that a request to apply a sandbox patch carries as its second argument. -/
def ToolRequest.patchDigest (r : ToolRequest) : Option String :=
  match r.args with
  | _ :: digest :: _ => if r.tool = "sandbox" ∧ r.operation = "apply" then some digest else none
  | _ => none

theorem Json.strs_injective : Function.Injective Json.strs := fun _ _ h =>
  List.map_injective_iff.mpr (fun _ _ => Json.str.inj) (Json.arr.inj h)

/-- A request is told from what is digested of it. -/
theorem ToolRequest.toJson_injective : Function.Injective ToolRequest.toJson := by
  intro r r' h
  cases r
  cases r'
  simp only [ToolRequest.toJson, Json.obj.injEq, List.cons.injEq, Prod.mk.injEq, Json.str.injEq,
    true_and, and_true, Json.strs_injective.eq_iff] at h
  obtain ⟨rfl, rfl, rfl, rfl, rfl, rfl⟩ := h
  rfl

section

variable [Platform]

/-- **Requests that one ticket is granted to.** -/
inductive BoundAlike : ToolRequest → ToolRequest → Prop
  /-- The two are the same. -/
  | same (r : ToolRequest) : BoundAlike r r
  /-- Both are sandbox patches, with one digest. -/
  | patches {r r' : ToolRequest} {digest : String} (h : r.patchDigest = some digest)
      (h' : r'.patchDigest = some digest) : BoundAlike r r'
  /-- A sandbox patch carries the digest of the other request. -/
  | carried {r r' : ToolRequest} (h : r.patchDigest = some (sha256Json r'.toJson))
      (h' : r'.patchDigest = none) : BoundAlike r r'
  | carries {r r' : ToolRequest} (h : r.patchDigest = none)
      (h' : r'.patchDigest = some (sha256Json r.toJson)) : BoundAlike r r'

theorem ToolRequest.actionDigest_eq (r : ToolRequest) :
    r.actionDigest = r.patchDigest.getD (sha256Json r.toJson) := by
  obtain ⟨principal, tool, operation, resource, args, effects⟩ := r
  rcases args with _ | ⟨verb, _ | ⟨digest, args⟩⟩
  · rfl
  · rfl
  · dsimp only [ToolRequest.actionDigest, ToolRequest.patchDigest]
    split_ifs <;> rfl

/-- Two requests have one digest if and only if they are bound alike. -/
theorem actionDigest_eq_iff (hsha : Function.Injective (sha256Json : Json → String)) {r r' : ToolRequest} :
    r.actionDigest = r'.actionDigest ↔ BoundAlike r r' := by
  rw [r.actionDigest_eq, r'.actionDigest_eq]
  constructor
  · intro h
    cases hr : r.patchDigest with
    | some digest =>
      cases hr' : r'.patchDigest with
      | some digest' =>
        rw [hr, hr'] at h
        obtain rfl : digest = digest' := h
        exact .patches hr hr'
      | none =>
        rw [hr, hr'] at h
        obtain rfl : digest = sha256Json r'.toJson := h
        exact .carried hr hr'
    | none =>
      cases hr' : r'.patchDigest with
      | some digest' =>
        rw [hr, hr'] at h
        obtain rfl : sha256Json r.toJson = digest' := h
        exact .carries hr hr'
      | none =>
        rw [hr, hr'] at h
        obtain rfl := ToolRequest.toJson_injective (hsha h)
        exact .same r
  · intro h
    cases h with
    | same => rfl
    | patches h h' => rw [h, h']; rfl
    | carried h h' => rw [h, h']; rfl
    | carries h h' => rw [h, h']; rfl

/-- **A ticket for one request is granted to another one** if and only if the two are bound alike: outside
sandbox patches that is the same request, in every field. -/
theorem grantExact_iff (hsha : Function.Injective (sha256Json : Json → String)) (ticketId runId approver : String)
    (createdAt now : DateTime) (r r' : ToolRequest) :
    ((∃ granted, grantExact (createApprovalTicket ticketId createdAt now runId r) approver r' = .ok granted) ↔
      BoundAlike r r') ∧
    (r.patchDigest = none → r'.patchDigest = none → BoundAlike r r' → r' = r) := by
  constructor
  · rw [← actionDigest_eq_iff hsha]
    constructor
    · rintro ⟨granted, hgranted⟩
      exact (grantExact_eq_ok.mp hgranted).1
    · exact fun h => ⟨_, grantExact_eq_ok.mpr ⟨h, rfl⟩⟩
  · intro hr hr' h
    cases h with
    | same => rfl
    | patches h h' => cases hr.symm.trans h
    | carried h h' => cases hr.symm.trans h
    | carries h h' => cases hr'.symm.trans h'

end

/-! ### A patch of another resource -/

section

attribute [local instance] spellingPlatform

theorem sha256Json_spelling : Function.Injective (sha256Json : Json → String) := fun _ _ h =>
  Json.spell_injective (String.ofList_injective h)

/-- A sandbox patch of a file. -/
def patchOf (resource : String) : ToolRequest where
  principal := "role:implementer"
  tool := "sandbox"
  operation := "apply"
  resource := resource
  args := ["apply", "digest"]
  expectedSideEffects := ["repo_write"]

theorem grantExact_patch : ∃ granted,
    grantExact (createApprovalTicket "approval-1" 0 0 "run" (patchOf "a")) "human" (patchOf "a") = .ok granted :=
  (grantExact_iff sha256Json_spelling "approval-1" "run" "human" 0 0 _ _).1.mpr (.same _)

/-- A ticket for a patch of one file is granted to that of another. -/
theorem granted_elsewhere : Function.Injective (sha256Json : Json → String) ∧
    (∃ granted, grantExact (createApprovalTicket "approval-1" 0 0 "run" (patchOf "a")) "human"
      (patchOf "b") = .ok granted) ∧ patchOf "b" ≠ patchOf "a" := by
  refine ⟨sha256Json_spelling, ⟨_, rfl⟩, fun h => ?_⟩
  exact absurd (congrArg ToolRequest.resource h) (by decide)

end

end Ao2
