import CivicProof.Spec.GraphQueries
import CivicProof.Spec.Pipeline

/-!
# A driver over a graph

What the templates may answer for the parameters of a query, and a driver that answers from the
graph that a call finds. Other programs may write to the graph between two calls, and any call may
raise.

* `TemplateAnswer`: the answers of a claim type's template.
* `AnswersFrom`: a driver that runs the templates on a graph.
-/

namespace CivicProof

open PropGraph

/-- The bounds of a scope, as the templates parse them; an empty bound is none. -/
structure ScopeBounds (T : CypherTime) (scope : TimeScope) (lo hi : Option ℤ) : Prop where
  start : timeBound T (orNone scope.start) = .ok lo
  stop : timeBound T (orNone scope.stop) = .ok hi

/-- The bounds of a query. -/
structure ParsedBounds (T : CypherTime) (params : Params) (lo hi : Option ℤ) : Prop where
  start : timeBound T (params.read .timeStart) = .ok lo
  stop : timeBound T (params.read .timeEnd) = .ok hi

/-- The answers of a template that looks up two nodes; a null id is the id of none. -/
def ByIds (x y : Option String) (answers : String → String → List Record → Prop)
    (out : List Record) : Prop :=
  match x, y with
  | some x, some y => answers x y out
  | _, _ => out = []

/-- The answers of a template that looks up one node. -/
def ById (x : Option String) (answers : String → List Record → Prop) (out : List Record) : Prop :=
  match x with
  | some x => answers x out
  | none => out = []

section

variable (T : CypherTime) (g : CivicGraph) (params : Params)

/-- **What the template of a claim type may answer**, where none of its bounds raises. -/
def TemplateAnswer (out : List Record) : ClaimType → Prop
  | .voteCast => ∃ lo hi, ParsedBounds T params lo hi ∧
      ByIds (params.read (.slot .speakerPersonId)) (params.read (.slot .billId))
        (fun p b => VoteCastAnswer T g p b lo hi) out
  | .billSponsorship =>
      ByIds (params.read (.slot .speakerPersonId)) (params.read (.slot .billId))
        (fun p b out => out = billSponsorshipRows T g p b) out
  | .officeHeld => ∃ lo hi, ParsedBounds T params lo hi ∧
      ByIds (params.read (.slot .speakerPersonId)) (params.read (.slot .officeId))
        (fun p o => OfficeHeldAnswer T g p o lo hi) out
  | .committeeMembership => ∃ lo hi, ParsedBounds T params lo hi ∧
      ByIds (params.read (.slot .speakerPersonId)) (params.read (.slot .committeeId))
        (fun p c out => out = committeeMembershipRows T g p c lo hi) out
  | .committeeAttendance => ∃ lo hi, ParsedBounds T params lo hi ∧
      ByIds (params.read (.slot .speakerPersonId)) (params.read (.slot .committeeId))
        (fun p c => CommitteeAttendanceAnswer T g p c lo hi) out
  | .electionResult => ∃ lo hi, ParsedBounds T params lo hi ∧
      ById (params.read (.slot .partyId)) (fun p => ElectionResultAnswer T g p lo hi) out
  | .statementAboutFormalAction =>
      ById (params.read (.slot .speakerPersonId)) (fun p out => out = statementRows g p) out
  | .governmentDecision => ∃ lo hi, ParsedBounds T params lo hi ∧
      GovernmentDecisionAnswer T g params lo hi out

end

variable {σ : Type}

/-- The driver runs the templates on the graph that the call finds, where it does not raise. -/
def AnswersFrom (T : CypherTime) (driver : GraphDriver σ) (graphOf : σ → CivicGraph) : Prop :=
  ∀ ct params s out s', driver.run ct params s = (.ok out, s') →
    TemplateAnswer T (graphOf s) params out ct

theorem graphParams_slot (slots : Slots) (scope : TimeScope) (slot : Slot) :
    (graphParams slots scope).read (.slot slot) = slots slot := rfl

theorem graphParams_bounds {T : CypherTime} {slots : Slots} {scope : TimeScope} {lo hi : Option ℤ}
    (h : ParsedBounds T (graphParams slots scope) lo hi) : ScopeBounds T scope lo hi := by
  have hread : ∀ x : Option String, (x.map some).join = x := by
    rintro (_ | x) <;> rfl
  have hstart : (graphParams slots scope).read .timeStart = orNone scope.start := hread _
  have hstop : (graphParams slots scope).read .timeEnd = orNone scope.stop := hread _
  obtain ⟨hlo, hhi⟩ := h
  rw [hstart] at hlo
  rw [hstop] at hhi
  exact ⟨hlo, hhi⟩

/-- What a retrieval that ends normally returns, if the driver answers from a graph: rows of the
graph that its session opens on. -/
theorem AnswersFrom.retrieve {T : CypherTime} {driver : GraphDriver σ} {graphOf : σ → CivicGraph}
    (hdriver : AnswersFrom T driver graphOf) {ct : ClaimType} {params : Params} {s s' : σ}
    {rows : List GraphEvidence} (h : driver.retrieve ct params s = (.ok rows, s')) :
    ∃ out, TemplateAnswer T (graphOf (driver.openSession s).2) params out ct ∧
      rows = out.map (recordToEvidence ct) := by
  obtain ⟨s₁, s₂, hopen, hbody⟩ := Eff.within_ok h
  rw [Eff.bind_ok] at hbody
  obtain ⟨out, s₃, hrun, hret⟩ := hbody
  cases hret
  rw [hopen]
  exact ⟨out, hdriver ct params s₁ out s₂ hrun, rfl⟩

end CivicProof
