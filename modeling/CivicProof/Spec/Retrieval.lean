import CivicProof.Spec.Effects
import CivicProof.Spec.Evidence

/-!
# Graph retrieval

`GraphDriver.retrieve` runs the Cypher template of the claim type with the parameters the
pipeline assembles (`graphParams`). Of the templates, the parameters each one names are
recorded for all claim types (`templateParams`), and the query itself for government
decisions (`governmentDecisionQuery`).
-/

namespace CivicProof

/-! ## Parameters -/

/-- A `$parameter` of the retrieval templates. -/
inductive Param where
  | slot (s : Slot)
  | timeStart
  | timeEnd
  | decisionNumber
  deriving DecidableEq, Repr

/-- The name of a parameter in the templates. -/
def Param.name : Param → String
  | .slot s => s.name
  | .timeStart => "time_start"
  | .timeEnd => "time_end"
  | .decisionNumber => "decision_number"

/-- The parameters of a query. A parameter may be unbound, or bound to a text or to null. -/
abbrev Params := Param → Option (Option String)

/-- A missing parameter reads as null. -/
def Params.read (params : Params) (p : Param) : Option String := (params p).join

/-- The parameters that occur in the template of a claim type. -/
def templateParams : ClaimType → List Param
  | .voteCast => [.slot .speakerPersonId, .slot .billId, .timeStart, .timeEnd]
  | .billSponsorship => [.slot .speakerPersonId, .slot .billId]
  | .officeHeld => [.slot .speakerPersonId, .slot .officeId, .timeStart, .timeEnd]
  | .committeeMembership => [.slot .speakerPersonId, .slot .committeeId, .timeStart, .timeEnd]
  | .committeeAttendance => [.slot .speakerPersonId, .slot .committeeId, .timeStart, .timeEnd]
  | .statementAboutFormalAction => [.slot .speakerPersonId]
  | .electionResult => [.slot .partyId, .timeStart, .timeEnd]
  | .governmentDecision =>
    [.slot .governmentDecisionId, .decisionNumber, .slot .governmentNumber, .timeStart, .timeEnd]

/-- The parameters `_retrieve` passes: the resolved slots, and the bounds of the scope that
are not empty. -/
def graphParams (resolvedSlots : Slots) (scope : TimeScope) : Params
  | .slot s => some (resolvedSlots s)
  -- a bound that is null or empty is left out, not passed as null
  | .timeStart => (orNone scope.start).map some
  | .timeEnd => (orNone scope.stop).map some
  | .decisionNumber => none

/-- Every parameter of the claim type's template is bound. -/
def FullyBound (ct : ClaimType) (params : Params) : Prop :=
  ∀ p ∈ templateParams ct, (params p).isSome

/-! ## Records -/

/-- A record of a template, with the columns it returns. -/
structure Record where
  nodeIds : Option (Dict Value) := none
  properties : Option (Dict Value) := none
  sourceDocumentIds : Option (List Value) := none
  sourceTier : Option ℤ := none

/-- A mapping with its values read through a function. -/
def Dict.mapValues {α β : Type} (f : α → β) (d : Dict α) : Dict β :=
  (d.entries.map fun e => ⟨e.1, f e.2⟩).toAList

/-- `_record_to_evidence`. -/
def recordToEvidence (ct : ClaimType) (record : Record) : GraphEvidence where
  claimType := ct
  nodeIds := Dict.mapValues Value.pyStr (record.nodeIds.getD ∅)
  properties := record.properties.getD ∅
  sourceDocumentIds := (record.sourceDocumentIds.getD []).map Value.pyStr
  sourceTier := record.sourceTier.getD 1

/-- A graph driver: its sessions, and what `session.run` does with a template. -/
structure GraphDriver (σ : Type) where
  openSession : Eff σ Unit
  closeSession : Eff σ Unit
  run : ClaimType → Params → Eff σ (List Record)

/-- `GraphRetriever.retrieve`. -/
def GraphDriver.retrieve {σ : Type} (driver : GraphDriver σ) (ct : ClaimType) (params : Params) :
    Eff σ (List GraphEvidence) :=
  Eff.within driver.openSession driver.closeSession do
    let records ← driver.run ct params
    return records.map (recordToEvidence ct)

/-! ## Government decisions -/

/-- The properties of a `GovernmentDecision` node. Its date is an instant. -/
structure GovernmentDecision where
  governmentDecisionId : String
  decisionNumber : Option String := none
  governmentNumber : Option ℤ := none
  decisionDate : Option ℤ := none
  title : Option String := none
  summary : Option String := none
  issuingBody : Option String := none
  sourceDocumentId : Option String := none

/-- The `GovernmentDecision` nodes of a graph. Upserts merge on the id, so no two nodes
share one. -/
structure DecisionGraph where
  nodes : List GovernmentDecision
  ids_nodup : (nodes.map (·.governmentDecisionId)).Nodup

/-- Cypher's `datetime(text)`, where it does not raise, and `toString` of an instant. -/
structure CypherTime where
  datetime : String → Option ℤ
  text : ℤ → String

/-- The `RETURN` clause of the template. -/
def GovernmentDecision.record (T : CypherTime) (d : GovernmentDecision) : Record where
  nodeIds := some (Dict.ofList [("government_decision_id", .str d.governmentDecisionId)])
  properties := some <| Dict.ofList
    [("decision_number", .ofText d.decisionNumber), ("government_number", .ofInt d.governmentNumber),
      ("decision_date", .ofText (d.decisionDate.map T.text)), ("title", .ofText d.title),
      ("summary", .ofText d.summary), ("issuing_body", .ofText d.issuingBody)]
  sourceDocumentIds := some (d.sourceDocumentId.toList.map .str)
  sourceTier := some 1

/-- The identity part of the `WHERE` clause: by id when one is given, else by number. -/
def decisionMatches (params : Params) (d : GovernmentDecision) : Bool :=
  match params.read (.slot .governmentDecisionId), params.read .decisionNumber with
  -- with an id given the number is not looked at
  | some id, _ => d.governmentDecisionId = id
  | none, some number =>
    d.decisionNumber = some number &&
      -- the node's number is an integer, the parameter a text
      (params.read (.slot .governmentNumber)).all fun n => Value.ofInt d.governmentNumber = .str n
  | none, none => false

/-- A time bound of the template, parsed. -/
def timeBound (T : CypherTime) : Option String → Except PyError (Option ℤ)
  | none => .ok none
  | some text => match T.datetime text with
    | some i => .ok (some i)
    | none => .error .external

/-- The date part of the `WHERE` clause: a null date satisfies no bound. -/
def dateWithin (lo hi : Option ℤ) (d : GovernmentDecision) : Bool :=
  (lo.all fun t => d.decisionDate.any (t ≤ ·)) && (hi.all fun t => d.decisionDate.any (· ≤ t))

/-- `ORDER BY decision_date DESC`: null dates first. -/
def laterDecision (a b : GovernmentDecision) : Prop :=
  match a.decisionDate, b.decisionDate with
  | none, _ => True
  | some _, none => False
  | some s, some t => t ≤ s

instance : DecidableRel laterDecision := fun a b => by
  unfold laterDecision
  cases a.decisionDate <;> cases b.decisionDate <;> infer_instance

/-- `government_decision.cypher`. -/
def governmentDecisionQuery (T : CypherTime) (G : DecisionGraph) (params : Params) :
    Except PyError (List Record) := do
  let lo ← timeBound T (params.read .timeStart)
  let hi ← timeBound T (params.read .timeEnd)
  let found := G.nodes.filter fun d => decisionMatches params d && dateWithin lo hi d
  return ((found.insertionSort laterDecision).take 5).map (·.record T)

/-- A driver that answers the template of government decisions from a graph and every other
one through `other`. -/
def decisionDriver {σ : Type} (T : CypherTime) (G : DecisionGraph)
    (other : ClaimType → Params → Eff σ (List Record)) : GraphDriver σ where
  openSession := pure ()
  closeSession := pure ()
  run ct params :=
    if ct = .governmentDecision then Eff.lift (governmentDecisionQuery T G params)
    else other ct params

end CivicProof
