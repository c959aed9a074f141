import CivicProof.Spec.Text
import Mathlib.Algebra.Order.Ring.Unbundled.Rat
import Mathlib.Algebra.Order.Field.Rat

/-!
# The ontology: claim types, slots, time scopes, confidence

The value types shared by every stage of the pipeline, and the slot template of each
claim type (`SLOT_TEMPLATES`) with its validator.
-/

namespace CivicProof

/-- An exception leaving a call. -/
inductive PyError where
  | typeError
  | valueError
  | importError
  /-- A model field out of its declared range. -/
  | validationError
  /-- Whatever a store, a driver or another outside collaborator raises. -/
  | external
  deriving DecidableEq, Repr

/-- `ClaimType`. -/
inductive ClaimType where
  | voteCast
  | billSponsorship
  | officeHeld
  | committeeMembership
  | committeeAttendance
  | statementAboutFormalAction
  | electionResult
  | governmentDecision
  deriving DecidableEq, Repr

/-- The wire name of a claim type. -/
def ClaimType.name : ClaimType → String
  | .voteCast => "vote_cast"
  | .billSponsorship => "bill_sponsorship"
  | .officeHeld => "office_held"
  | .committeeMembership => "committee_membership"
  | .committeeAttendance => "committee_attendance"
  | .statementAboutFormalAction => "statement_about_formal_action"
  | .electionResult => "election_result"
  | .governmentDecision => "government_decision"

/-- The keys of a claim's slot dictionary. -/
inductive Slot where
  | speakerPersonId
  | targetPersonId
  | billId
  | committeeId
  | officeId
  | voteValue
  | partyId
  | expectedSeats
  | expectPassedThreshold
  | governmentDecisionId
  /-- Carried along as a retrieval hint; not a formal slot. -/
  | governmentNumber
  deriving DecidableEq, Repr

/-- The wire name of a slot. -/
def Slot.name : Slot → String
  | .speakerPersonId => "speaker_person_id"
  | .targetPersonId => "target_person_id"
  | .billId => "bill_id"
  | .committeeId => "committee_id"
  | .officeId => "office_id"
  | .voteValue => "vote_value"
  | .partyId => "party_id"
  | .expectedSeats => "expected_seats"
  | .expectPassedThreshold => "expect_passed_threshold"
  | .governmentDecisionId => "government_decision_id"
  | .governmentNumber => "government_number"

/-- The keys of a slot dictionary, in the order the decomposer writes them. -/
def Slot.keys : List Slot :=
  [.speakerPersonId, .targetPersonId, .billId, .committeeId, .officeId, .voteValue, .partyId,
    .expectedSeats, .expectPassedThreshold, .governmentDecisionId, .governmentNumber]

/-- `ALL_SLOTS`: the formal slots. -/
def allSlots : List Slot :=
  [.speakerPersonId, .targetPersonId, .billId, .committeeId, .officeId, .voteValue, .partyId,
    .expectedSeats, .expectPassedThreshold, .governmentDecisionId]

/-- A claim's slot dictionary. Every key is present; its value may be `None`. -/
abbrev Slots := Slot → Option String

/-- `SlotTemplate`. -/
structure SlotTemplate where
  required : List Slot
  optional : List Slot

/-- The slots a template forbids. -/
def SlotTemplate.forbidden (t : SlotTemplate) : List Slot :=
  allSlots.filter fun s => s ∉ t.required ∧ s ∉ t.optional

/-- `SLOT_TEMPLATES`. -/
def slotTemplates : ClaimType → SlotTemplate
  | .voteCast => ⟨[.speakerPersonId, .billId, .voteValue], [.targetPersonId]⟩
  | .billSponsorship => ⟨[.speakerPersonId, .billId], [.targetPersonId]⟩
  | .officeHeld => ⟨[.speakerPersonId, .officeId], [.targetPersonId]⟩
  | .committeeMembership => ⟨[.speakerPersonId, .committeeId], [.targetPersonId]⟩
  | .committeeAttendance => ⟨[.speakerPersonId, .committeeId], [.targetPersonId]⟩
  | .statementAboutFormalAction =>
    ⟨[.speakerPersonId], [.targetPersonId, .billId, .committeeId, .officeId, .voteValue]⟩
  | .electionResult =>
    ⟨[.partyId], [.speakerPersonId, .targetPersonId, .expectedSeats, .expectPassedThreshold]⟩
  | .governmentDecision =>
    ⟨[.governmentDecisionId], [.speakerPersonId, .targetPersonId, .officeId]⟩

/-- Every slot a template names is a formal slot, and none is both required and optional. -/
theorem slotTemplates_wellFormed (ct : ClaimType) :
    (∀ s ∈ (slotTemplates ct).required, s ∈ allSlots ∧ s ∉ (slotTemplates ct).optional) ∧
      ∀ s ∈ (slotTemplates ct).optional, s ∈ allSlots := by
  cases ct <;> decide

/-- `validate_slots`: the violations of a slot dictionary, empty when it is valid. -/
def validateSlots (ct : ClaimType) (slots : Slots) : List String :=
  let tmpl := slotTemplates ct
  (tmpl.required.filter fun r => slots r = none ∨ slots r = some "").map
      (fun r => "required slot " ++ quote r.name ++ " is empty for " ++ ct.name) ++
    (tmpl.forbidden.filter fun f => ¬(slots f = none ∨ slots f = some "")).map
      (fun f => "forbidden slot " ++ quote f.name ++ " is set for " ++ ct.name)

/-- **What a valid slot dictionary has**: every required slot a non-empty text, every
forbidden slot absent or empty. -/
theorem validateSlots_nil {ct : ClaimType} {slots : Slots} :
    validateSlots ct slots = [] ↔
      (∀ r ∈ (slotTemplates ct).required, ∃ v, slots r = some v ∧ v ≠ "") ∧
        ∀ f ∈ (slotTemplates ct).forbidden, slots f = none ∨ slots f = some "" := by
  unfold validateSlots
  simp only [List.append_eq_nil_iff, List.map_eq_nil_iff, List.filter_eq_nil_iff,
    decide_eq_true_eq, not_not]
  refine and_congr_left fun _ => forall₂_congr fun r _ => ?_
  cases slots r with
  | none => simp
  | some v => simp

/-- `Granularity`. -/
inductive Granularity where
  | day
  | month
  | year
  | term
  | unknown
  deriving DecidableEq, Repr

/-- `TimeScope`: bounds as ISO texts, absent when open-ended. -/
structure TimeScope where
  start : Option String
  stop : Option String
  granularity : Granularity
  deriving DecidableEq, Repr

/-- `Checkability`. -/
inductive Checkability where
  | checkable
  | nonCheckable
  | insufficientTimeScope
  | insufficientEntityResolution
  deriving DecidableEq, Repr

/-- The wire name of a checkability value. -/
def Checkability.name : Checkability → String
  | .checkable => "checkable"
  | .nonCheckable => "non_checkable"
  | .insufficientTimeScope => "insufficient_time_scope"
  | .insufficientEntityResolution => "insufficient_entity_resolution"

/-- A score in the range the `Confidence` model accepts. -/
def UnitRange (x : ℚ) : Prop := 0 ≤ x ∧ x ≤ 1

instance (x : ℚ) : Decidable (UnitRange x) := inferInstanceAs (Decidable (_ ∧ _))

/-- `Confidence`: six factors, each in `[0, 1]`. The model rejects any other value, so a
`Confidence` carries its range. -/
structure Confidence where
  sourceAuthority : ℚ
  directness : ℚ
  temporalAlignment : ℚ
  entityResolution : ℚ
  crossSourceConsistency : ℚ
  overall : ℚ
  range : UnitRange sourceAuthority ∧ UnitRange directness ∧ UnitRange temporalAlignment ∧
    UnitRange entityResolution ∧ UnitRange crossSourceConsistency ∧ UnitRange overall

/-- The constructor of `Confidence` with its validation. -/
def Confidence.mk? (sa d t e cs o : ℚ) : Except PyError Confidence :=
  if h : UnitRange sa ∧ UnitRange d ∧ UnitRange t ∧ UnitRange e ∧ UnitRange cs ∧ UnitRange o then
    .ok ⟨sa, d, t, e, cs, o, h⟩
  else .error .validationError

end CivicProof
