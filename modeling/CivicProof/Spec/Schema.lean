import CivicProof.Spec.Adapters

/-!
# Which relationships the adapters merge

Every relationship type joins nodes of two labels, and each kind of record merges
relationships of a few types (`IngestRecord.linkTypes`).

* `IngestRecord.Normalized.links`: the types and labels of what a record merges.
* `mem_run_ingest`: a run adds no other relationship.
-/

namespace CivicProof

open PropGraph Cypher

/-- The labels that an ingested relationship joins. -/
def RelType.ends : RelType → Option (Label × Label)
  | .memberOf => some (.person, .party)
  | .memberOfCommittee => some (.person, .committee)
  | .heldOffice => some (.person, .office)
  | .hasPositionTerm => some (.person, .positionTerm)
  | .aboutOffice => some (.positionTerm, .office)
  | .forParty => some (.electionResult, .party)
  | .sponsored => some (.person, .bill)
  | .castVote => some (.person, .voteEvent)
  | .attended => some (.person, .attendanceEvent)
  -- merged by the enrichment script only
  | .aboutBill => some (.voteEvent, .bill)
  -- merged by no ingestion
  | .aboutPerson => none
  | .hasSpan => none

/-- The types of the relationships that a kind of normalized record merges. -/
def IngestRecord.linkTypes : IngestRecord → List RelType
  | .position _ => [.memberOf, .heldOffice, .hasPositionTerm, .aboutOffice]
  | .vote _ => [.castVote]
  | .attendance _ => [.attended]
  | .committeeMembership _ => [.memberOfCommittee]
  | .billSponsorship _ => [.sponsored]
  | .electionResult _ => [.forParty]
  | .person _ | .committee _ | .bill _ | .governmentDecision _ => []

/-- The labels of the nodes that a kind of normalized record merges. -/
def IngestRecord.mergedLabels : IngestRecord → List Label
  | .person _ => [.person]
  | .position _ => [.person, .party, .office, .positionTerm]
  | .vote _ => [.voteEvent, .person]
  | .attendance _ => [.attendanceEvent, .person]
  | .committee _ => [.committee]
  | .committeeMembership _ => [.person, .committee]
  | .bill _ => [.bill]
  | .billSponsorship _ => [.person, .bill]
  | .electionResult _ => [.party, .electionResult]
  | .governmentDecision _ => [.governmentDecision]

/-! ## What statements touch -/

/-- The nodes that the statements merge have labels in `ls`; the relationships they link have
types in `ts`, and join the labels of their type. -/
def Touches (u : List CivicStmt) (ls : List Label) (ts : List RelType) : Prop :=
  ∀ s ∈ u, (∀ n, s.Merges n → n.1 ∈ ls) ∧
    ∀ k, s.Links k → k.1 ∈ ts ∧ k.1.ends = some (k.2.1.1, k.2.2.1)

namespace Touches

variable {u v : List CivicStmt} {ls : List Label} {ts : List RelType}

theorem nil : Touches [] ls ts := fun _ hs => absurd hs List.not_mem_nil

/-- A statement that merges a node. -/
theorem node {l : Label} {x : String} {items : Option (List CivicItem)} (h : l ∈ ls)
    (hu : Touches u ls ts) : Touches (.mergeNode (l, x) items :: u) ls ts := by
  intro s hs
  rcases List.mem_cons.1 hs with rfl | hs
  · refine ⟨fun n hn => ?_, fun k hk => hk.elim⟩
    obtain rfl : (l, x) = n := hn
    exact h
  · exact hu s hs

/-- A statement that links two nodes. -/
theorem rel {t : RelType} {a b : NodeKey} {admitted : Bool} {items : Option (List CivicItem)}
    (h : t ∈ ts) (hends : t.ends = some (a.1, b.1)) (hu : Touches u ls ts) :
    Touches (.mergeRel t a b admitted items :: u) ls ts := by
  intro s hs
  rcases List.mem_cons.1 hs with rfl | hs
  · refine ⟨fun n hn => hn.elim, fun k hk => ?_⟩
    obtain ⟨-, rfl⟩ := hk
    exact ⟨h, hends⟩
  · exact hu s hs

theorem append (hu : Touches u ls ts) (hv : Touches v ls ts) : Touches (u ++ v) ls ts := by
  intro s hs
  rcases List.mem_append.1 hs with hs | hs
  · exact hu s hs
  · exact hv s hs

theorem flatMap {α : Type} {l : List α} {f : α → List CivicStmt} (h : ∀ a, Touches (f a) ls ts) :
    Touches (l.flatMap f) ls ts := by
  intro s hs
  obtain ⟨a, -, hs⟩ := List.mem_flatMap.1 hs
  exact h a s hs

end Touches

variable {T : CypherTime} {E : IngestEnv} {iso : String}

theorem touches_upsertPosition (bundle : NormalizedPositionBundle) :
    Touches (upsertPosition T bundle) [.person, .party, .office, .positionTerm]
      [.memberOf, .heldOffice, .hasPositionTerm, .aboutOffice] := by
  refine .node (by decide) (.append (.append ?_ ?_) ?_)
  · exact .flatMap fun p => .node (by decide) (.rel (by decide) rfl .nil)
  · exact .flatMap fun o => .node (by decide) (.rel (by decide) rfl .nil)
  · exact .flatMap fun pt =>
      .node (by decide) (.rel (by decide) rfl (.rel (by decide) rfl .nil))

theorem touches_upsertVote (event : NormalizedVoteEvent) :
    Touches (upsertVote T event) [.voteEvent, .person] [.castVote] :=
  .node (by decide) (.flatMap fun cv => .node (by decide) (.rel (by decide) rfl .nil))

theorem touches_upsertAttendance (event : NormalizedAttendanceEvent) :
    Touches (upsertAttendance T event) [.attendanceEvent, .person] [.attended] :=
  .node (by decide) (.flatMap fun a => .node (by decide) (.rel (by decide) rfl .nil))

/-- **What a normalized record touches.** -/
theorem IngestRecord.Normalized.touches {r : IngestRecord} (h : r.Normalized E) :
    Touches (r.statements T iso) r.mergedLabels r.linkTypes := by
  cases r with
  | person r =>
    obtain ⟨row, hr⟩ := h
    obtain rfl := List.mem_singleton.1 hr
    exact .node List.mem_cons_self .nil
  | position r => exact touches_upsertPosition r
  | vote r => exact touches_upsertVote r
  | attendance r => exact touches_upsertAttendance r
  | committee r =>
    obtain ⟨row, hr⟩ := h
    obtain rfl := List.mem_singleton.1 hr
    exact .node List.mem_cons_self .nil
  | committeeMembership r =>
    exact .node List.mem_cons_self (.node (.tail _ List.mem_cons_self)
      (.rel List.mem_cons_self rfl .nil))
  | bill r =>
    obtain ⟨row, hr⟩ := h
    obtain rfl := List.mem_singleton.1 hr
    exact .node List.mem_cons_self .nil
  | billSponsorship r =>
    exact .node List.mem_cons_self (.node (.tail _ List.mem_cons_self)
      (.rel List.mem_cons_self rfl .nil))
  | electionResult r =>
    exact .node List.mem_cons_self (.node (.tail _ List.mem_cons_self)
      (.rel List.mem_cons_self rfl .nil))
  | governmentDecision r => exact .node List.mem_cons_self .nil

/-- **What a normalized record links**: relationships of its types, between the right labels. -/
theorem IngestRecord.Normalized.links {r : IngestRecord} (h : r.Normalized E) {s : CivicStmt}
    (hs : s ∈ r.statements T iso) {k : RelKey} (hk : s.Links k) :
    k.1 ∈ r.linkTypes ∧ k.1.ends = some (k.2.1.1, k.2.2.1) :=
  (h.touches s hs).2 k hk

/-- What a normalized record merges: nodes of its labels. -/
theorem IngestRecord.Normalized.merges {r : IngestRecord} (h : r.Normalized E) {s : CivicStmt}
    (hs : s ∈ r.statements T iso) {n : NodeKey} (hn : s.Merges n) : n.1 ∈ r.mergedLabels :=
  (h.touches s hs).1 n hn

/-! ## Runs -/

/-- A relationship after a run was there before, or a statement of a record links it. -/
theorem mem_run_ingest {u : List CivicStmt} (hu : SelfContained u) {g : CivicGraph} {now : ℕ → ℤ}
    {k : RelKey} (hk : k ∈ (run now u g).rels) : k ∈ g.rels ∨ ∃ s ∈ u, s.Links k := by
  have heff := run_effect (fun s hs => (hu.regular s hs).uniform) now
    (hu.closed.mono (Q := (· ∈ g.nodes)) fun _ h => h.elim)
  exact ((heff.rels k).1 hk).imp_right fun ⟨s, hs, hl⟩ =>
    ⟨s, (List.takeWhile_prefix _).subset hs, hl⟩

end CivicProof
