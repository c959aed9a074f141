import CivicProof.Proof.Verdict

/-!
# Text does not interfere with record-based verdicts

Snippets change the document count, every score, the order of the list and the confidence.
None of it reaches the status of a record-based claim, except that the confidence may fall
below the abstention threshold.

* `lexical_noninterference`: two runs on the same graph rows agree, or one of them abstains.
-/

namespace CivicProof

def Evidence.lexical? : Evidence → Option LexicalEvidence
  | .graph _ => none
  | .lexical l => some l

/-- `evidences` is an interleaving of the graph rows `G` and the snippets `L`. -/
structure Interleaves (evidences : List Evidence) (G : List GraphEvidence)
    (L : List LexicalEvidence) : Prop where
  graph : evidences.filterMap Evidence.graph? = G
  lexical : evidences.filterMap Evidence.lexical? = L

/-- The inputs with their evidence reranked from a list. -/
def VerdictInputs.withEvidence (inputs : VerdictInputs) (evidences : List Evidence)
    (scope : Option TimeScope) (ids : Dict String) : VerdictInputs :=
  { inputs with rankedEvidence := rerank evidences inputs.claimType scope ids }

/-- The status of the verdict, or the exception. -/
def verdictStatus (inputs : VerdictInputs) : Except PyError Status :=
  (decideVerdict inputs).map (·.status)

section

variable {inputs : VerdictInputs} {evidences evidences' : List Evidence} {G : List GraphEvidence}
  {L : List LexicalEvidence} {scope : Option TimeScope} {ids : Dict String}

theorem Interleaves.perm (h : Interleaves evidences G L) :
    evidences.Perm (G.map .graph ++ L.map .lexical) := by
  obtain ⟨rfl, rfl⟩ := h
  -- each snippet moves behind the rows in front of it
  induction evidences with
  | nil => exact List.Perm.refl _
  | cons e es ih =>
    cases e with
    | graph g => exact ih.cons _
    | lexical l => exact (ih.cons _).trans List.perm_middle.symm

theorem verdictStatus_passes {confidence : Confidence} (hc : inputs.checkability = .checkable)
    (hp : PassesThreshold inputs confidence) :
    verdictStatus inputs = (compare inputs (graphHits inputs.claimType inputs.rankedEvidence)
      (lexCorroborations inputs.rankedEvidence)).map Prod.fst := by
  unfold verdictStatus
  rw [decideVerdict_passes hc hp]
  cases compare inputs (graphHits inputs.claimType inputs.rankedEvidence)
    (lexCorroborations inputs.rankedEvidence) <;> rfl

theorem verdictStatus_below {confidence : Confidence} (hc : inputs.checkability = .checkable)
    (hconf : computeConfidence inputs.rankedEvidence = .ok confidence)
    (hp : ¬PassesThreshold inputs confidence) :
    verdictStatus inputs = .ok .insufficientEvidence := by
  obtain ⟨o, ho, hs, -⟩ := decideVerdict_below hc hconf hp
  unfold verdictStatus
  rw [ho, ← hs]
  rfl

/-- A checkable claim on reranked evidence abstains, or gets its comparison's status. -/
theorem verdictStatus_withEvidence (hc : inputs.checkability = .checkable)
    (evidences : List Evidence) (scope : Option TimeScope) (ids : Dict String) :
    verdictStatus (inputs.withEvidence evidences scope ids) = .ok .insufficientEvidence ∨
      verdictStatus (inputs.withEvidence evidences scope ids) =
        (compare inputs (graphHits inputs.claimType (rerank evidences inputs.claimType scope ids))
          (evidences.countP Evidence.isLexical)).map Prod.fst := by
  obtain ⟨confidence, hconf, -⟩ := computeConfidence_rerank evidences inputs.claimType scope ids
  have hc' : (inputs.withEvidence evidences scope ids).checkability = .checkable := hc
  by_cases hp : PassesThreshold (inputs.withEvidence evidences scope ids) confidence
  · refine Or.inr ?_
    rw [verdictStatus_passes hc' hp, ← lexCorroborations_rerank inputs.claimType scope ids]
    rfl
  · exact Or.inl (verdictStatus_below hc' hconf hp)

/-- Without a row of its type, a record-based claim abstains. -/
theorem verdictStatus_no_rows (hc : inputs.checkability = .checkable)
    (hct : RecordBased inputs.claimType)
    (hnone : ∀ g ∈ evidences.filterMap Evidence.graph?, g.claimType ≠ inputs.claimType) :
    verdictStatus (inputs.withEvidence evidences scope ids) = .ok .insufficientEvidence := by
  rcases verdictStatus_withEvidence hc evidences scope ids with h | h
  · exact h
  · have hempty : graphHits inputs.claimType (rerank evidences inputs.claimType scope ids) = [] := by
      rw [perm_eq_nil (graphHits_rerank _ _ _), List.filter_eq_nil_iff]
      intro g hg
      simpa using hnone g hg
    rw [h, hempty]
    unfold compare
    rcases hct with hct | hct | hct | hct <;> rw [hct] <;> rfl

/-- **The status is a function of the multiset of evidence.** -/
theorem verdictStatus_perm (hc : inputs.checkability = .checkable)
    (h : evidences.Perm evidences') :
    verdictStatus (inputs.withEvidence evidences scope ids) =
      verdictStatus (inputs.withEvidence evidences' scope ids) := by
  obtain ⟨confidence, hconf, -⟩ := computeConfidence_rerank evidences inputs.claimType scope ids
  have hperm := rerank_perm_of_perm inputs.claimType scope ids h
  have hconf' := computeConfidence_perm hperm ▸ hconf
  have hc₁ : (inputs.withEvidence evidences scope ids).checkability = .checkable := hc
  have hc₂ : (inputs.withEvidence evidences' scope ids).checkability = .checkable := hc
  by_cases hp : PassesThreshold (inputs.withEvidence evidences scope ids) confidence
  · have hp' : PassesThreshold (inputs.withEvidence evidences' scope ids) confidence :=
      ⟨hconf', mt (perm_eq_nil hperm).2 hp.nonempty, hp.overall⟩
    rw [verdictStatus_passes hc₁ hp, verdictStatus_passes hc₂ hp']
    exact compare_status_perm (Or.inr (hperm.countP_eq _)) ((hperm.filterMap _).filter _)
  · have hp' : ¬PassesThreshold (inputs.withEvidence evidences' scope ids) confidence :=
      fun hp' => hp ⟨hconf, mt (perm_eq_nil hperm).1 hp'.nonempty, hp'.overall⟩
    rw [verdictStatus_below hc₁ hconf hp, verdictStatus_below hc₂ hconf' hp']

/-- **Lexical noninterference.** Two runs of a checkable record-based claim whose evidence has
the same graph rows, in any order and interleaved with any snippets, agree in their status or
one of them abstains; without a row of the claim's type both abstain; and with the same
snippets as well they agree. -/
theorem lexical_noninterference {G' : List GraphEvidence} {L' : List LexicalEvidence}
    (hc : inputs.checkability = .checkable) (hct : RecordBased inputs.claimType)
    (hG : G.Perm G') (h : Interleaves evidences G L) (h' : Interleaves evidences' G' L') :
    (verdictStatus (inputs.withEvidence evidences scope ids) =
          verdictStatus (inputs.withEvidence evidences' scope ids) ∨
        verdictStatus (inputs.withEvidence evidences scope ids) = .ok .insufficientEvidence ∨
        verdictStatus (inputs.withEvidence evidences' scope ids) = .ok .insufficientEvidence) ∧
      ((∀ g ∈ G, g.claimType ≠ inputs.claimType) →
        verdictStatus (inputs.withEvidence evidences scope ids) = .ok .insufficientEvidence ∧
          verdictStatus (inputs.withEvidence evidences' scope ids) = .ok .insufficientEvidence) ∧
      (L.Perm L' → verdictStatus (inputs.withEvidence evidences scope ids) =
        verdictStatus (inputs.withEvidence evidences' scope ids)) := by
  refine ⟨?_, fun hnone => ⟨?_, ?_⟩, fun hL => ?_⟩
  · rcases verdictStatus_withEvidence hc evidences scope ids with h1 | h1
    · exact Or.inr (Or.inl h1)
    rcases verdictStatus_withEvidence hc evidences' scope ids with h2 | h2
    · exact Or.inr (Or.inr h2)
    refine Or.inl ?_
    -- both got the status of their comparison, which reads the graph rows only
    have hrows : (evidences.filterMap Evidence.graph?).Perm (evidences'.filterMap Evidence.graph?) := by
      rw [h.graph, h'.graph]
      exact hG
    rw [h1, h2]
    exact compare_status_perm (Or.inl hct)
      ((graphHits_rerank _ _ _).trans ((hrows.filter _).trans (graphHits_rerank _ _ _).symm))
  · exact verdictStatus_no_rows hc hct (by rwa [h.graph])
  · refine verdictStatus_no_rows hc hct fun g hg => ?_
    rw [h'.graph] at hg
    exact hnone g (hG.mem_iff.2 hg)
  · exact verdictStatus_perm hc
      (h.perm.trans (((hG.map _).append (hL.map _)).trans h'.perm.symm))

end

def voteFor : GraphEvidence where
  claimType := .voteCast
  nodeIds := ∅
  properties := Dict.ofList [("vote_value", .str "for")]
  sourceDocumentIds := ["d1"]

def snippet : LexicalEvidence := ⟨"s1", "d2", "voted against the bill", 3, ∅⟩

def votedFor : VerdictInputs where
  claimId := "c1"
  claimType := .voteCast
  checkability := .checkable
  expectedVoteValue := some "for"

/-- One snippet more does not change a vote verdict. -/
theorem lexical_noninterference_snippet :
    (verdictStatus (votedFor.withEvidence [.graph voteFor] none ∅) =
          verdictStatus (votedFor.withEvidence [.lexical snippet, .graph voteFor] none ∅) ∨
        verdictStatus (votedFor.withEvidence [.graph voteFor] none ∅) = .ok .insufficientEvidence ∨
        verdictStatus (votedFor.withEvidence [.lexical snippet, .graph voteFor] none ∅) =
          .ok .insufficientEvidence) :=
  And.left (lexical_noninterference rfl (Or.inl rfl) (List.Perm.refl [voteFor])
    (⟨rfl, rfl⟩ : Interleaves _ _ []) (⟨rfl, rfl⟩ : Interleaves _ _ [snippet]))

end CivicProof
