import CivicProof.Proof.Declaration
import CivicProof.Spec.Persistence

/-!
# Declarations in review

The overall relation of a declaration is its worst one by `relationPriority`, and the declaration is
handed to review if that is one of `reviewTriggerRelations`. In the order of the priorities, a claim
that cannot be checked comes between the relations that trigger a review.

* `worstRelation_spec`: the overall relation stands first among those that are there.
* `worstRelation_trigger_iff`: when it triggers a review.
* `declaration_escalation_iff`: for which verdicts a declaration with a triggering edge is handed
  to review, and stays so when claims are added.
* `declaration_never_queued`: the table of review tasks takes none for a declaration, and the
  exception is lost.
-/

namespace CivicProof

/-! ## The worst relation -/

theorem mem_relationPriority (r : RelationType) : r ∈ relationPriority := by cases r <;> decide

theorem worseOf_some (c r : RelationType) : ∃ w, worseOf (some c) r = some w ∧ (w = c ∨ w = r) ∧
    relationPriority.idxOf w ≤ relationPriority.idxOf c ∧
    relationPriority.idxOf w ≤ relationPriority.idxOf r := by
  unfold worseOf
  rw [if_neg (not_not.2 (mem_relationPriority r))]
  dsimp only
  split
  · exact ⟨r, rfl, Or.inr rfl, by omega, le_rfl⟩
  · exact ⟨c, rfl, Or.inl rfl, le_rfl, by omega⟩

/-- The loop of `worst_relation`, once some relation is chosen. -/
theorem foldl_worseOf (l : List RelationType) (c : RelationType) :
    ∃ w, l.foldl worseOf (some c) = some w ∧ w ∈ c :: l ∧
      ∀ r ∈ c :: l, relationPriority.idxOf w ≤ relationPriority.idxOf r := by
  -- by induction on the relations still to come, for every choice so far
  induction l generalizing c with
  | nil => exact ⟨c, rfl, List.mem_singleton_self c, fun r hr => by rw [List.mem_singleton.1 hr]⟩
  | cons a l ih =>
    obtain ⟨w₁, hw₁, hfrom, hc, ha⟩ := worseOf_some c a
    obtain ⟨w, hw, hmem, hle⟩ := ih w₁
    have hfirst := hle w₁ List.mem_cons_self
    rw [List.foldl_cons, hw₁]
    refine ⟨w, hw, ?_, ?_⟩
    · rcases List.mem_cons.1 hmem with rfl | hmem
      · rcases hfrom with rfl | rfl
        · exact List.mem_cons_self
        · exact List.mem_cons_of_mem _ List.mem_cons_self
      · exact List.mem_cons_of_mem _ (List.mem_cons_of_mem _ hmem)
    · intro r hr
      rcases List.mem_cons.1 hr with rfl | hr
      · omega
      rcases List.mem_cons.1 hr with rfl | hr
      · omega
      · exact hle r (List.mem_cons_of_mem _ hr)

/-- **The worst relation** is one of those given, and none of them comes before it. -/
theorem worstRelation_spec {l : List RelationType} (h : l ≠ []) :
    worstRelation l ∈ l ∧
      ∀ r ∈ l, relationPriority.idxOf (worstRelation l) ≤ relationPriority.idxOf r := by
  cases l with
  | nil => exact absurd rfl h
  | cons c l =>
    obtain ⟨w, hw, hmem, hle⟩ := foldl_worseOf l c
    have hstart : worseOf none c = some c := by
      unfold worseOf
      rw [if_neg (not_not.2 (mem_relationPriority c))]
    have heq : worstRelation (c :: l) = w := by
      unfold worstRelation
      rw [List.foldl_cons, hstart, hw, Option.getD_some]
    rw [heq]
    exact ⟨hmem, hle⟩

/-- The relations that come before `notCheckableAgainstRecord`; each triggers a review. -/
def foremostRelations : List RelationType := [.contradictedBy, .entityAmbiguous, .timeScopeMismatch]

/-- **When the worst relation triggers a review**: a foremost one is there, or one that triggers and
none that is not checkable. -/
theorem worstRelation_trigger_iff {l : List RelationType} :
    worstRelation l ∈ reviewTriggerRelations ↔ (∃ r ∈ l, r ∈ foremostRelations) ∨
      ((∃ r ∈ l, r ∈ reviewTriggerRelations) ∧ .notCheckableAgainstRecord ∉ l) := by
  -- the relations by their place in the order
  have hforemost : ∀ r, r ∈ foremostRelations ↔ relationPriority.idxOf r < 3 := by
    intro r
    cases r <;> decide
  have hplace : ∀ r, r ∈ reviewTriggerRelations ↔ relationPriority.idxOf r < 3 ∨
      (3 < relationPriority.idxOf r ∧ relationPriority.idxOf r < 6) := by
    intro r
    cases r <;> decide
  by_cases hl : l = []
  · rw [hl]
    exact iff_of_false (by decide) (by simp)
  obtain ⟨hmem, hle⟩ := worstRelation_spec hl
  rw [hplace]
  constructor
  · rintro (h | h)
    · exact Or.inl ⟨_, hmem, (hforemost _).2 h⟩
    · refine Or.inr ⟨⟨_, hmem, (hplace _).2 (Or.inr h)⟩, fun hnot => ?_⟩
      have h3 : relationPriority.idxOf .notCheckableAgainstRecord = 3 := by decide
      have := hle _ hnot
      omega
  · rintro (⟨r, hr, hf⟩ | ⟨⟨r, hr, ht⟩, hnot⟩)
    · have := hle r hr
      have := (hforemost r).1 hf
      exact Or.inl (by omega)
    · have hne : relationPriority.idxOf (worstRelation l) ≠ 3 := by
        intro h3
        have hinj : ∀ r, relationPriority.idxOf r = 3 → r = .notCheckableAgainstRecord := by
          intro r
          cases r <;> decide
        exact hnot (hinj _ h3 ▸ hmem)
      have := hle r hr
      have := (hplace r).1 ht
      omega

/-! ## Verdicts and relations -/

/-- The relation of a bundle's edge. -/
def Bundle.relation (b : Bundle) : RelationType :=
  determineRelation b.outcome.status b.checkability b.outcome.reasons
    ((b.topEvidence.map (·.evidence)).countP (·.isLexical))

/-- The verdict contradicts the claim, or abstains for its entities or its time scope. -/
def Bundle.Contested (b : Bundle) : Prop :=
  b.outcome.status = .contradicted ∨ (b.outcome.status = .nonCheckable ∧
    b.checkability ∈ [Checkability.insufficientEntityResolution, .insufficientTimeScope])

/-- The verdict finds the record mixed. -/
def Bundle.Mixed (b : Bundle) : Prop := b.outcome.status = .mixed

/-- The verdict abstains for another reason. -/
def Bundle.Unsettled (b : Bundle) : Prop :=
  b.outcome.status = .insufficientEvidence ∨ (b.outcome.status = .nonCheckable ∧
    b.checkability ∉ [Checkability.insufficientEntityResolution, .insufficientTimeScope])

/-- The relation of an edge, by the status of the verdict. -/
theorem relation_eq (b : Bundle) : b.relation = match b.outcome.status with
    | .supported => .supportedBy
    | .contradicted =>
      if b.outcome.reasons.any mentionsTimeScope then .timeScopeMismatch else .contradictedBy
    | .mixed => if (b.topEvidence.map (·.evidence)).countP (·.isLexical) = 1 then .underspecifies
      else .overstates
    | .insufficientEvidence => .notCheckableAgainstRecord
    | .nonCheckable =>
      if b.checkability = .insufficientEntityResolution then .entityAmbiguous
      else if b.checkability = .insufficientTimeScope then .timeScopeMismatch
      else .notCheckableAgainstRecord := by
  unfold Bundle.relation determineRelation
  cases b.outcome.status <;> simp [verdictToRelation]

theorem relation_foremost (b : Bundle) : b.relation ∈ foremostRelations ↔ b.Contested := by
  unfold Bundle.Contested
  rw [relation_eq]
  cases b.outcome.status with
  | contradicted => dsimp only; split <;> simp [foremostRelations]
  | mixed => dsimp only; split <;> simp [foremostRelations]
  | nonCheckable => cases b.checkability <;> simp [foremostRelations]
  | supported => simp [foremostRelations]
  | insufficientEvidence => simp [foremostRelations]

theorem relation_trigger (b : Bundle) :
    b.relation ∈ reviewTriggerRelations ↔ b.Contested ∨ b.Mixed := by
  unfold Bundle.Contested Bundle.Mixed
  rw [relation_eq]
  cases b.outcome.status with
  | contradicted => dsimp only; split <;> simp [reviewTriggerRelations]
  | mixed => dsimp only; split <;> simp [reviewTriggerRelations]
  | nonCheckable => cases b.checkability <;> simp [reviewTriggerRelations]
  | supported => simp [reviewTriggerRelations]
  | insufficientEvidence => simp [reviewTriggerRelations]

theorem relation_notCheckable (b : Bundle) :
    b.relation = .notCheckableAgainstRecord ↔ b.Unsettled := by
  unfold Bundle.Unsettled
  rw [relation_eq]
  cases b.outcome.status with
  | contradicted => dsimp only; split <;> simp
  | mixed => dsimp only; split <;> simp
  | nonCheckable => cases b.checkability <;> simp
  | supported => simp
  | insufficientEvidence => simp

/-! ## Escalation -/

/-- The bundles that `verify` pairs with a claim. -/
def paired (d : DeclarationDecompositionResult) (bundles : List Bundle) : List Bundle :=
  (d.claims.zip bundles).map (·.2)

/-- The relations of the edges are those of the paired bundles. -/
theorem judge_relations {uuid4 : ℕ → String} {d : DeclarationDecompositionResult}
    {bundles : List Bundle} :
    (DeclarationVerifier.judge uuid4 d bundles).attributionEdges.map (·.relationType) =
      (paired d bundles).map (·.relation) := by
  unfold DeclarationVerifier.judge paired
  dsimp only
  rw [List.map_map, List.map_map]
  calc (d.claims.zip bundles).zipIdx.map _
      = ((d.claims.zip bundles).zipIdx.map Prod.fst).map fun p => p.2.relation := by
        rw [List.map_map]
        rfl
    _ = (d.claims.zip bundles).map (Bundle.relation ∘ Prod.snd) := by
        rw [List.zipIdx_map_fst]
        rfl

/-- A verifier that is handed its bundles, and a queue that keeps the tasks it is given. -/
def DeclarationVerifier.recording (bundles : List Bundle) : DeclarationVerifier (List NewTask) where
  pipeline _ _ := pure bundles
  reviewConnection := some fun task tasks => (.ok (), tasks ++ [task])

/-- A declaration is escalated: its verification opens one task, of kind `declaration`. -/
def Escalated (uuid4 : ℕ → String) (d : DeclarationDecompositionResult) (bundles : List Bundle)
    (language : Language) : Prop :=
  ∃ r task, (DeclarationVerifier.recording bundles).verify uuid4 d language [] = (.ok r, [task]) ∧
    task.kind = .declaration

/-- Some edge of the declaration has a relation that triggers a review. -/
def Triggered (uuid4 : ℕ → String) (d : DeclarationDecompositionResult) (bundles : List Bundle)
    (language : Language) : Prop :=
  ∃ r s', (DeclarationVerifier.recording bundles).verify uuid4 d language [] = (.ok r, s') ∧
    ∃ e ∈ r.attributionEdges, e.relationType ∈ reviewTriggerRelations

theorem recording_run (uuid4 : ℕ → String) (d : DeclarationDecompositionResult)
    (bundles : List Bundle) (language : Language) :
    (DeclarationVerifier.recording bundles).verify uuid4 d language [] =
      (.ok (DeclarationVerifier.judge uuid4 d bundles), ((DeclarationVerifier.recording bundles).enqueue
        (DeclarationVerifier.judge uuid4 d bundles) []).2) := DeclarationVerifier.verify_run rfl

theorem triggered_iff {uuid4 : ℕ → String} {d : DeclarationDecompositionResult}
    {bundles : List Bundle} {language : Language} :
    Triggered uuid4 d bundles language ↔ ∃ b ∈ paired d bundles, b.Contested ∨ b.Mixed := by
  have hmem : ∀ {α : Type} {f : α → RelationType} {l : List α},
      (∃ x ∈ l, f x ∈ reviewTriggerRelations) ↔ ∃ r ∈ l.map f, r ∈ reviewTriggerRelations := by
    intro α f l
    simp only [List.mem_map, exists_exists_and_eq_and]
  have hedges : (∃ e ∈ (DeclarationVerifier.judge uuid4 d bundles).attributionEdges,
        e.relationType ∈ reviewTriggerRelations) ↔
      ∃ b ∈ paired d bundles, b.Contested ∨ b.Mixed := by
    rw [hmem, judge_relations, ← hmem]
    exact exists_congr fun b => and_congr_right fun _ => relation_trigger b
  rw [← hedges]
  unfold Triggered
  rw [recording_run]
  constructor
  · rintro ⟨r, s', hr, h⟩
    rwa [Except.ok.inj (congrArg Prod.fst hr)]
  · exact fun h => ⟨_, _, rfl, h⟩

/-- **When a declaration is escalated**, by the verdicts on its claims. -/
theorem escalated_iff {uuid4 : ℕ → String} {d : DeclarationDecompositionResult}
    {bundles : List Bundle} {language : Language} : Escalated uuid4 d bundles language ↔
      (∃ b ∈ paired d bundles, b.Contested) ∨
        ((∃ b ∈ paired d bundles, b.Mixed) ∧ ∀ b ∈ paired d bundles, ¬b.Unsettled) := by
  have hworst : (DeclarationVerifier.judge uuid4 d bundles).overallRelation ∈ reviewTriggerRelations ↔
      (∃ b ∈ paired d bundles, b.Contested) ∨
        ((∃ b ∈ paired d bundles, b.Mixed) ∧ ∀ b ∈ paired d bundles, ¬b.Unsettled) := by
    have hoverall : (DeclarationVerifier.judge uuid4 d bundles).overallRelation =
        worstRelation ((paired d bundles).map (·.relation)) := by
      rw [← judge_relations]
      rfl
    rw [hoverall, worstRelation_trigger_iff]
    simp only [List.mem_map, exists_exists_and_eq_and, relation_foremost, relation_trigger,
      not_exists, not_and, relation_notCheckable]
    constructor
    · rintro (h | ⟨⟨b, hb, hc | hm⟩, hnot⟩)
      · exact Or.inl h
      · exact Or.inl ⟨b, hb, hc⟩
      · exact Or.inr ⟨⟨b, hb, hm⟩, hnot⟩
    · rintro (h | ⟨⟨b, hb, hm⟩, hnot⟩)
      · exact Or.inl h
      · exact Or.inr ⟨⟨b, hb, Or.inr hm⟩, hnot⟩
  rw [← hworst]
  unfold Escalated
  rw [recording_run]
  generalize DeclarationVerifier.judge uuid4 d bundles = r
  by_cases h : r.overallRelation ∈ reviewTriggerRelations
  · refine iff_of_true ?_ h
    unfold DeclarationVerifier.enqueue DeclarationVerifier.reviewTask
    rw [if_pos h]
    exact ⟨r, _, rfl, rfl⟩
  · refine iff_of_false ?_ h
    unfold DeclarationVerifier.enqueue DeclarationVerifier.reviewTask
    rw [if_neg h]
    rintro ⟨r', task, heq, -⟩
    cases heq

/-- No verdict hides a mixed one: some claim is contested, or none is mixed, or none unsettled. -/
def Unhidden (bundles : List Bundle) : Prop :=
  (∃ b ∈ bundles, b.Contested) ∨ (∀ b ∈ bundles, ¬b.Mixed) ∨ ∀ b ∈ bundles, ¬b.Unsettled

/-- **When an edge that triggers a review leads to one**: exactly if no verdict hides a mixed one.
And claims that are added leave a declaration escalated exactly if that holds with them. -/
theorem declaration_escalation_iff (uuid4 : ℕ → String) (d : DeclarationDecompositionResult)
    (bundles : List Bundle) (language : Language) :
    ((Triggered uuid4 d bundles language → Escalated uuid4 d bundles language) ↔
      Unhidden (paired d bundles)) ∧
    ∀ (uuid4' : ℕ → String) (d' : DeclarationDecompositionResult) (bundles' : List Bundle)
      (language' : Language),
      (d.claims.zip bundles ⊆ d'.claims.zip bundles' ∧ Escalated uuid4 d bundles language →
          Escalated uuid4' d' bundles' language') ↔
        (d.claims.zip bundles ⊆ d'.claims.zip bundles' ∧ Escalated uuid4 d bundles language →
          Unhidden (paired d' bundles')) := by
  -- with a triggering edge, escalation and the condition come to the same
  have key : ∀ bs : List Bundle, (∃ b ∈ bs, b.Contested ∨ b.Mixed) →
      (((∃ b ∈ bs, b.Contested) ∨ ((∃ b ∈ bs, b.Mixed) ∧ ∀ b ∈ bs, ¬b.Unsettled)) ↔
        Unhidden bs) := by
    rintro bs ⟨b, hb, hedge⟩
    unfold Unhidden
    constructor
    · rintro (h | ⟨-, h⟩)
      · exact Or.inl h
      · exact Or.inr (Or.inr h)
    · rintro (h | h | h)
      · exact Or.inl h
      · exact Or.inl ⟨b, hb, hedge.resolve_right (h b hb)⟩
      · rcases hedge with hedge | hedge
        · exact Or.inl ⟨b, hb, hedge⟩
        · exact Or.inr ⟨⟨b, hb, hedge⟩, h⟩
  refine ⟨?_, fun uuid4' d' bundles' language' => ?_⟩
  · rw [triggered_iff, escalated_iff]
    constructor
    · intro h
      by_cases hedge : ∃ b ∈ paired d bundles, b.Contested ∨ b.Mixed
      · exact (key _ hedge).1 (h hedge)
      · exact Or.inr (Or.inl fun b hb hm => hedge ⟨b, hb, Or.inr hm⟩)
    · exact fun h hedge => (key _ hedge).2 h
  · refine forall_congr' fun ⟨hsub, hesc⟩ => ?_
    rw [escalated_iff] at hesc ⊢
    apply key
    -- the verdict that escalates the declaration is still there
    obtain ⟨b, hb, hedge⟩ : ∃ b ∈ paired d bundles, b.Contested ∨ b.Mixed := by
      rcases hesc with ⟨b, hb, h⟩ | ⟨⟨b, hb, h⟩, -⟩
      · exact ⟨b, hb, Or.inl h⟩
      · exact ⟨b, hb, Or.inr h⟩
    exact ⟨b, List.map_subset _ hsub hb, hedge⟩

/-! ## A mixed verdict that is hidden -/

/-- A bundle with a status of its own and nothing else to show. -/
def plainBundle (status : Status) : Bundle where
  outcome := ⟨status, zeroConfidence, true, []⟩
  topEvidence := []
  claim := ⟨"claim", "", "", .voteCast, fun _ => none, none, .rules, none⟩
  timeScope := unknownScope
  checkability := .checkable

/-- A declaration with a claim for each bundle. -/
def plainDeclaration (bundles : List Bundle) : DeclarationDecompositionResult where
  declaration := ⟨"declaration", "", .he, .formalAction, .checkableFormalAction, []⟩
  claims := bundles.map (·.claim)
  decomposition := {}
  family := .formalAction
  checkability := .checkableFormalAction

/-- A mixed verdict alone is escalated; with a claim for which there is no evidence it is not. -/
theorem mixed_hidden :
    Escalated (fun _ => "edge") (plainDeclaration [plainBundle .mixed]) [plainBundle .mixed] .he ∧
      Triggered (fun _ => "edge")
        (plainDeclaration [plainBundle .mixed, plainBundle .insufficientEvidence])
        [plainBundle .mixed, plainBundle .insufficientEvidence] .he ∧
      ¬Escalated (fun _ => "edge")
        (plainDeclaration [plainBundle .mixed, plainBundle .insufficientEvidence])
        [plainBundle .mixed, plainBundle .insufficientEvidence] .he := by
  rw [escalated_iff, escalated_iff, triggered_iff]
  simp [paired, plainDeclaration, plainBundle, Bundle.Contested, Bundle.Mixed, Bundle.Unsettled]

/-! ## The table of review tasks -/

/-- The queue over a world with the table of review tasks. -/
def queueOn {W : Type} (stamp : TaskStamp) (task : NewTask) : Eff (W × ReviewTasks) Unit := fun s =>
  ((openReviewTask stamp task s.2).1, (s.1, (openReviewTask stamp task s.2).2))

/-- The table refuses a task for a declaration. -/
theorem openReviewTask_declaration {stamp : TaskStamp} {task : NewTask} {tasks : ReviewTasks}
    (h : task.kind = .declaration) : openReviewTask stamp task tasks = (.error .external, tasks) := by
  have hcheck : ¬(task.row stamp).Check := by
    rintro ⟨hkind, -⟩
    have hname : (task.row stamp).kind.name = "declaration" := congrArg TaskKind.name h
    rw [hname] at hkind
    revert hkind
    decide
  unfold openReviewTask
  rw [if_neg (not_not.2 (by rw [h]; decide)), Transact.Checked.insert_of_not_check hcheck]

/-- One new open task carries the declaration. -/
def Queued (declarationId : String) (before after : ReviewTasks) : Prop :=
  ∃! t, t ∈ after.rows ∧ t ∉ before.rows ∧ t.kind = .declaration ∧ t.status = .opened ∧
    t.payload.lookup "declaration_id" = some (.str declarationId)

/-- **No escalation of a declaration is queued.** A verification ends as it would without a queue,
whatever its overall relation, and no row has been added for it. -/
theorem declaration_never_queued {W : Type} (V : DeclarationVerifier (W × ReviewTasks))
    (stamp : TaskStamp) (uuid4 : ℕ → String) (d : DeclarationDecompositionResult)
    (language : Language) (s s' : W × ReviewTasks) (r : DeclarationVerificationResult)
    (hrun : { V with reviewConnection := some (queueOn stamp) }.verify uuid4 d language s =
      (.ok r, s')) :
    { V with reviewConnection := none }.verify uuid4 d language s = (.ok r, s') ∧
      ¬Queued d.declaration.declarationId s.2 s'.2 := by
  obtain ⟨bundles, s₁, hpipe, rfl⟩ :=
    (DeclarationVerifier.verify_ok_iff _ uuid4 d language s r).1 ⟨s', hrun⟩
  rw [DeclarationVerifier.verify_run hpipe] at hrun
  have hquiet : ∀ r' : DeclarationVerificationResult,
      ({ V with reviewConnection := some (queueOn stamp) } : DeclarationVerifier _).enqueue r' s₁ =
        (.ok (), s₁) := by
    intro r'
    unfold DeclarationVerifier.enqueue DeclarationVerifier.reviewTask
    by_cases ht : r'.overallRelation ∈ reviewTriggerRelations
    · rw [if_pos ht]
      dsimp only
      unfold Eff.orElse queueOn
      rw [openReviewTask_declaration rfl]
      rfl
    · rw [if_neg ht]
      rfl
  rw [hquiet] at hrun
  obtain rfl : s₁ = s' := congrArg Prod.snd hrun
  refine ⟨DeclarationVerifier.verify_run (V := { V with reviewConnection := none }) hpipe, ?_⟩
  rintro ⟨t, ⟨ht, -, hkind, -⟩, -⟩
  have hcheck := (s₁.2.checked t ht).1
  rw [hkind] at hcheck
  revert hcheck
  decide

/-- A verifier that is handed a contradicted verdict. -/
def contradictedVerifier : DeclarationVerifier (Unit × ReviewTasks) where
  pipeline _ _ := pure [plainBundle .contradicted]

/-- The stamp of a task. -/
def plainStamp : TaskStamp := ⟨1, ⟨List.replicate 32 '0', by decide⟩, "2026-05-04T00:00:00+00:00"⟩

/-- A contradicted declaration is escalated, and the queue stays empty. -/
theorem contradicted_not_queued :
    ∃ r s', { contradictedVerifier with reviewConnection := some (queueOn plainStamp) }.verify
        (fun _ => "edge") (plainDeclaration [plainBundle .contradicted]) .he
        ((), Transact.Checked.empty) = (.ok r, s') ∧
      r.overallRelation ∈ reviewTriggerRelations ∧ s'.2.rows = [] ∧
      ¬Queued "declaration" Transact.Checked.empty s'.2 := by
  refine ⟨_, _, rfl, by decide, rfl, ?_⟩
  rintro ⟨t, ⟨ht, -⟩, -⟩
  cases ht

theorem declaration_never_queued_contradicted :
    ∃ r s', r.overallRelation ∈ reviewTriggerRelations ∧
      { contradictedVerifier with reviewConnection := none }.verify (fun _ => "edge")
        (plainDeclaration [plainBundle .contradicted]) .he ((), Transact.Checked.empty) = (.ok r, s') ∧
      ¬Queued "declaration" Transact.Checked.empty s'.2 := by
  refine ⟨_, _, ?_, declaration_never_queued contradictedVerifier plainStamp (fun _ => "edge")
    (plainDeclaration [plainBundle .contradicted]) .he ((), Transact.Checked.empty) _ _ rfl⟩
  decide

end CivicProof
