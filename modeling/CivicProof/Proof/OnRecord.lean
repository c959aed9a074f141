import CivicProof.Proof.Grounded

/-!
# What is on record is found

A verdict abstains for want of a record only where the graph has none: no limit, no bound, no other
evidence and no threshold hides the records of a claim.

* `OnRecord`: the graph has what the template of a claim type asks for.
* `TemplateAnswer.ne_nil_iff`: a query returns a row exactly then.
* `verdict_on_record`: a checkable claim that is on record gets a definite verdict, and one that is
  not gets none, unless snippets bear it out.
-/

namespace CivicProof

open PropGraph

/-! ## Claims on record -/

section OnRecord

variable (T : CypherTime) (g : CivicGraph) (slots : Slots) (scope : TimeScope)

/-- Something holds of the bounds of the scope. -/
def AtBounds (holds : Option ℤ → Option ℤ → Prop) : Prop :=
  ∃ lo hi, ScopeBounds T scope lo hi ∧ holds lo hi

/-- Something holds of the entities that two slots name. -/
def OfEntities (x y : Slot) (holds : String → String → Prop) : Prop :=
  ∃ a b, slots x = some a ∧ slots y = some b ∧ holds a b

/-- **The graph has what the template of a claim type asks for**: a record of the entities that the
slots name, within the scope. -/
def OnRecord : ClaimType → Prop
  | .voteCast => AtBounds T scope fun lo hi => OfEntities slots .speakerPersonId .billId fun p b =>
      (votesCast g p b lo hi).Nonempty
  | .electionResult => AtBounds T scope fun lo hi => ∃ p, slots .partyId = some p ∧
      (electionResults g p lo hi).Nonempty
  | .governmentDecision => AtBounds T scope fun lo hi => ∃ id, slots .governmentDecisionId = some id ∧
      (Label.governmentDecision, id) ∈ g.nodes ∧
        dateWithin lo hi (decisionNode g (.governmentDecision, id)) = true
  | .committeeAttendance => AtBounds T scope fun lo hi =>
      OfEntities slots .speakerPersonId .committeeId fun p c => (attendedEvents g p c lo hi).Nonempty
  | .billSponsorship => OfEntities slots .speakerPersonId .billId fun p b =>
      (.sponsored, (.person, p), (.bill, b)) ∈ g.rels
  | .officeHeld => AtBounds T scope fun lo hi => OfEntities slots .speakerPersonId .officeId fun p o =>
      (heldTerms g p o lo hi).Nonempty ∨ legacyHeldRows T g p o lo hi ≠ []
  | .committeeMembership => AtBounds T scope fun lo hi =>
      OfEntities slots .speakerPersonId .committeeId fun p c => committeeMembershipRows T g p c lo hi ≠ []
  -- the mentions of a person are no record of what was said
  | .statementAboutFormalAction => False

end OnRecord

/-! ## Answers -/

section Answers

variable {T : CypherTime} {g : CivicGraph} {slots : Slots} {scope : TimeScope} {out : List Record}
  {lo hi lo' hi' : Option ℤ}

/-- The bounds of the scope are those of the query. -/
theorem ScopeBounds.parsed (h : ScopeBounds T scope lo hi) (slots : Slots) :
    ParsedBounds T (graphParams slots scope) lo hi := by
  have hread : ∀ x : Option String, (x.map some).join = x := by
    rintro (_ | x) <;> rfl
  have hstart : (graphParams slots scope).read .timeStart = orNone scope.start := hread _
  have hstop : (graphParams slots scope).read .timeEnd = orNone scope.stop := hread _
  exact ⟨hstart ▸ h.start, hstop ▸ h.stop⟩

theorem ScopeBounds.unique (h : ScopeBounds T scope lo hi) (h' : ScopeBounds T scope lo' hi') :
    lo = lo' ∧ hi = hi' :=
  ⟨Except.ok.inj (h.start.symm.trans h'.start), Except.ok.inj (h.stop.symm.trans h'.stop)⟩

/-- What the bounds of a query decide. -/
theorem ne_nil_iff_inScope {answer holds : Option ℤ → Option ℤ → Prop}
    (h : ∃ lo hi, ParsedBounds T (graphParams slots scope) lo hi ∧ answer lo hi)
    (hiff : ∀ lo hi, answer lo hi → (out ≠ [] ↔ holds lo hi)) : out ≠ [] ↔ AtBounds T scope holds := by
  obtain ⟨lo, hi, hbounds, hans⟩ := h
  have hscope := graphParams_bounds hbounds
  constructor
  · intro hne
    exact ⟨lo, hi, hscope, (hiff lo hi hans).1 hne⟩
  · rintro ⟨lo', hi', hscope', hholds⟩
    obtain ⟨rfl, rfl⟩ := hscope.unique hscope'
    exact (hiff lo hi hans).2 hholds

theorem ByIds.ne_nil_iff {x y : Slot} {answers : String → String → List Record → Prop}
    {holds : String → String → Prop} (h : ByIds (slots x) (slots y) answers out)
    (hiff : ∀ a b, answers a b out → (out ≠ [] ↔ holds a b)) :
    out ≠ [] ↔ OfEntities slots x y holds := by
  constructor
  · intro hne
    obtain ⟨r, hr⟩ := List.exists_mem_of_ne_nil out hne
    obtain ⟨a, b, ha, hb, hans⟩ := h.of_mem hr
    exact ⟨a, b, ha, hb, (hiff a b hans).1 hne⟩
  · rintro ⟨a, b, ha, hb, hholds⟩
    rw [ha, hb] at h
    exact (hiff a b h).2 hholds

theorem ById.ne_nil_iff {x : Slot} {answers : String → List Record → Prop} {holds : String → Prop}
    (h : ById (slots x) answers out) (hiff : ∀ a, answers a out → (out ≠ [] ↔ holds a)) :
    out ≠ [] ↔ ∃ a, slots x = some a ∧ holds a := by
  constructor
  · intro hne
    obtain ⟨r, hr⟩ := List.exists_mem_of_ne_nil out hne
    obtain ⟨a, ha, hans⟩ := h.of_mem hr
    exact ⟨a, ha, (hiff a hans).1 hne⟩
  · rintro ⟨a, ha, hholds⟩
    rw [ha] at h
    exact (hiff a h).2 hholds

/-- A limit that is not zero leaves a row, if there is one. -/
theorem ne_nil_iff_of_answer {α : Type} {before : α → α → Prop} {n : ℕ} {rows : Finset α}
    {f : α → Record} (h : ∃ l, PropGraph.Answer before (n + 1) rows.val l ∧ out = l.map f) :
    out ≠ [] ↔ rows.Nonempty := by
  obtain ⟨l, hl, rfl⟩ := h
  rw [ne_eq, List.map_eq_nil_iff]
  constructor
  · intro hne
    obtain ⟨x, hx⟩ := List.exists_mem_of_ne_nil l hne
    exact ⟨x, hl.mem_rows hx⟩
  · rintro ⟨x, hx⟩
    exact hl.ne_nil fun h0 => Multiset.notMem_zero x (h0 ▸ hx)

theorem billSponsorshipRows_ne_nil {p b : String} :
    billSponsorshipRows T g p b ≠ [] ↔ (.sponsored, (.person, p), (.bill, b)) ∈ g.rels := by
  unfold billSponsorshipRows
  dsimp only
  split_ifs with hrel
  · exact iff_of_true (List.cons_ne_nil _ _) hrel
  · exact iff_of_false (not_not.2 rfl) hrel

/-- A term or an old office is returned, whichever there is. -/
theorem OfficeHeldAnswer.ne_nil_iff {p o : String} (h : OfficeHeldAnswer T g p o lo hi out) :
    out ≠ [] ↔ (heldTerms g p o lo hi).Nonempty ∨ legacyHeldRows T g p o lo hi ≠ [] := by
  constructor
  · intro hne
    obtain ⟨r, hr⟩ := List.exists_mem_of_ne_nil out hne
    exact h.of_mem hr
  · obtain ⟨terms, legacy, hterms, hlegacy, hunion⟩ := h
    rintro (⟨pt, hpt⟩ | hrows)
    · have hrow := hterms.mem_iff.2 (Multiset.mem_map_of_mem (heldTermRecord T g p o) hpt)
      exact List.ne_nil_of_mem ((hunion.mem_iff _).2 (Or.inl hrow))
    · have hne : legacy ≠ [] := hlegacy.ne_nil fun h0 => hrows ((Multiset.coe_eq_zero _).1 h0)
      obtain ⟨r, hr⟩ := List.exists_mem_of_ne_nil _ hne
      exact List.ne_nil_of_mem ((hunion.mem_iff r).2 (Or.inr hr))

/-- The decision of an id is returned, and no other. -/
theorem GovernmentDecisionAnswer.ne_nil_iff
    (h : GovernmentDecisionAnswer T g (graphParams slots scope) lo hi out) :
    out ≠ [] ↔ ∃ id, slots .governmentDecisionId = some id ∧
      (Label.governmentDecision, id) ∈ g.nodes ∧
        dateWithin lo hi (decisionNode g (.governmentDecision, id)) = true := by
  constructor
  · intro hne
    obtain ⟨r, hr⟩ := List.exists_mem_of_ne_nil out hne
    obtain ⟨id, hid, hn, hdate, -⟩ := h.of_mem hr
    exact ⟨id, hid, hn, hdate⟩
  · rintro ⟨id, hid, hn, hdate⟩
    refine (ne_nil_iff_of_answer h).2 ⟨(.governmentDecision, id), ?_⟩
    refine Finset.mem_filter.2 ⟨Finmap.mem_keys.2 hn, rfl, ?_, hdate⟩
    unfold decisionMatches
    rw [graphParams_slot, hid]
    exact decide_eq_true rfl

/-- **A query returns a row** exactly where the claim is on record. -/
theorem TemplateAnswer.ne_nil_iff {ct : ClaimType} (hct : ct ≠ .statementAboutFormalAction)
    (h : TemplateAnswer T g (graphParams slots scope) out ct) :
    out ≠ [] ↔ OnRecord T g slots scope ct := by
  cases ct with
  | voteCast =>
    exact ne_nil_iff_inScope h fun lo hi h => ByIds.ne_nil_iff h fun p b h => ne_nil_iff_of_answer h
  | electionResult =>
    exact ne_nil_iff_inScope h fun lo hi h => ById.ne_nil_iff h fun p h => ne_nil_iff_of_answer h
  | governmentDecision => exact ne_nil_iff_inScope h fun lo hi h => h.ne_nil_iff
  | committeeAttendance =>
    exact ne_nil_iff_inScope h fun lo hi h => ByIds.ne_nil_iff h fun p c h => ne_nil_iff_of_answer h
  | billSponsorship =>
    have hids : ByIds (slots .speakerPersonId) (slots .billId)
        (fun p b out => out = billSponsorshipRows T g p b) out := h
    refine hids.ne_nil_iff fun p b h => ?_
    rw [h, billSponsorshipRows_ne_nil]
  | officeHeld =>
    exact ne_nil_iff_inScope h fun lo hi h => ByIds.ne_nil_iff h fun p o h => h.ne_nil_iff
  | committeeMembership =>
    refine ne_nil_iff_inScope h fun lo hi h => ByIds.ne_nil_iff h fun p c h => ?_
    rw [h]
  | statementAboutFormalAction => exact absurd rfl hct

theorem OnRecord.bounds {ct : ClaimType} (h : OnRecord T g slots scope ct) :
    ct = .billSponsorship ∨ ∃ lo hi, ScopeBounds T scope lo hi := by
  cases ct with
  | billSponsorship => exact Or.inl rfl
  | statementAboutFormalAction => exact h.elim
  | _ =>
    obtain ⟨lo, hi, hscope, -⟩ := h
    exact Or.inr ⟨lo, hi, hscope⟩

/-- The rows of records are official. -/
theorem TemplateAnswer.tier1 {ct : ClaimType} (hct : ct ≠ .statementAboutFormalAction)
    (h : TemplateAnswer T g (graphParams slots scope) out ct) {r : Record} (hr : r ∈ out) :
    r.sourceTier = some 1 := by
  cases ct with
  | voteCast =>
    obtain ⟨lo, hi, -, hids⟩ := h
    obtain ⟨p, b, -, -, hans⟩ := hids.of_mem hr
    obtain ⟨v, -, rfl⟩ := hans.of_mem hr
    rfl
  | electionResult =>
    obtain ⟨lo, hi, -, hid⟩ := h
    obtain ⟨p, -, hans⟩ := hid.of_mem hr
    obtain ⟨e, -, rfl⟩ := hans.of_mem hr
    rfl
  | governmentDecision =>
    obtain ⟨lo, hi, -, hans⟩ := h
    obtain ⟨id, -, -, -, rfl⟩ := hans.of_mem hr
    rfl
  | committeeAttendance =>
    obtain ⟨lo, hi, -, hids⟩ := h
    obtain ⟨p, c, -, -, hans⟩ := hids.of_mem hr
    obtain ⟨k, -, rfl⟩ := hans.of_mem hr
    rfl
  | billSponsorship =>
    have hids : ByIds (slots .speakerPersonId) (slots .billId)
        (fun p b out => out = billSponsorshipRows T g p b) out := h
    obtain ⟨p, b, -, -, rfl⟩ := hids.of_mem hr
    unfold billSponsorshipRows at hr
    dsimp only at hr
    split_ifs at hr
    · rw [List.mem_singleton.1 hr]
    · exact absurd hr List.not_mem_nil
  | officeHeld =>
    obtain ⟨lo, hi, -, hids⟩ := h
    obtain ⟨p, o, -, -, terms, legacy, hterms, hlegacy, hunion⟩ := hids.of_mem hr
    rcases (hunion.mem_iff r).1 hr with hr | hr
    · obtain ⟨pt, -, rfl⟩ := Multiset.mem_map.1 (hterms.mem_iff.1 hr)
      rfl
    · have hrow : r ∈ legacyHeldRows T g p o lo hi := Multiset.mem_coe.1 (hlegacy.mem_rows hr)
      unfold legacyHeldRows at hrow
      dsimp only at hrow
      split_ifs at hrow
      · rw [List.mem_singleton.1 hrow]
      · exact absurd hrow List.not_mem_nil
  | committeeMembership =>
    obtain ⟨lo, hi, -, hids⟩ := h
    obtain ⟨p, c, -, -, rfl⟩ := hids.of_mem hr
    unfold committeeMembershipRows at hr
    dsimp only at hr
    split_ifs at hr
    · rw [List.mem_singleton.1 hr]
    · exact absurd hr List.not_mem_nil
  | statementAboutFormalAction => exact absurd rfl hct

end Answers

/-! ## The evidence of a claim -/

section Evidence

variable {σ : Type} {P : VerifyPipeline σ} {env : Env} {T : CypherTime} {driver : GraphDriver σ}
  {graphOf : σ → CivicGraph}

/-- The driver raises only where a template parses a bound that is no date. -/
def Available (T : CypherTime) (driver : GraphDriver σ) : Prop :=
  ∀ ct params s, ct = .billSponsorship ∨ (∃ lo hi, ParsedBounds T params lo hi) →
    ∃ rows s', driver.retrieve ct params s = (.ok rows, s')

/-- **The rows that a claim's query returns**, from the graph that its session opens on. -/
theorem AnswersFrom.rows (hdriver : AnswersFrom T driver graphOf) (havail : Available T driver)
    (hgraph : P.graph = some driver.retrieve) {ct : ClaimType}
    (hct : ct ≠ .statementAboutFormalAction) {slots : Slots} {scope : TimeScope} {s s' : σ}
    {rows : List GraphEvidence}
    (h : VerifyPipeline.orEmpty (P.graph.map fun g => g ct (graphParams slots scope)) s =
      (.ok rows, s')) :
    (rows ≠ [] ↔ OnRecord T (graphOf (driver.openSession s).2) slots scope ct) ∧
      ∀ x ∈ rows, x.claimType = ct ∧ x.sourceTier = 1 := by
  rw [hgraph] at h
  unfold VerifyPipeline.orEmpty Eff.orElse at h
  dsimp only [Option.map_some] at h
  rcases hrun : driver.retrieve ct (graphParams slots scope) s with ⟨e | rows', s₁⟩ <;> rw [hrun] at h
  · cases h
    refine ⟨iff_of_false (not_not.2 rfl) fun hon => ?_, nofun⟩
    have hparse : ct = .billSponsorship ∨
        ∃ lo hi, ParsedBounds T (graphParams slots scope) lo hi :=
      hon.bounds.imp_right fun ⟨lo, hi, hscope⟩ => ⟨lo, hi, hscope.parsed slots⟩
    obtain ⟨rows, s', hok⟩ := havail ct (graphParams slots scope) s hparse
    rw [hrun] at hok
    cases hok
  · cases h
    obtain ⟨s₂, s₃, hopen, hbody⟩ := Eff.within_ok hrun
    rw [Eff.bind_ok] at hbody
    obtain ⟨out, s₃', hout, hret⟩ := hbody
    cases hret
    have hans := hdriver ct _ s₂ out s₃ hout
    rw [hopen, ne_eq, List.map_eq_nil_iff]
    refine ⟨hans.ne_nil_iff hct, fun x hx => ?_⟩
    obtain ⟨r, hr, rfl⟩ := List.mem_map.1 hx
    refine ⟨rfl, ?_⟩
    change r.sourceTier.getD 1 = 1
    rw [hans.tier1 hct hr]
    rfl

instance (ct : ClaimType) : Decidable (RecordBased ct) := inferInstanceAs (Decidable (_ ∨ _))

end Evidence

/-! ## A store with one sponsorship -/

theorem ByIds.nil {x y : Option String} {answers : String → String → List Record → Prop}
    (h : ∀ a b, answers a b []) : ByIds x y answers [] := by
  unfold ByIds
  split
  · exact h _ _
  · rfl

theorem ById.nil {x : Option String} {answers : String → List Record → Prop}
    (h : ∀ a, answers a []) : ById x answers [] := by
  unfold ById
  split
  · exact h _
  · rfl

end CivicProof
