import CivicProof.Proof.Membership

/-!
# Office terms

Each position row has a `PositionTerm` node of its own, which two relationships tie to its
person and its office.

* `heldTerms_ingest`: the terms `office_held` finds are those of the matching rows.
* `office_terms`: it returns one row for each of them and none from its legacy branch, and for
  one day the terms of `resolve_position_terms`.
-/

namespace CivicProof

open PropGraph Cypher TimeSpan

/-! ## The two queries -/

/-- The term a row of `office_held` names. -/
def namedTerm (r : Record) : Option Value := (r.nodeIds.getD ∅).lookup "position_term_id"

section Queries

variable {T : CypherTime} {g : CivicGraph} {personId officeId : String} {lo hi : Option ℤ}

theorem namedTerm_heldTermRecord (pt : NodeKey) :
    namedTerm (heldTermRecord T g personId officeId pt) = some (.str pt.2) := rfl

theorem mem_heldTerms {pt : NodeKey} :
    pt ∈ heldTerms g personId officeId lo hi ↔ TermPath g personId officeId pt ∧
      overlapsScope lo hi (g.nodeProp pt .validFrom) (g.nodeProp pt .validTo) = true := by
  unfold heldTerms
  rw [Finset.mem_filter, Finmap.mem_keys]
  exact and_iff_right_of_imp fun h => (g.endpoints _ h.1.2.1).2

/-- The legacy branch is empty as soon as the person has a term of the office. -/
theorem legacyHeldRows_eq_nil
    (h : (.heldOffice, (.person, personId), (.office, officeId)) ∈ g.rels →
      ∃ pt, TermPath g personId officeId pt) :
    legacyHeldRows T g personId officeId lo hi = [] := by
  unfold legacyHeldRows
  refine if_neg fun hc => ?_
  obtain ⟨pt, hpt⟩ := h hc.1
  exact hc.2.2 pt (Finmap.mem_keys.2 (g.endpoints _ hpt.2.1).2) hpt

theorem heldTerms_label {pt : NodeKey} (h : pt ∈ heldTerms g personId officeId lo hi) :
    pt.1 = .positionTerm := (mem_heldTerms.1 h).1.1

/-- Each term has a row of its own. -/
theorem heldTermRecords_nodup :
    ((heldTerms g personId officeId lo hi).val.map
      (heldTermRecord T g personId officeId)).Nodup := by
  refine Multiset.Nodup.map_on (fun x hx y hy hxy => ?_) (Finset.nodup _)
  have hterm := congrArg namedTerm hxy
  rw [namedTerm_heldTermRecord, namedTerm_heldTermRecord] at hterm
  refine Prod.ext ((heldTerms_label hx).trans (heldTerms_label hy).symm) ?_
  exact Value.str.inj (Option.some.inj hterm)

/-- **Without legacy rows** the template returns the rows of the terms, each once. -/
theorem officeHeldAnswer_iff (hlegacy : legacyHeldRows T g personId officeId lo hi = [])
    {out : List Record} :
    OfficeHeldAnswer T g personId officeId lo hi out ↔
      (out : Multiset Record) = (heldTerms g personId officeId lo hi).val.map
        (heldTermRecord T g personId officeId) := by
  constructor
  · rintro ⟨terms, legacy, hterms, hleg, hunion⟩
    rw [hlegacy] at hleg
    have hnil : legacy = [] := hleg.eq_nil
    have hnodup : terms.Nodup := by
      rw [← Multiset.coe_nodup, hterms.rows]
      exact heldTermRecords_nodup
    rw [← hterms.rows]
    refine Multiset.coe_eq_coe.2 ((List.perm_ext_iff_of_nodup hunion.nodup hnodup).2 fun x => ?_)
    rw [hunion.mem_iff, hnil]
    exact or_iff_left List.not_mem_nil
  · intro h
    have hnodup : out.Nodup := by
      rw [← Multiset.coe_nodup, h]
      exact heldTermRecords_nodup
    refine ⟨out, [], ⟨h, List.pairwise_of_forall fun _ _ => trivial⟩, ⟨[], ⟨?_, .nil⟩, rfl⟩,
      ⟨hnodup, fun x => (or_iff_left List.not_mem_nil).symm⟩⟩
    rw [hlegacy]

/-- **On one day** the resolver's query finds the same terms. -/
theorem resolvedTerms_eq (d : ℤ) :
    (resolvedTerms g personId (some officeId) (some d)).val =
      (heldTerms g personId officeId (some d) (some d)).val.map
        fun pt => (pt, (Label.office, officeId)) := by
  refine (Multiset.Nodup.ext (Finset.nodup _) ?_).2 fun e => ?_
  · exact Multiset.Nodup.map (fun x y hxy => congrArg Prod.fst hxy) (Finset.nodup _)
  rw [Finset.mem_val, Multiset.mem_map]
  unfold resolvedTerms
  rw [Finset.mem_filter, Finset.mem_product, Finmap.mem_keys, Finmap.mem_keys]
  constructor
  · rintro ⟨-, hlabel, hpath, hoffice, hdate⟩
    obtain ⟨pt, l, x⟩ := e
    obtain rfl : l = .office := hlabel
    obtain rfl : x = officeId := of_decide_eq_true hoffice
    refine ⟨pt, mem_heldTerms.2 ⟨hpath, ?_⟩, rfl⟩
    rw [overlapsScope, Bool.and_comm]
    exact hdate
  · rintro ⟨pt, hpt, rfl⟩
    obtain ⟨hpath, hdate⟩ := mem_heldTerms.1 hpt
    rw [overlapsScope, Bool.and_comm] at hdate
    exact ⟨g.endpoints _ hpath.2.2, rfl, hpath, decide_eq_true rfl, hdate⟩

end Queries

/-! ## Position rows -/

/-- The records of some position rows. -/
def positionRecords (E : IngestEnv) (u : List PositionRow) : List IngestRecord :=
  (u.flatMap (normalizePosition E)).map .position

namespace PositionRow

variable (E : IngestEnv)

/-- The interval of a row, when its dates are dates and in order. -/
def interval (T : CypherTime) (row : PositionRow) : Option (Span ℤ) :=
  (orNone row.startDate).bind fun start => rowSpan T start row.finishDate

/-- The person of a row. -/
def personId (row : PositionRow) : String := extUuid E "knesset_person" row.personIdExternal

/-- The office of a row, if it has one. -/
def officeId (row : PositionRow) : Option String :=
  row.positionId.map fun p => officeIdOf E p row.govMinistryId

/-- The `PositionTerm` of a row. -/
def termNode (row : PositionRow) : NodeKey :=
  (.positionTerm, extUuid E "knesset_position_term" row.personToPositionIdExternal)

/-- The relationships of a row with an office. -/
def officeLinks (row : PositionRow) (officeId : String) : List RelKey :=
  [(.heldOffice, (.person, row.personId E), (.office, officeId)),
    (.hasPositionTerm, (.person, row.personId E), row.termNode E),
    (.aboutOffice, row.termNode E, (.office, officeId))]

end PositionRow

section Ingest

variable {T : CypherTime} {E : IngestEnv} {iso : String} {u : List PositionRow}

theorem positionRecords_normalized : ∀ r ∈ positionRecords E u, r.Normalized E := by
  intro r hr
  obtain ⟨b, hb, rfl⟩ := List.mem_map.1 hr
  obtain ⟨row, -, hb⟩ := List.mem_flatMap.1 hb
  exact ⟨row, hb⟩

theorem mem_positionStatements {s : CivicStmt} :
    s ∈ ingestStatements T iso (positionRecords E u) ↔
      ∃ row ∈ u, ∃ b ∈ normalizePosition E row, s ∈ upsertPosition T b := by
  unfold ingestStatements positionRecords
  rw [List.mem_flatMap]
  constructor
  · rintro ⟨r, hr, hs⟩
    obtain ⟨b, hb, rfl⟩ := List.mem_map.1 hr
    obtain ⟨row, hrow, hb⟩ := List.mem_flatMap.1 hb
    exact ⟨row, hrow, b, hb, hs⟩
  · rintro ⟨row, hrow, b, hb, hs⟩
    exact ⟨.position b, List.mem_map_of_mem (List.mem_flatMap.2 ⟨row, hrow, hb⟩), hs⟩

/-- A row with a start and a position has a bundle with an office and a term. -/
theorem exists_bundle {row : PositionRow} {start : String} (h : orNone row.startDate = some start)
    {p : ℤ} (hp : row.positionId = some p) :
    ∃ b ∈ normalizePosition E row, b.personId = row.personId E ∧
      b.office = some (officeLane E row p start) ∧ b.positionTerm = some (termLane E row p start) := by
  unfold normalizePosition
  rw [h]
  dsimp only
  rw [if_neg (fun hc => by simp [hp] at hc)]
  exact ⟨_, List.mem_singleton_self _, rfl, by rw [hp]; rfl, by rw [hp]; rfl⟩

theorem interval_eq_some {row : PositionRow} {i : Span ℤ} (h : row.interval T = some i) :
    ∃ start, orNone row.startDate = some start ∧ rowSpan T start row.finishDate = some i :=
  Option.bind_eq_some_iff.1 h

/-- The relationships that a row merges, its party's apart. -/
theorem links_upsertPosition {row : PositionRow} {b : NormalizedPositionBundle}
    (hb : b ∈ normalizePosition E row) {s : CivicStmt} (hs : s ∈ upsertPosition T b) {k : RelKey}
    (hk : s.Links k) (hparty : k.1 ≠ .memberOf) :
    ∃ o, row.officeId E = some o ∧ k ∈ row.officeLinks E o := by
  obtain ⟨start, -, rfl⟩ := mem_normalizePosition hb
  rcases mem_upsertPosition.1 hs with rfl | ⟨p, -, hs⟩ | ⟨o, ho, hs⟩ | ⟨pt, hpt, hs⟩
  · exact hk.elim
  · obtain rfl | rfl := hs
    · exact hk.elim
    · obtain ⟨-, rfl⟩ := hk
      exact absurd rfl hparty
  · obtain ⟨p, hp, rfl⟩ := Option.map_eq_some_iff.1 ho
    have hoffice : row.officeId E = some (officeIdOf E p row.govMinistryId) :=
      Option.map_eq_some_iff.2 ⟨p, hp, rfl⟩
    obtain rfl | rfl := hs
    · exact hk.elim
    · obtain ⟨-, rfl⟩ := hk
      exact ⟨_, hoffice, List.mem_cons_self⟩
  · obtain ⟨p, hp, rfl⟩ := Option.map_eq_some_iff.1 hpt
    have hoffice : row.officeId E = some (officeIdOf E p row.govMinistryId) :=
      Option.map_eq_some_iff.2 ⟨p, hp, rfl⟩
    obtain rfl | rfl | rfl := hs
    · exact hk.elim
    · obtain ⟨-, rfl⟩ := hk
      exact ⟨_, hoffice, List.mem_cons_of_mem _ List.mem_cons_self⟩
    · obtain ⟨-, rfl⟩ := hk
      exact ⟨_, hoffice, List.mem_cons_of_mem _ (List.mem_cons_of_mem _ List.mem_cons_self)⟩

theorem exists_links {row : PositionRow} {start : String} (h : orNone row.startDate = some start)
    {o : String} (ho : row.officeId E = some o) {k : RelKey} (hk : k ∈ row.officeLinks E o) :
    ∃ b ∈ normalizePosition E row, ∃ s ∈ upsertPosition T b, s.Links k := by
  obtain ⟨p, hp, rfl⟩ := Option.map_eq_some_iff.1 ho
  obtain ⟨b, hb, hperson, hoffice, hterm⟩ := exists_bundle (E := E) h hp
  refine ⟨b, hb, ?_⟩
  simp only [PositionRow.officeLinks, List.mem_cons, List.not_mem_nil, or_false] at hk
  rw [← hperson] at hk
  obtain rfl | rfl | rfl := hk
  · exact ⟨_, mem_upsertPosition.2 (Or.inr (Or.inr (Or.inl ⟨_, hoffice, Or.inr rfl⟩))),
      rfl, rfl⟩
  · exact ⟨_, mem_upsertPosition.2 (Or.inr (Or.inr (Or.inr ⟨_, hterm, Or.inr (Or.inl rfl)⟩))),
      rfl, rfl⟩
  · exact ⟨_, mem_upsertPosition.2 (Or.inr (Or.inr (Or.inr ⟨_, hterm, Or.inr (Or.inr rfl)⟩))),
      rfl, rfl⟩

/-- What a row writes to the times of its term. -/
def termTime (i : Span ℤ) : Field → Option Datum
  | .validFrom => some (.instant i.start)
  | .validTo => i.stop.map .instant
  | _ => none

theorem positionTermUpsert_nodeWrite {x : String} {p o a : Option String} {start : String}
    {stop : Option String} {acting : Option Bool} {d : Option String} {i : Span ℤ}
    (h : rowSpan T start stop = some i) {f : Field} (hf : f = .validFrom ∨ f = .validTo) :
    (positionTermUpsert T x p o a (some start) stop acting d).nodeWrite (.positionTerm, x) f =
      .keep (termTime i f) := by
  obtain ⟨hstart, hstop⟩ := moment_stop h
  unfold positionTermUpsert Stmt.nodeWrite
  rw [moment_some, hstart, hstop]
  rcases hf with rfl | rfl
  · exact if_pos rfl
  · exact if_pos rfl

/-- A statement of a row writes the row's times to its term, and nothing to another. -/
theorem nodeWrite_upsertPosition {row : PositionRow} {i : Span ℤ} (hi : row.interval T = some i)
    {b : NormalizedPositionBundle} (hb : b ∈ normalizePosition E row) {s : CivicStmt}
    (hs : s ∈ upsertPosition T b) {n : NodeKey} (hn : n.1 = .positionTerm) {f : Field}
    (hf : f = .validFrom ∨ f = .validTo) :
    s.nodeWrite n f = .keep none ∨
      (row.termNode E = n ∧ s.nodeWrite n f = .keep (termTime i f)) := by
  obtain ⟨start, hstart, rfl⟩ := mem_normalizePosition hb
  obtain ⟨start', hstart', hspan⟩ := interval_eq_some hi
  obtain rfl : start' = start := Option.some.inj (hstart'.symm.trans hstart)
  have hother : (s.Merges n → False) → s.nodeWrite n f = .keep none := fun h =>
    Stmt.nodeWrite_of_not_merges h f
  have hlabel : ∀ {m : NodeKey}, m.1 ≠ .positionTerm → m ≠ n := fun hm he => hm (he ▸ hn)
  rcases mem_upsertPosition.1 hs with rfl | ⟨p, -, hs⟩ | ⟨o, -, hs⟩ | ⟨pt, hpt, hs⟩
  · exact Or.inl (hother (hlabel nofun))
  · obtain rfl | rfl := hs
    · exact Or.inl (hother (hlabel nofun))
    · exact Or.inl (hother id)
  · obtain rfl | rfl := hs
    · exact Or.inl (hother (hlabel nofun))
    · exact Or.inl (hother id)
  · obtain ⟨p, hp, rfl⟩ := Option.map_eq_some_iff.1 hpt
    obtain rfl | rfl | rfl := hs
    · by_cases hterm : row.termNode E = n
      · refine Or.inr ⟨hterm, ?_⟩
        rw [← hterm]
        exact positionTermUpsert_nodeWrite hspan hf
      · exact Or.inl (hother hterm)
    · exact Or.inl (hother id)
    · exact Or.inl (hother id)

/-- And a row with an office does write them. -/
theorem exists_nodeWrite {row : PositionRow} {i : Span ℤ} (hi : row.interval T = some i)
    {o : String} (ho : row.officeId E = some o) {f : Field} (hf : f = .validFrom ∨ f = .validTo) :
    ∃ b ∈ normalizePosition E row, ∃ s ∈ upsertPosition T b,
      s.nodeWrite (row.termNode E) f = .keep (termTime i f) := by
  obtain ⟨start, hstart, hspan⟩ := interval_eq_some hi
  obtain ⟨p, hp, -⟩ := Option.map_eq_some_iff.1 ho
  obtain ⟨b, hb, -, -, hterm⟩ := exists_bundle (E := E) hstart hp
  exact ⟨b, hb, _, mem_upsertPosition.2 (Or.inr (Or.inr (Or.inr ⟨_, hterm, Or.inl rfl⟩))),
    positionTermUpsert_nodeWrite hspan hf⟩

theorem upsertPosition_accepted {row : PositionRow} {i : Span ℤ} (hi : row.interval T = some i)
    {b : NormalizedPositionBundle} (hb : b ∈ normalizePosition E row) {s : CivicStmt}
    (hs : s ∈ upsertPosition T b) : s.refused = false := by
  obtain ⟨start, hstart, rfl⟩ := mem_normalizePosition hb
  obtain ⟨start', hstart', hspan⟩ := interval_eq_some hi
  obtain rfl : start' = start := Option.some.inj (hstart'.symm.trans hstart)
  have hmerge : rowSpan T start' row.finishDate ≠ none := hspan ▸ Option.some_ne_none i
  rcases mem_upsertPosition.1 hs with rfl | ⟨p, hp, hs⟩ | ⟨o, ho, hs⟩ | ⟨pt, hpt, hs⟩
  · rfl
  · obtain ⟨faction, -, rfl⟩ := Option.map_eq_some_iff.1 hp
    obtain rfl | rfl := hs
    · rfl
    · exact spanMerge_accepted hmerge
  · obtain ⟨p, -, rfl⟩ := Option.map_eq_some_iff.1 ho
    obtain rfl | rfl := hs
    · rfl
    · exact spanMerge_accepted hmerge
  · obtain ⟨p, -, rfl⟩ := Option.map_eq_some_iff.1 hpt
    obtain ⟨hfrom, hto⟩ := moment_stop hspan
    obtain rfl | rfl | rfl := hs
    · unfold positionTermUpsert termLane
      dsimp only
      rw [moment_some, hfrom, hto]
      rfl
    · rfl
    · rfl

theorem termNode_injective (hE : Function.Injective E.uuid5) {a b : PositionRow}
    (h : a.termNode E = b.termNode E) :
    a.personToPositionIdExternal = b.personToPositionIdExternal := by
  have huuid := hE (congrArg Prod.snd h)
  exact String.append_right_inj _ |>.1 huuid

/-! ## What a run of them leaves -/

section Run

variable (hdates : ∀ row ∈ u, ∃ i, row.interval T = some i) (now : ℕ → ℤ)

include hdates

theorem run_positions :
    Effect (ingestStatements T iso (positionRecords E u)) ∅
      (run now (ingestStatements T iso (positionRecords E u)) (∅ : CivicGraph)) := by
  have hself : SelfContained (ingestStatements T iso (positionRecords E u)) :=
    ingestStatements_selfContained positionRecords_normalized iso
  have hok : ∀ s ∈ ingestStatements T iso (positionRecords E u), s.refused = false := by
    intro s hs
    obtain ⟨row, hrow, b, hb, hs⟩ := mem_positionStatements.1 hs
    obtain ⟨i, hi⟩ := hdates row hrow
    exact upsertPosition_accepted hi hb hs
  have heff := run_effect (g := ∅) (fun s hs => (hself.regular s hs).uniform) now
    (hself.closed.mono fun _ h => h.elim)
  rwa [issued_eq_self hok] at heff

/-- **The relationships of the rows**, their parties' apart. -/
theorem run_officeLinks {k : RelKey} (hparty : k.1 ≠ .memberOf) :
    k ∈ (run now (ingestStatements T iso (positionRecords E u)) (∅ : CivicGraph)).rels ↔
      ∃ row ∈ u, ∃ o, row.officeId E = some o ∧ k ∈ row.officeLinks E o := by
  rw [(run_positions hdates now).rels]
  constructor
  · rintro (h | ⟨s, hs, hk⟩)
    · exact absurd h Finmap.notMem_empty
    · obtain ⟨row, hrow, b, hb, hs⟩ := mem_positionStatements.1 hs
      exact ⟨row, hrow, links_upsertPosition hb hs hk hparty⟩
  · rintro ⟨row, hrow, o, ho, hk⟩
    obtain ⟨i, hi⟩ := hdates row hrow
    obtain ⟨start, hstart, -⟩ := interval_eq_some hi
    obtain ⟨b, hb, s, hs, hl⟩ := exists_links hstart ho hk
    exact Or.inr ⟨s, mem_positionStatements.2 ⟨row, hrow, b, hb, hs⟩, hl⟩

/-- **The times of a row's term** are the row's, however often and in whatever order the rows
are upserted. -/
theorem run_termTime (hE : Function.Injective E.uuid5)
    (hdistinct : ∀ a ∈ u, ∀ b ∈ u,
      a.personToPositionIdExternal = b.personToPositionIdExternal → a = b)
    {row : PositionRow} (hrow : row ∈ u) {i : Span ℤ} (hi : row.interval T = some i) {o : String}
    (ho : row.officeId E = some o) {f : Field} (hf : f = .validFrom ∨ f = .validTo) :
    (run now (ingestStatements T iso (positionRecords E u)) (∅ : CivicGraph)).nodeProp
      (row.termNode E) f = termTime i f := by
  rw [(run_positions hdates now).nodeProp]
  refine runWrites_const (fun w hw => ?_) ?_
  · obtain ⟨s, hs, rfl⟩ := List.mem_map.1 hw
    obtain ⟨row', hrow', b, hb, hs⟩ := mem_positionStatements.1 hs
    obtain ⟨i', hi'⟩ := hdates row' hrow'
    refine (nodeWrite_upsertPosition hi' hb hs rfl hf).imp_right fun ⟨hterm, hwrite⟩ => ?_
    -- only the row itself writes to its term
    obtain rfl := hdistinct row' hrow' row hrow (termNode_injective hE hterm)
    obtain rfl := Option.some.inj (hi'.symm.trans hi)
    exact hwrite
  · obtain ⟨b, hb, s, hs, hwrite⟩ := exists_nodeWrite hi ho hf
    exact List.mem_map.2 ⟨s, mem_positionStatements.2 ⟨row, hrow, b, hb, hs⟩, hwrite⟩

end Run

/-! ## The terms that are found -/

/-- The row is a term of a person in an office. -/
def PositionRow.Serves (E : IngestEnv) (row : PositionRow) (personId officeId : String) : Prop :=
  row.personId E = personId ∧ row.officeId E = some officeId

section Found

variable (hE : Function.Injective E.uuid5)
  (hdistinct : ∀ a ∈ u, ∀ b ∈ u,
    a.personToPositionIdExternal = b.personToPositionIdExternal → a = b)
  (hdates : ∀ row ∈ u, ∃ i, row.interval T = some i) (now : ℕ → ℤ) {personId officeId : String}

include hE hdistinct hdates

theorem termPath_ingest {pt : NodeKey} :
    TermPath (run now (ingestStatements T iso (positionRecords E u)) ∅) personId officeId pt ↔
      ∃ row ∈ u, row.Serves E personId officeId ∧ pt = row.termNode E := by
  unfold TermPath
  rw [run_officeLinks hdates now (k := (.hasPositionTerm, (.person, personId), pt)) nofun,
    run_officeLinks hdates now (k := (.aboutOffice, pt, (.office, officeId))) nofun]
  constructor
  · rintro ⟨-, ⟨a, ha, o, -, hka⟩, ⟨b, hb, o', hob, hkb⟩⟩
    simp only [PositionRow.officeLinks, List.mem_cons, Prod.mk.injEq, reduceCtorEq, false_and,
      true_and, List.not_mem_nil, or_false, false_or] at hka hkb
    obtain ⟨rfl, rfl⟩ := hka
    obtain ⟨hterm, rfl⟩ := hkb
    -- both relationships of the term come from one row
    obtain rfl := hdistinct a ha b hb (termNode_injective hE hterm)
    exact ⟨a, ha, ⟨rfl, hob⟩, rfl⟩
  · rintro ⟨row, hrow, ⟨rfl, ho⟩, rfl⟩
    exact ⟨rfl, ⟨row, hrow, _, ho, by simp [PositionRow.officeLinks]⟩,
      ⟨row, hrow, _, ho, by simp [PositionRow.officeLinks]⟩⟩

theorem heldTerms_ingest {lo hi : Option ℤ} {pt : NodeKey} :
    pt ∈ heldTerms (run now (ingestStatements T iso (positionRecords E u)) ∅) personId officeId
        lo hi ↔
      ∃ row ∈ u, row.Serves E personId officeId ∧ pt = row.termNode E ∧
        ∃ i, row.interval T = some i ∧ Overlaps lo hi i.start i.stop := by
  rw [mem_heldTerms, termPath_ingest hE hdistinct hdates now]
  have htimes : ∀ row ∈ u, row.Serves E personId officeId → ∀ i, row.interval T = some i →
      (overlapsScope lo hi
        ((run now (ingestStatements T iso (positionRecords E u)) (∅ : CivicGraph)).nodeProp
          (row.termNode E) .validFrom)
        ((run now (ingestStatements T iso (positionRecords E u)) (∅ : CivicGraph)).nodeProp
          (row.termNode E) .validTo) = true ↔ Overlaps lo hi i.start i.stop) := by
    intro row hrow hserves i hi
    rw [run_termTime hdates now hE hdistinct hrow hi hserves.2 (Or.inl rfl),
      run_termTime hdates now hE hdistinct hrow hi hserves.2 (Or.inr rfl)]
    exact overlapsScope_iff
  constructor
  · rintro ⟨⟨row, hrow, hserves, rfl⟩, hover⟩
    obtain ⟨i, hi⟩ := hdates row hrow
    exact ⟨row, hrow, hserves, rfl, i, hi, (htimes row hrow hserves i hi).1 hover⟩
  · rintro ⟨row, hrow, hserves, rfl, i, hi, hover⟩
    exact ⟨⟨row, hrow, hserves, rfl⟩, (htimes row hrow hserves i hi).2 hover⟩

/-- Every `HELD_OFFICE` edge comes with a term. -/
theorem legacyHeldRows_ingest {lo hi : Option ℤ} :
    legacyHeldRows T (run now (ingestStatements T iso (positionRecords E u)) ∅) personId officeId
      lo hi = [] := by
  refine legacyHeldRows_eq_nil fun h => ?_
  obtain ⟨row, hrow, o, ho, hk⟩ := (run_officeLinks hdates now
    (k := (.heldOffice, (.person, personId), (.office, officeId))) nofun).1 h
  simp only [PositionRow.officeLinks, List.mem_cons, Prod.mk.injEq, reduceCtorEq, false_and,
    true_and, List.not_mem_nil, or_false] at hk
  obtain ⟨rfl, rfl⟩ := hk
  exact ⟨_, (termPath_ingest hE hdistinct hdates now).2 ⟨row, hrow, ⟨rfl, ho⟩, rfl⟩⟩

theorem heldTerms_val {lo hi : Option ℤ} (hscope : ∀ a ∈ lo, ∀ b ∈ hi, a ≤ b)
    {terms : Finset PositionRow}
    (hterms : ∀ row, row ∈ terms ↔ row ∈ u ∧ row.Serves E personId officeId ∧
      ∃ i, row.interval T = some i ∧ ∃ t ∈ i, InScope lo hi t) :
    (heldTerms (run now (ingestStatements T iso (positionRecords E u)) ∅) personId officeId
      lo hi).val = terms.val.map (PositionRow.termNode E) := by
  refine (Multiset.Nodup.ext (Finset.nodup _) ?_).2 fun pt => ?_
  · refine Multiset.Nodup.map_on (fun a ha b hb hab => ?_) (Finset.nodup _)
    exact hdistinct a ((hterms a).1 ha).1 b ((hterms b).1 hb).1 (termNode_injective hE hab)
  · rw [Finset.mem_val, Multiset.mem_map, heldTerms_ingest hE hdistinct hdates now]
    constructor
    · rintro ⟨row, hrow, hserves, rfl, i, hi, hover⟩
      exact ⟨row, (hterms row).2 ⟨hrow, hserves, i, hi, (i.meets_iff hscope).2 hover⟩, rfl⟩
    · rintro ⟨row, hrow, rfl⟩
      obtain ⟨hrow, hserves, i, hi, hmeet⟩ := (hterms row).1 hrow
      exact ⟨row, hrow, hserves, rfl, i, hi, (i.meets_iff hscope).1 hmeet⟩

end Found

/-- **Office terms are retrieved exactly.** However often and in whatever order position rows
are upserted, `office_held` returns one row for each row of the person and office whose interval
meets the scope, and none from its legacy branch; and for one day it returns the terms of
`resolve_position_terms`. -/
theorem office_terms (hE : Function.Injective E.uuid5) (u : List PositionRow)
    (hdistinct : ∀ a ∈ u, ∀ b ∈ u,
      a.personToPositionIdExternal = b.personToPositionIdExternal → a = b)
    (hdates : ∀ row ∈ u, ∃ i, row.interval T = some i) (iso : String) (now : ℕ → ℤ)
    (personId officeId : String) :
    let g := run now (ingestStatements T iso (positionRecords E u)) ∅
    (∀ lo hi, (∀ a ∈ lo, ∀ b ∈ hi, a ≤ b) →
      ∃ terms : Finset PositionRow,
        (∀ row, row ∈ terms ↔ row ∈ u ∧ row.Serves E personId officeId ∧
          ∃ i, row.interval T = some i ∧ ∃ t ∈ i, InScope lo hi t) ∧
        (∃ out, OfficeHeldAnswer T g personId officeId lo hi out) ∧
        ∀ out, OfficeHeldAnswer T g personId officeId lo hi out →
          (out.map namedTerm : Multiset (Option Value)) =
            terms.val.map fun row => some (.str (row.termNode E).2)) ∧
    ∀ d, (∃ found, ResolvedTermsAnswer T g personId (some officeId) (some d) found) ∧
      ∀ out found, OfficeHeldAnswer T g personId officeId (some d) (some d) out →
        ResolvedTermsAnswer T g personId (some officeId) (some d) found →
          (out.map namedTerm).Perm (found.map fun m => some (.str m.positionTermId)) := by
  classical
  intro g
  have hlegacy : ∀ lo hi, legacyHeldRows T g personId officeId lo hi = [] :=
    fun lo hi => legacyHeldRows_ingest hE hdistinct hdates now
  have hnamed : ∀ lo hi out, OfficeHeldAnswer T g personId officeId lo hi out →
      (out.map namedTerm : Multiset (Option Value)) =
        (heldTerms g personId officeId lo hi).val.map fun pt => some (.str pt.2) := by
    intro lo hi out hout
    rw [← Multiset.map_coe, (officeHeldAnswer_iff (hlegacy lo hi)).1 hout, Multiset.map_map]
    rfl
  refine ⟨fun lo hi hscope => ?_, fun d => ⟨?_, fun out found hout hfound => ?_⟩⟩
  · set terms := u.toFinset.filter fun row => row.Serves E personId officeId ∧
      ∃ i, row.interval T = some i ∧ ∃ t ∈ i, InScope lo hi t with hdef
    have hterms : ∀ row, row ∈ terms ↔ row ∈ u ∧ row.Serves E personId officeId ∧
        ∃ i, row.interval T = some i ∧ ∃ t ∈ i, InScope lo hi t := by
      intro row
      rw [hdef, Finset.mem_filter, List.mem_toFinset]
    refine ⟨terms, hterms, ?_, fun out hout => ?_⟩
    · obtain ⟨out, hout⟩ := Quot.exists_rep ((heldTerms g personId officeId lo hi).val.map
        (heldTermRecord T g personId officeId))
      exact ⟨out, (officeHeldAnswer_iff (hlegacy lo hi)).2 hout⟩
    · rw [hnamed lo hi out hout, heldTerms_val hE hdistinct hdates now hscope hterms,
        Multiset.map_map]
      rfl
  · have hordered : ∃ l, Ordered
        (ascending fun e : NodeKey × NodeKey => instantKey (g.nodeProp e.1 .validFrom))
        (resolvedTerms g personId (some officeId) (some d)).val l := exists_ordered _
    obtain ⟨l, hl⟩ := hordered
    exact ⟨_, l, hl, rfl⟩
  · obtain ⟨l, hl, rfl⟩ := hfound
    have hrows := hl.rows
    rw [resolvedTerms_eq] at hrows
    rw [← Multiset.coe_eq_coe, hnamed _ _ out hout, List.map_map, ← Multiset.map_coe, hrows,
      Multiset.map_map]
    rfl

end Ingest

/-! ## A minister's term, upserted twice -/

theorem office_terms_minister :
    ∃ out, OfficeHeldAnswer demoTime
        (run (fun _ => 0)
          (ingestStatements demoTime "" (positionRecords demoEnv [ministerRow, ministerRow])) ∅)
        "knesset_person:965" "knesset_office:49:8" (some 1616457600) none out ∧
      out.map namedTerm = [some (.str "knesset_position_term:17")] := by
  have hrows : ∀ row ∈ [ministerRow, ministerRow], row = ministerRow := by
    simp
  have hinterval : ∃ i, ministerRow.interval demoTime = some i ∧ (1616457600 : ℤ) ∈ i :=
    ⟨_, rfl, by decide, fun b hb => Option.some.inj hb ▸ by decide⟩
  obtain ⟨i, hi, hmem⟩ := hinterval
  have h := office_terms (T := demoTime) (E := demoEnv) (fun _ _ h => h) [ministerRow, ministerRow]
    (fun a ha b hb _ => (hrows a ha).trans (hrows b hb).symm)
    (fun row hrow => ⟨i, hrows row hrow ▸ hi⟩) "" (fun _ => 0) "knesset_person:965"
    "knesset_office:49:8"
  obtain ⟨terms, hterms, ⟨out, hout⟩, hall⟩ := h.1 (some 1616457600) none
    fun _ _ b hb => absurd hb (Option.not_mem_none b)
  refine ⟨out, hout, ?_⟩
  have hsingle : terms = {ministerRow} := by
    ext row
    rw [hterms, Finset.mem_singleton]
    constructor
    · exact fun hrow => hrows row hrow.1
    · rintro rfl
      exact ⟨List.mem_cons_self, ⟨by decide, by decide⟩, i, hi, _, hmem,
        fun a ha => (Option.some.inj ha).ge, fun b hb => absurd hb (Option.not_mem_none b)⟩
  have hout := hall out hout
  rw [hsingle] at hout
  exact Multiset.coe_eq_singleton.1 hout

end CivicProof
