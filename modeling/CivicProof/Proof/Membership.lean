import CivicProof.TimeSpan.Scope
import CivicProof.Proof.Reingest
import CivicProof.Spec.GraphQueries
import CivicProof.Spec.Schema

/-!
# Membership intervals

A person's memberships of one committee, party or office are rows with an interval each, but
they all update one relationship.

* `run_validFrom`, `run_validTo`: it carries the start of the last row and the last end given.
* `membership_intervals`: when the intervals of the rows survive on it.
-/

namespace CivicProof

open PropGraph Cypher TimeSpan

/-! ## Rows and their intervals -/

/-- The relationships with a validity interval. -/
def spanTypes : List RelType := [.memberOfCommittee, .memberOf, .heldOffice]

/-- The interval of a row, when its dates are dates and in order. -/
def rowSpan (T : CypherTime) (validFrom : String) (validTo : Option String) :
    Option (Span ℤ) :=
  match T.datetime validFrom, validTo with
  | none, _ => none
  | some a, none => some ⟨a, none, nofun⟩
  | some a, some text =>
    (T.datetime text).bind fun b =>
      if h : a ≤ b then some ⟨a, some b, fun _ hc => Option.some.inj hc ▸ h⟩ else none

/-- The memberships that a record states, each with its interval. -/
def IngestRecord.memberships (T : CypherTime) : IngestRecord → List (RelKey × Option (Span ℤ))
  | .committeeMembership m =>
    [((.memberOfCommittee, (.person, m.personId), (.committee, m.committeeId)),
      rowSpan T m.validFrom m.validTo)]
  | .position b =>
    (b.party.toList.map fun p =>
      ((.memberOf, (.person, b.personId), (.party, p.partyId)), rowSpan T p.validFrom p.validTo)) ++
    b.office.toList.map fun o =>
      ((.heldOffice, (.person, b.personId), (.office, o.officeId)),
        rowSpan T o.validFrom o.validTo)
  | _ => []

/-- Its dates are dates, and none of its intervals ends before it starts. -/
structure IngestRecord.WellDated (T : CypherTime) (r : IngestRecord) : Prop where
  ordered : ∀ e ∈ r.memberships T, e.2 ≠ none
  accepted : ∀ iso, ∀ s ∈ r.statements T iso, s.refused = false

/-- The intervals of some memberships in one relationship. -/
def intervalsAt (k : RelKey) (ms : List (RelKey × Option (Span ℤ))) : List (Span ℤ) :=
  ms.filterMap fun e => if e.1 = k then e.2 else none

/-- The intervals that records state for one relationship, in the order they are upserted. -/
def intervalsOf (T : CypherTime) (u : List IngestRecord) (k : RelKey) : List (Span ℤ) :=
  intervalsAt k (u.flatMap (IngestRecord.memberships T))

variable {T : CypherTime} {E : IngestEnv} {iso : String}

/-! ## What the statements write -/

/-- What a row with an interval writes. -/
def spanWrite (s : Span ℤ) (f : Field) : Write Datum :=
  matchWrite [overwrite .validFrom (some (.instant s.start)), keep .validTo (s.stop.map .instant)] f

theorem spanWrite_validFrom (s : Span ℤ) :
    spanWrite s .validFrom = .assign (some (.instant s.start)) := rfl

theorem spanWrite_validTo (s : Span ℤ) : spanWrite s .validTo = .keep (s.stop.map .instant) := rfl

/-- Some statements write to the relationships with an interval what some memberships say. -/
def Carries (u : List CivicStmt) (ms : List (RelKey × Option (Span ℤ))) : Prop :=
  ∀ k : RelKey, k.1 ∈ spanTypes → ∀ f old,
    runWrites (u.map fun s => s.relWrite k f) old =
      runWrites ((intervalsAt k ms).map fun s => spanWrite s f) old

theorem Carries.append {u v : List CivicStmt} {ms ns : List (RelKey × Option (Span ℤ))}
    (h : Carries u ms) (h' : Carries v ns) : Carries (u ++ v) (ms ++ ns) := by
  intro k hk f old
  unfold intervalsAt
  rw [List.map_append, runWrites_append, h k hk, h' k hk, List.filterMap_append, List.map_append,
    runWrites_append]
  rfl

theorem Carries.flatMap {α : Type} {l : List α} {u : α → List CivicStmt}
    {ms : α → List (RelKey × Option (Span ℤ))} (h : ∀ a ∈ l, Carries (u a) (ms a)) :
    Carries (l.flatMap u) (l.flatMap ms) := by
  induction l with
  | nil => exact fun _ _ _ _ => rfl
  | cons a l ih =>
    rw [List.flatMap_cons, List.flatMap_cons]
    exact (h a List.mem_cons_self).append (ih fun b hb => h b (List.mem_cons_of_mem a hb))

theorem relWrite_of_not_links {s : CivicStmt} {k : RelKey} (h : ¬s.Links k) (f : Field) :
    s.relWrite k f = .keep none := by
  unfold Stmt.relWrite
  split
  · rename_i t a b items
    exact if_neg fun hk => h ⟨rfl, hk⟩
  · rfl

/-- Statements that merge none of these relationships. -/
theorem carries_nil {u : List CivicStmt} (h : ∀ s ∈ u, ∀ k, s.Links k → k.1 ∉ spanTypes) :
    Carries u [] := by
  intro k hk f old
  induction u with
  | nil => rfl
  | cons s u ih =>
    rw [List.map_cons, runWrites_cons,
      relWrite_of_not_links (fun hl => h s List.mem_cons_self k hl hk), Write.apply_keep_none]
    exact ih fun s' hs' => h s' (List.mem_cons_of_mem s hs')

theorem moment_stop {start : String} {stop : Option String} {s : Span ℤ}
    (h : rowSpan T start stop = some s) :
    T.datetime start = some s.start ∧ moment T stop = some (s.stop.map .instant) := by
  unfold rowSpan at h
  cases ha : T.datetime start with
  | none =>
    rw [ha] at h
    cases h
  | some a =>
    rw [ha] at h
    cases stop with
    | none =>
      obtain rfl := Option.some.inj h
      exact ⟨rfl, rfl⟩
    | some text =>
      obtain ⟨b, hb, h⟩ := Option.bind_eq_some_iff.1 h
      split at h
      · obtain rfl := Option.some.inj h
        exact ⟨rfl, by rw [moment_some, hb]; rfl⟩
      · cases h

/-- The merge of a row carries its interval. -/
theorem carries_spanMerge {t : RelType} {a b : NodeKey} {start : String} {stop : Option String}
    (h : rowSpan T start stop ≠ none) :
    Carries [spanMerge T t a b (some start) stop] [((t, a, b), rowSpan T start stop)] := by
  intro k _ f old
  obtain ⟨s, hs⟩ := Option.ne_none_iff_exists'.1 h
  obtain ⟨hstart, hstop⟩ := moment_stop hs
  have hwrite : (spanMerge T t a b (some start) stop).relWrite k f =
      if (t, a, b) = k then spanWrite s f else .keep none := by
    unfold spanMerge
    rw [moment_some, hstart, hstop]
    rfl
  rw [List.map_singleton, hwrite, hs]
  by_cases hk : (t, a, b) = k
  · simp [intervalsAt, hk]
  · simp [intervalsAt, hk, runWrites]

/-- **The statements of a well-dated record carry its memberships.** -/
theorem carries_record {r : IngestRecord} (hr : r.Normalized E) (hd : r.WellDated T) :
    Carries (r.statements T iso) (r.memberships T) := by
  have hother : (∀ t ∈ r.linkTypes, t ∉ spanTypes) → Carries (r.statements T iso) [] := by
    intro h
    exact carries_nil fun s hs k hk => h _ (hr.links hs hk).1
  have hnode : ∀ (n : NodeKey) items, Carries [.mergeNode n items] [] := fun n items =>
    carries_nil fun s hs k hk => by
      obtain rfl := List.mem_singleton.1 hs
      exact hk.elim
  cases r with
  | committeeMembership m =>
    exact (hnode _ _).append ((hnode _ _).append (carries_spanMerge (hd.ordered _ List.mem_cons_self)))
  | position b =>
    have hparty : Carries (b.party.toList.flatMap (upsertPartyLane T b.personId))
        (b.party.toList.flatMap fun p =>
          [((.memberOf, (.person, b.personId), (.party, p.partyId)),
            rowSpan T p.validFrom p.validTo)]) :=
      Carries.flatMap fun p hp => (hnode _ _).append <| carries_spanMerge <|
        hd.ordered _ (List.mem_append_left _ (List.mem_map_of_mem hp))
    have hoffice : Carries (b.office.toList.flatMap (upsertOfficeLane T b.personId))
        (b.office.toList.flatMap fun o =>
          [((.heldOffice, (.person, b.personId), (.office, o.officeId)),
            rowSpan T o.validFrom o.validTo)]) :=
      Carries.flatMap fun o ho => (hnode _ _).append <| carries_spanMerge <|
        hd.ordered _ (List.mem_append_right _ (List.mem_map_of_mem ho))
    have hterm : Carries (b.positionTerm.toList.flatMap (upsertTermLane T b.personId)) [] := by
      have htouches : Touches (b.positionTerm.toList.flatMap (upsertTermLane T b.personId))
          [.positionTerm] [.hasPositionTerm, .aboutOffice] :=
        .flatMap fun pt => .node (by decide) (.rel (by decide) rfl (.rel (by decide) rfl .nil))
      refine carries_nil fun s hs k hk htype => ?_
      have hlink := ((htouches s hs).2 k hk).1
      revert hlink htype
      generalize k.1 = t
      cases t <;> decide
    have hms := (hparty.append hoffice).append hterm
    rw [List.append_nil, ← List.map_eq_flatMap, ← List.map_eq_flatMap] at hms
    have hstub : Carries [personStub b.personId 1] [] := hnode _ _
    have hall := hstub.append hms
    exact hall
  | _ => exact hother (by simp [IngestRecord.linkTypes, spanTypes])

/-! ## What a run leaves -/

section Run

variable {u : List IngestRecord} (hu : ∀ r ∈ u, r.Normalized E) (hd : ∀ r ∈ u, r.WellDated T)
  {g : CivicGraph} (hg : ∀ k ∈ g.rels, k.1 ∉ spanTypes) (now : ℕ → ℤ) {k : RelKey}
  (hk : k.1 ∈ spanTypes)

include hu hd hg hk

theorem run_spanProp (f : Field) :
    (run now (ingestStatements T iso u) g).relProp k f =
      runWrites ((intervalsOf T u k).map fun s => spanWrite s f) none := by
  have hself : SelfContained (ingestStatements T iso u) := ingestStatements_selfContained hu iso
  have hok : ∀ s ∈ ingestStatements T iso u, s.refused = false := by
    intro s hs
    obtain ⟨r, hr, hs⟩ := List.mem_flatMap.1 hs
    exact (hd r hr).accepted iso s hs
  have hnone : g.relProp k f = none := by
    unfold Graph.relProp
    rw [Finmap.lookup_eq_none.2 fun hmem => hg k hmem hk]
    rfl
  rw [(run_effect (fun s hs => (hself.regular s hs).uniform) now
    (hself.closed.mono fun _ h => h.elim)).relProp, issued_eq_self hok, hnone]
  exact Carries.flatMap (fun r hr => carries_record (hu r hr) (hd r hr)) k hk f none

/-- **The start is that of the last row.** -/
theorem run_validFrom :
    (run now (ingestStatements T iso u) g).relProp k .validFrom =
      (intervalsOf T u k).getLast?.map fun s => .instant s.start := by
  have hreg : ∀ s ∈ intervalsOf T u k, (spanWrite s .validFrom).Regular Datum.blank :=
    fun _ _ => Option.some_ne_none _
  rw [run_spanProp hu hd hg now hk, runWrites_map hreg]
  simp [lastValue, orDefault, spanWrite_validFrom, Write.given, Write.defaults]

/-- **The end is the last one given.** -/
theorem run_validTo :
    (run now (ingestStatements T iso u) g).relProp k .validTo =
      (lastValue Span.stop (intervalsOf T u k)).map .instant := by
  have hreg : ∀ s ∈ intervalsOf T u k, (spanWrite s .validTo).Regular Datum.blank :=
    fun _ _ => trivial
  rw [run_spanProp hu hd hg now hk, runWrites_map hreg]
  simp [lastValue, orDefault, spanWrite_validTo, Write.given, Write.defaults, Function.comp_def]

end Run

/-! ## Rows that survive -/

/-- The last row contains all the others, and if it has no end none of them has one. -/
def LastContainsAll (l : List (Span ℤ)) : Prop :=
  ∀ last ∈ l.getLast?, (∀ s ∈ l, ∀ t ∈ s, t ∈ last) ∧ (last.stop = none → ∀ s ∈ l, s.stop = none)

/-- The last row starts no later than the last end given. -/
def LastStartsInTime (l : List (Span ℤ)) : Prop :=
  ∀ last ∈ l.getLast?, ∀ b ∈ lastValue Span.stop l, last.start ≤ b

/-- The order of the rows keeps their intervals. -/
structure LastRows (T : CypherTime) (u : List IngestRecord) : Prop where
  committees : ∀ personId committeeId, LastContainsAll
    (intervalsOf T u (.memberOfCommittee, (.person, personId), (.committee, committeeId)))
  others : ∀ k : RelKey, k.1 ∈ [RelType.memberOf, .heldOffice] →
    LastStartsInTime (intervalsOf T u k)

/-- A scope that meets an ingested interval retrieves a row. -/
def MembershipsRetrieved (T : CypherTime) (u : List IngestRecord) (g : CivicGraph) : Prop :=
  ∀ personId committeeId lo hi, ∀ s ∈ intervalsOf T u
      (.memberOfCommittee, (.person, personId), (.committee, committeeId)),
    (∃ t ∈ s, InScope lo hi t) → committeeMembershipRows T g personId committeeId lo hi ≠ []

/-- No relationship ends before it starts. -/
def IntervalsOrdered (g : CivicGraph) : Prop :=
  ∀ k ∈ g.rels, k.1 ∈ spanTypes → ∀ v, g.relProp k .validTo = some v →
    ∃ a b, g.relProp k .validFrom = some (.instant a) ∧ v = .instant b ∧ a ≤ b

theorem lastValue_concat_stop (l : List (Span ℤ)) (s : Span ℤ) :
    lastValue Span.stop (l ++ [s]) = s.stop.or (lastValue Span.stop l) := by
  rw [lastValue_append]
  cases h : s.stop <;> simp [lastValue, h]

/-- **The last start and the last end given** contain all the rows when the last row does. -/
theorem lastContainsAll_iff {l : List (Span ℤ)} {last : Span ℤ} (hlast : l.getLast? = some last) :
    (∀ s ∈ l, ∀ t ∈ s, Within last.start (lastValue Span.stop l) t) ↔ LastContainsAll l := by
  have hmem : last ∈ l := List.mem_of_getLast? hlast
  obtain ⟨init, rfl⟩ : ∃ init, l = init ++ [last] := List.getLast?_eq_some_iff.1 hlast
  have hall : LastContainsAll (init ++ [last]) ↔ (∀ s ∈ init ++ [last], ∀ t ∈ s, t ∈ last) ∧
      (last.stop = none → ∀ s ∈ init ++ [last], s.stop = none) := by
    unfold LastContainsAll
    rw [hlast]
    exact ⟨fun h => h last rfl, fun h x hx => (Option.some.inj hx) ▸ h⟩
  rw [hall]
  cases hstop : last.stop with
  | some b =>
    rw [lastValue_concat_stop, hstop, Option.some_or, ← hstop]
    exact ⟨fun h => ⟨h, fun hnone => absurd (hnone.symm.trans hstop) nofun⟩, fun h => h.1⟩
  | none =>
    constructor
    · intro h
      -- an open row goes past every end
      have hopen : lastValue Span.stop (init ++ [last]) = none := by
        by_contra hne
        obtain ⟨b, hb⟩ := Option.ne_none_iff_exists'.1 hne
        obtain ⟨c, hc, -⟩ := (last.within_iff.1 (h last hmem)).2 b hb
        rw [hstop] at hc
        cases hc
      rw [hopen] at h
      refine ⟨fun s hs t ht => ⟨(h s hs t ht).1, by simp [hstop]⟩, fun _ => ?_⟩
      exact lastValue_eq_none.1 hopen
    · rintro ⟨hsub, hopen⟩ s hs t ht
      rw [lastValue_eq_none.2 (hopen rfl)]
      exact ⟨(hsub s hs t ht).1, nofun⟩

theorem overlapsScope_iff {lo hi : Option ℤ} {start : ℤ} {stop : Option ℤ} :
    overlapsScope lo hi (some (.instant start)) (stop.map .instant) = true ↔
      Overlaps lo hi start stop := by
  unfold overlapsScope Overlaps notBefore notAfter
  cases lo <;> cases hi <;> cases stop <;> simp [Datum.instant?]

theorem LastContainsAll.startsInTime {l : List (Span ℤ)} (h : LastContainsAll l) :
    LastStartsInTime l := by
  intro last hlast b hb
  have hwithin := (lastContainsAll_iff hlast).2 h last (List.mem_of_getLast? hlast)
  exact (hwithin last.start last.start_mem).2 b hb

theorem committeeMembershipRows_ne_nil {g : CivicGraph} {personId committeeId : String}
    {lo hi : Option ℤ} :
    committeeMembershipRows T g personId committeeId lo hi ≠ [] ↔
      let k : RelKey := (.memberOfCommittee, (.person, personId), (.committee, committeeId))
      k ∈ g.rels ∧ overlapsScope lo hi (g.relProp k .validFrom) (g.relProp k .validTo) := by
  unfold committeeMembershipRows
  dsimp only
  split
  · rename_i h
    exact iff_of_true (List.cons_ne_nil _ _) h
  · rename_i h
    exact iff_of_false (fun hne => hne rfl) h

theorem mem_of_relProp {g : CivicGraph} {k : RelKey} {f : Field} {v : Datum}
    (h : g.relProp k f = some v) : k ∈ g.rels := by
  obtain ⟨e, he, -⟩ := Option.bind_eq_some_iff.1 h
  exact Finmap.mem_of_lookup_eq_some he

/-- A committee membership is one of a person in a committee. -/
theorem exists_of_mem_intervalsOf {u : List IngestRecord} {k : RelKey} {s : Span ℤ}
    (hs : s ∈ intervalsOf T u k) (hk : k.1 = .memberOfCommittee) :
    ∃ personId committeeId,
      k = (.memberOfCommittee, (.person, personId), (.committee, committeeId)) := by
  obtain ⟨e, he, hes⟩ := List.mem_filterMap.1 hs
  obtain ⟨r, -, he⟩ := List.mem_flatMap.1 he
  obtain rfl : e.1 = k := by
    by_contra hne
    rw [if_neg hne] at hes
    cases hes
  cases r with
  | committeeMembership m =>
    obtain rfl := List.mem_singleton.1 he
    exact ⟨_, _, rfl⟩
  | position b =>
    rcases List.mem_append.1 he with he | he
    · obtain ⟨p, -, rfl⟩ := List.mem_map.1 he
      cases hk
    · obtain ⟨o, -, rfl⟩ := List.mem_map.1 he
      cases hk
  | _ => exact absurd he List.not_mem_nil

section Survival

variable {u : List IngestRecord} (hu : ∀ r ∈ u, r.Normalized E) (hd : ∀ r ∈ u, r.WellDated T)
  {g : CivicGraph} (hg : ∀ k ∈ g.rels, k.1 ∉ spanTypes) (now : ℕ → ℤ)

include hu hd hg

theorem membershipsRetrieved_iff :
    MembershipsRetrieved T u (run now (ingestStatements T iso u) g) ↔
      ∀ personId committeeId, LastContainsAll
        (intervalsOf T u (.memberOfCommittee, (.person, personId), (.committee, committeeId))) := by
  refine forall_congr' fun personId => forall_congr' fun committeeId => ?_
  set k : RelKey := (.memberOfCommittee, (.person, personId), (.committee, committeeId))
  have hk : k.1 ∈ spanTypes := List.mem_cons_self
  cases hlast : (intervalsOf T u k).getLast? with
  | none =>
    have hnil : intervalsOf T u k = [] := List.getLast?_eq_none_iff.1 hlast
    rw [hnil]
    exact iff_of_true (fun _ _ _ hs => absurd hs List.not_mem_nil) nofun
  | some last =>
    have hfrom : (run now (ingestStatements T iso u) g).relProp k .validFrom =
        some (.instant last.start) := by
      rw [run_validFrom hu hd hg now hk, hlast]
      rfl
    have hrows : ∀ lo hi, committeeMembershipRows T (run now (ingestStatements T iso u) g) personId
        committeeId lo hi ≠ [] ↔
          Overlaps lo hi last.start (lastValue Span.stop (intervalsOf T u k)) := by
      intro lo hi
      rw [committeeMembershipRows_ne_nil]
      dsimp only
      rw [hfrom, run_validTo hu hd hg now hk, overlapsScope_iff]
      exact and_iff_right (mem_of_relProp hfrom)
    rw [← lastContainsAll_iff hlast]
    constructor
    · intro h s hs
      exact s.forall_overlaps_iff.1 fun lo hi hmeet => (hrows lo hi).1 (h lo hi s hs hmeet)
    · intro h lo hi s hs hmeet
      exact (hrows lo hi).2 (s.forall_overlaps_iff.2 (h s hs) lo hi hmeet)

theorem intervalsOrdered_iff :
    IntervalsOrdered (run now (ingestStatements T iso u) g) ↔
      ∀ k : RelKey, k.1 ∈ spanTypes → LastStartsInTime (intervalsOf T u k) := by
  constructor
  · intro h k hk last hlast b hb
    have hto : (run now (ingestStatements T iso u) g).relProp k .validTo = some (.instant b) := by
      rw [run_validTo hu hd hg now hk, hb]
      rfl
    obtain ⟨a, b', hfrom, hbb, hab⟩ := h k (mem_of_relProp hto) hk _ hto
    rw [run_validFrom hu hd hg now hk, hlast] at hfrom
    cases hfrom
    cases hbb
    exact hab
  · intro h k _ hk v hv
    rw [run_validTo hu hd hg now hk] at hv
    obtain ⟨b, hb, rfl⟩ := Option.map_eq_some_iff.1 hv
    obtain ⟨s, hs, -⟩ := List.mem_filterMap.1 (lastValue_mem hb)
    obtain ⟨last, hlast⟩ : ∃ last, (intervalsOf T u k).getLast? = some last :=
      ⟨_, List.getLast?_eq_some_getLast (List.ne_nil_of_mem hs)⟩
    refine ⟨last.start, b, ?_, rfl, h k hk last hlast b hb⟩
    rw [run_validFrom hu hd hg now hk, hlast]
    rfl

end Survival

/-- **Membership intervals survive ingestion** exactly when the last row of each person and
committee contains the others, all of them open if it is, and the last row of each person and
party or office starts no later than the last end given. -/
theorem membership_intervals (u : List IngestRecord) (hu : ∀ r ∈ u, r.Normalized E)
    (hd : ∀ r ∈ u, r.WellDated T) (g : CivicGraph) (hg : ∀ k ∈ g.rels, k.1 ∉ spanTypes)
    (iso : String) (now : ℕ → ℤ) :
    MembershipsRetrieved T u (run now (ingestStatements T iso u) g) ∧
        IntervalsOrdered (run now (ingestStatements T iso u) g) ↔ LastRows T u := by
  rw [membershipsRetrieved_iff hu hd hg now, intervalsOrdered_iff hu hd hg now]
  constructor
  · rintro ⟨hcommittees, hordered⟩
    exact ⟨hcommittees, fun k hk => hordered k (List.mem_cons_of_mem _ hk)⟩
  · rintro ⟨hcommittees, hothers⟩
    refine ⟨hcommittees, fun k hk => ?_⟩
    rcases List.mem_cons.1 hk with hk | hk
    · intro last hlast
      obtain ⟨p, c, rfl⟩ := exists_of_mem_intervalsOf (List.mem_of_getLast? hlast) hk
      exact (hcommittees p c).startsInTime last hlast
    · exact hothers k hk

/-! ## Two terms of one member -/

theorem spanMerge_accepted {t : RelType} {a b : NodeKey} {start : String} {stop : Option String}
    (h : rowSpan T start stop ≠ none) : (spanMerge T t a b (some start) stop).refused = false := by
  obtain ⟨s, hs⟩ := Option.ne_none_iff_exists'.1 h
  obtain ⟨hstart, hstop⟩ := moment_stop hs
  unfold spanMerge
  rw [moment_some, hstart, hstop]
  rfl

/-- A membership row is well dated when its dates are dates and in order. -/
theorem wellDated_committeeMembership {m : NormalizedCommitteeMembership}
    (h : rowSpan T m.validFrom m.validTo ≠ none) :
    (IngestRecord.committeeMembership m).WellDated T where
  ordered := List.forall_mem_singleton.2 h
  accepted _ := List.forall_mem_cons.2 ⟨rfl, List.forall_mem_cons.2
    ⟨rfl, List.forall_mem_singleton.2 (spanMerge_accepted h)⟩⟩

def firstTerm : MembershipRow where
  mkIndividualId := "965"
  committeeIdExternal := "1"
  startDate := some "2019-04-30"
  finishDate := some "2020-12-22"

def secondTerm : MembershipRow where
  mkIndividualId := "965"
  committeeIdExternal := "1"
  startDate := some "2021-03-23"

/-- The records of some membership rows. -/
def membershipRecords (rows : List MembershipRow) : List IngestRecord :=
  (rows.flatMap (normalizeCommitteeMembership demoEnv)).map .committeeMembership

theorem membershipRecords_normalized (rows : List MembershipRow) :
    ∀ r ∈ membershipRecords rows, r.Normalized demoEnv := by
  intro r hr
  obtain ⟨m, hm, rfl⟩ := List.mem_map.1 hr
  obtain ⟨row, -, hm⟩ := List.mem_flatMap.1 hm
  exact ⟨row, hm⟩

theorem wellDated_terms {rows : List MembershipRow} (h : rows ⊆ [firstTerm, secondTerm]) :
    ∀ r ∈ membershipRecords rows, r.WellDated demoTime := by
  intro r hr
  obtain ⟨m, hm, rfl⟩ := List.mem_map.1 hr
  obtain ⟨row, hrow, hm⟩ := List.mem_flatMap.1 hm
  refine wellDated_committeeMembership ?_
  rcases List.mem_cons.1 (h hrow) with rfl | hrow
  · obtain rfl := List.mem_singleton.1 hm
    exact Option.isSome_iff_ne_none.1 (by decide)
  · obtain rfl := List.mem_singleton.1 hrow
    obtain rfl := List.mem_singleton.1 hm
    exact Option.isSome_iff_ne_none.1 (by decide)

/-- A member who comes back is no longer found at the time of the first term, and ends before
starting. -/
theorem membership_reopened :
    (∀ r ∈ membershipRecords [firstTerm, secondTerm],
      r.Normalized demoEnv ∧ r.WellDated demoTime) ∧
    ¬MembershipsRetrieved demoTime (membershipRecords [firstTerm, secondTerm])
      (run (fun _ => 0)
        (ingestStatements demoTime "" (membershipRecords [firstTerm, secondTerm])) ∅) ∧
    ¬IntervalsOrdered (run (fun _ => 0)
      (ingestStatements demoTime "" (membershipRecords [firstTerm, secondTerm])) ∅) := by
  refine ⟨fun r hr => ⟨membershipRecords_normalized _ r hr,
    wellDated_terms (List.Subset.refl _) r hr⟩, fun h => ?_, fun h => ?_⟩
  · have hs : ∃ s ∈ intervalsOf demoTime (membershipRecords [firstTerm, secondTerm])
        (.memberOfCommittee, (.person, "knesset_person:965"), (.committee, "knesset_committee:1")),
        s.start = 1556582400 :=
      ⟨_, List.mem_cons_self, rfl⟩
    obtain ⟨s, hs, hstart⟩ := hs
    have hscope : InScope (some 1556582400) (some 1608595200) s.start := by
      rw [hstart]
      exact ⟨by decide, by decide⟩
    have hrows := h _ _ _ _ s hs ⟨s.start, s.start_mem, hscope⟩
    exact hrows (by decide)
  · obtain ⟨a, b, hfrom, hb, hab⟩ := h
      (.memberOfCommittee, (.person, "knesset_person:965"), (.committee, "knesset_committee:1"))
      (by decide) (by decide) (.instant 1608595200) (by decide)
    have hstart : (run (fun _ => 0) (ingestStatements demoTime ""
        (membershipRecords [firstTerm, secondTerm])) ∅).relProp (.memberOfCommittee,
          (.person, "knesset_person:965"), (.committee, "knesset_committee:1")) .validFrom =
        some (.instant 1616457600) := by decide
    rw [hstart] at hfrom
    cases hfrom
    cases hb
    exact absurd hab (by decide)

theorem membership_intervals_terms :
    let g := run (fun _ => 0) (ingestStatements demoTime ""
      (membershipRecords [firstTerm, secondTerm])) ∅
    MembershipsRetrieved demoTime (membershipRecords [firstTerm, secondTerm]) g ∧
      IntervalsOrdered g ↔ LastRows demoTime (membershipRecords [firstTerm, secondTerm]) :=
  membership_intervals _ (membershipRecords_normalized _) (wellDated_terms (List.Subset.refl _)) ∅
    (fun _ h => absurd h Finmap.notMem_empty) "" fun _ => 0

end CivicProof
