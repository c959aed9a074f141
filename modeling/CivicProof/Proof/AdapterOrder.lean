import CivicProof.PropGraph.Interleave
import CivicProof.Proof.Reingest
import CivicProof.Spec.Schema

/-!
# The order of the adapters

Seven adapters write the Person, Party and Committee nodes, each its own statements in order.

* `adapter_order`: exactly when every interleaving leaves the same attributes, and no stub
  changes an attribute its canonical adapter has written.
-/

namespace CivicProof

open PropGraph Cypher

/-- The adapters that write a Person, a Party or a Committee. -/
inductive Adapter where
  | people
  | votes
  | attendance
  | committees
  | committeeMemberships
  | positions
  | elections
  deriving DecidableEq

instance : Fintype Adapter where
  elems := {.people, .votes, .attendance, .committees, .committeeMemberships, .positions, .elections}
  complete a := by cases a <;> decide

/-- The records of one night, by adapter. -/
structure Feeds where
  people : List NormalizedPerson := []
  votes : List NormalizedVoteEvent := []
  attendance : List NormalizedAttendanceEvent := []
  committees : List NormalizedCommittee := []
  committeeMemberships : List NormalizedCommitteeMembership := []
  positions : List NormalizedPositionBundle := []
  elections : List NormalizedElectionResult := []

namespace Feeds

/-- The records of an adapter. -/
def records (F : Feeds) : Adapter → List IngestRecord
  | .people => F.people.map .person
  | .votes => F.votes.map .vote
  | .attendance => F.attendance.map .attendance
  | .committees => F.committees.map .committee
  | .committeeMemberships => F.committeeMemberships.map .committeeMembership
  | .positions => F.positions.map .position
  | .elections => F.elections.map .electionResult

/-- Every record is one its normalizer produces. -/
def Normalized (E : IngestEnv) (F : Feeds) : Prop := ∀ a, ∀ r ∈ F.records a, r.Normalized E

/-- The statements an adapter carries out: an exception ends it. -/
def statements (T : CypherTime) (F : Feeds) (a : Adapter) : List CivicStmt :=
  issued (ingestStatements T "" (F.records a))

/-- The values an adapter gives to a property of a node, in order. -/
def givenTo (T : CypherTime) (F : Feeds) (a : Adapter) (n : NodeKey) (f : Field) : List Datum :=
  (F.statements T a).filterMap fun s => (s.nodeWrite n f).given

end Feeds

/-- The labels of the shared nodes. -/
def sharedLabels : List Label := [.person, .party, .committee]

/-- The adapter whose records are the source of a label's attributes. -/
def canonicalAdapter : Label → Option Adapter
  | .person => some .people
  | .committee => some .committees
  | _ => none

/-- The adapters that merge stubs of those nodes. -/
def stubAdapters : List Adapter := [.votes, .attendance, .committeeMemberships]

/-- Every interleaving of the adapters leaves the shared nodes with the same attributes. -/
def OrderFree (T : CypherTime) (F : Feeds) (g : CivicGraph) : Prop :=
  ∀ l l', PropGraph.Interleaves (F.statements T) l → PropGraph.Interleaves (F.statements T) l' →
    ∀ now now' : ℕ → ℤ, ∀ n : NodeKey, n.1 ∈ sharedLabels → ∀ f,
      (run now (l.map (·.2)) g).nodeProp n f = (run now' (l'.map (·.2)) g).nodeProp n f

/-- In no interleaving does a stub change an attribute that the canonical adapter of its node
has given a value. -/
def StubsHarmless (T : CypherTime) (F : Feeds) (g : CivicGraph) : Prop :=
  ∀ l₁ a s l₂, PropGraph.Interleaves (F.statements T) (l₁ ++ (a, s) :: l₂) → a ∈ stubAdapters →
    ∀ (n : NodeKey) (f : Field) (c : Adapter), canonicalAdapter n.1 = some c →
      (∃ s', (c, s') ∈ l₁ ∧ (s'.nodeWrite n f).given ≠ none) →
        ∀ now now' : ℕ → ℤ,
          (run now ((l₁ ++ [(a, s)]).map (·.2)) g).nodeProp n f =
            (run now' (l₁.map (·.2)) g).nodeProp n f

/-- Adapters that give a shared attribute a value agree on the last one, and stubs give no value
the canonical adapter does not give. -/
structure AdaptersAgree (T : CypherTime) (F : Feeds) : Prop where
  last : ∀ n : NodeKey, n.1 ∈ sharedLabels → ∀ f a b u v,
    (F.givenTo T a n f).getLast? = some u → (F.givenTo T b n f).getLast? = some v → u = v
  stub : ∀ (n : NodeKey) (f : Field) (c a : Adapter), canonicalAdapter n.1 = some c →
    a ∈ stubAdapters → ∀ u ∈ F.givenTo T c n f, ∀ v ∈ F.givenTo T a n f, u = v

variable {T : CypherTime} {E : IngestEnv} {F : Feeds} {g : CivicGraph}

/-! ## What an interleaved run leaves -/

theorem Feeds.Normalized.selfContained (hF : F.Normalized E) (a : Adapter) :
    SelfContained (F.statements T a) := by
  have h : SelfContained (ingestStatements T "" (F.records a)) :=
    ingestStatements_selfContained (hF a) ""
  have hprefix : F.statements T a <+: ingestStatements T "" (F.records a) :=
    List.takeWhile_prefix _
  obtain ⟨v, hv⟩ := hprefix
  rw [← hv] at h
  exact ⟨h.closed.of_append, fun s hs => h.regular s (List.mem_append_left v hs)⟩

theorem Feeds.statements_ok {a : Adapter} {s : CivicStmt} (hs : s ∈ F.statements T a) :
    s.refused = false := by
  have h := List.mem_takeWhile_imp hs
  simpa using h

/-- A part of an interleaving that comes before the rest. -/
theorem interleaved_nodeProp (hF : F.Normalized E) {l m : List (Adapter × CivicStmt)}
    (hl : PropGraph.Interleaves (F.statements T) (l ++ m)) (now : ℕ → ℤ) (n : NodeKey) (f : Field) :
    (run now (l.map (·.2)) g).nodeProp n f =
      (lastValue (fun s => (s.nodeWrite n f).given) (l.map (·.2))).or
        (orDefault .blank ((l.map (·.2)).map fun s => s.nodeWrite n f) (g.nodeProp n f)) := by
  have hmem : ∀ s ∈ l.map (·.2), ∃ a, s ∈ F.statements T a := by
    intro s hs
    obtain ⟨⟨a, s'⟩, he, rfl⟩ := List.mem_map.1 hs
    exact ⟨a, hl.mem_iff.1 (List.mem_append_left m he)⟩
  refine run_nodeProp (fun s hs => ?_) ?_ (fun s hs => ?_) now n f
  · obtain ⟨a, ha⟩ := hmem s hs
    exact (hF.selfContained a).regular s ha
  · have hclosed : Closed (· ∈ g.nodes) ((l ++ m).map (·.2)) :=
      closed_of_sources fun a => by
        rw [hl a]
        exact (hF.selfContained a).closed.mono fun m hm => hm.elim
    rw [List.map_append] at hclosed
    exact hclosed.of_append
  · obtain ⟨a, ha⟩ := hmem s hs
    exact Feeds.statements_ok ha

/-! ## Which values the adapters give -/

theorem given_eq_none {s : CivicStmt} {n : NodeKey} (h : ¬s.Merges n) (f : Field) :
    (s.nodeWrite n f).given = none := by
  rw [Stmt.nodeWrite_of_not_merges h]
  rfl

/-- A stub gives a tier and nothing else. -/
theorem personStub_given {id : String} {tier : ℤ} {n : NodeKey} {f : Field} {v : Datum}
    (h : ((personStub id tier).nodeWrite n f).given = some v) :
    n.1 = .person ∧ f = .sourceTier ∧ v = .int tier := by
  by_cases hn : (Label.person, id) = n
  · subst hn
    have hw : (personStub id tier).nodeWrite (.person, id) f =
        matchWrite [keep .canonicalName none, keep .hebrewName none, keepOrBlank .englishName none,
          keep .externalIds none, keep .sourceTier (some (.int tier))] f := if_pos rfl
    rw [hw] at h
    cases f with
    | sourceTier => exact ⟨rfl, rfl, (Option.some.inj h).symm⟩
    | _ => cases h
  · have hm : ¬(personStub id tier).Merges n := hn
    rw [given_eq_none hm] at h
    cases h

theorem mem_statements {a : Adapter} {s : CivicStmt} (hs : s ∈ F.statements T a) :
    ∃ r ∈ F.records a, s ∈ r.statements T "" := by
  have h := (List.takeWhile_prefix _).mem hs
  exact List.mem_flatMap.1 h

theorem merges_of_given {s : CivicStmt} {id : String} {f : Field} {v : Datum}
    (h : (s.nodeWrite (.person, id) f).given = some v) : s.Merges (.person, id) := by
  by_contra hm
  rw [given_eq_none hm] at h
  cases h

/-- An event and the links of its people: each of them is a stub of tier 2. -/
theorem event_person {l : Label} {x : String} {items : Option (List CivicItem)} (hl : l ≠ .person)
    {α : Type} {people : List α} {personId : α → String} {link : α → CivicStmt} {s : CivicStmt}
    (hs : s ∈ .mergeNode (l, x) items ::
      people.flatMap fun a => [personStub (personId a) 2, link a])
    (hlink : ∀ a n, ¬(link a).Merges n) {id : String} {f : Field} {v : Datum}
    (h : (s.nodeWrite (.person, id) f).given = some v) : f = .sourceTier ∧ v = .int 2 := by
  have hmerges := merges_of_given h
  rcases List.mem_cons.1 hs with rfl | hs
  · exact absurd (congrArg Prod.fst hmerges) hl
  · obtain ⟨a, -, hs⟩ := List.mem_flatMap.1 hs
    rcases List.mem_pair.1 hs with rfl | rfl
    · exact (personStub_given h).2
    · exact absurd hmerges (hlink a _)

/-- What the stubs give a person: tier 2. -/
theorem stub_person {a : Adapter} (ha : a ∈ stubAdapters) {s : CivicStmt}
    (hs : s ∈ F.statements T a) {id : String} {f : Field} {v : Datum}
    (h : (s.nodeWrite (.person, id) f).given = some v) : f = .sourceTier ∧ v = .int 2 := by
  obtain ⟨r, hr, hsr⟩ := mem_statements hs
  simp only [stubAdapters, List.mem_cons, List.not_mem_nil, or_false] at ha
  rcases ha with rfl | rfl | rfl
  · obtain ⟨event, -, rfl⟩ := List.mem_map.1 hr
    exact event_person (by decide) hsr (fun _ _ => not_false) h
  · obtain ⟨event, -, rfl⟩ := List.mem_map.1 hr
    exact event_person (by decide) hsr (fun _ _ => not_false) h
  · obtain ⟨m, -, rfl⟩ := List.mem_map.1 hr
    have hmerges := merges_of_given h
    simp only [IngestRecord.statements, upsertCommitteeMembership, List.mem_cons, List.not_mem_nil,
      or_false] at hsr
    rcases hsr with rfl | rfl | rfl
    · exact (personStub_given h).2
    · cases hmerges
    · exact hmerges.elim

/-- What the people adapter gives as a tier: 1. -/
theorem people_tier (hF : F.Normalized E) {s : CivicStmt} (hs : s ∈ F.statements T .people)
    {x : String} {v : Datum} (h : (s.nodeWrite (.person, x) .sourceTier).given = some v) :
    v = .int 1 := by
  obtain ⟨r, hr, hsr⟩ := mem_statements hs
  have hnorm := hF .people r hr
  obtain ⟨person, -, rfl⟩ := List.mem_map.1 hr
  obtain ⟨row, hrow⟩ := hnorm
  obtain rfl := List.mem_singleton.1 hrow
  obtain rfl := List.mem_singleton.1 hsr
  by_cases hx : (Label.person, extUuid E "knesset_person" row.personIdExternal) = (.person, x)
  · unfold personUpsert Stmt.nodeWrite at h
    dsimp only at h
    rw [if_pos hx] at h
    exact (Option.some.inj h).symm
  · unfold personUpsert Stmt.nodeWrite at h
    dsimp only at h
    rw [if_neg hx] at h
    cases h

/-- Who merges committees. -/
theorem merges_committee (hF : F.Normalized E) {a : Adapter} {s : CivicStmt}
    (hs : s ∈ F.statements T a) {x : String} (h : s.Merges (.committee, x)) :
    a = .committees ∨ a = .committeeMemberships := by
  obtain ⟨r, hr, hsr⟩ := mem_statements hs
  have hnorm : r.Normalized E := hF a r hr
  have hlabel := hnorm.merges hsr h
  cases a with
  | committees => exact Or.inl rfl
  | committeeMemberships => exact Or.inr rfl
  | _ =>
    -- the records of the other adapters merge nodes with other labels
    obtain ⟨_, -, rfl⟩ := List.mem_map.1 hr
    simp [IngestRecord.mergedLabels] at hlabel

/-! ## Order -/

theorem orderFree_of_last (hF : F.Normalized E)
    (h : ∀ n : NodeKey, n.1 ∈ sharedLabels → ∀ f a b u v,
      (F.givenTo T a n f).getLast? = some u → (F.givenTo T b n f).getLast? = some v → u = v) :
    OrderFree T F g := by
  intro l l' hl hl' now now' n hn f
  have hvalue : ∀ {l : List (Adapter × CivicStmt)}, PropGraph.Interleaves (F.statements T) l →
      ∀ now : ℕ → ℤ, (run now (l.map (·.2)) g).nodeProp n f =
        (lastValue (fun s => (s.nodeWrite n f).given) (l.map (·.2))).or
          (orDefault .blank ((l.map (·.2)).map fun s => s.nodeWrite n f) (g.nodeProp n f)) := by
    intro l hl now
    exact interleaved_nodeProp (m := []) hF (by rwa [List.append_nil]) now n f
  have hdefaults : ∀ {l l' : List (Adapter × CivicStmt)},
      PropGraph.Interleaves (F.statements T) l → PropGraph.Interleaves (F.statements T) l' →
      ((l.map (·.2)).map fun s => s.nodeWrite n f).any Write.defaults = true →
        ((l'.map (·.2)).map fun s => s.nodeWrite n f).any Write.defaults = true := by
    intro l l' hl hl' hany
    simp only [List.any_map, List.any_eq_true, Function.comp_apply] at hany ⊢
    obtain ⟨⟨a, s⟩, hs, hd⟩ := hany
    exact ⟨(a, s), hl'.mem_iff.2 (hl.mem_iff.1 hs), hd⟩
  rw [hvalue hl, hvalue hl', hl.getLast?_eq (h n hn f) hl']
  congr 1
  unfold orDefault
  rw [Bool.eq_iff_iff.2 ⟨hdefaults hl hl', hdefaults hl' hl⟩]

/-- A source that comes last has the last word. -/
theorem exists_interleaving_value (hF : F.Normalized E) {a : Adapter} {n : NodeKey} {f : Field}
    {u : Datum} (hu : (F.givenTo T a n f).getLast? = some u) :
    ∃ l, PropGraph.Interleaves (F.statements T) l ∧
      ∀ now : ℕ → ℤ, (run now (l.map (·.2)) g).nodeProp n f = some u := by
  obtain ⟨l, hl⟩ := exists_interleaving_last (F.statements T) a
  refine ⟨_, hl, fun now => ?_⟩
  have hlast : lastValue (fun s => (s.nodeWrite n f).given)
      ((l ++ tagged a (F.statements T a)).map (·.2)) = some u := by
    have htag : (tagged a (F.statements T a)).map (·.2) = F.statements T a := by
      simp [tagged]
    rw [List.map_append, lastValue_append, htag]
    change ((F.givenTo T a n f).getLast?).or _ = _
    rw [hu]
    rfl
  rw [interleaved_nodeProp (m := []) hF (by rwa [List.append_nil]) now n f, hlast]
  rfl

/-! ## Stubs -/

theorem mem_givenTo {a : Adapter} {n : NodeKey} {f : Field} {v : Datum} :
    v ∈ F.givenTo T a n f ↔ ∃ s ∈ F.statements T a, (s.nodeWrite n f).given = some v :=
  List.mem_filterMap

/-- A stub's value, where the canonical adapter gives one, is the last value given before. -/
theorem stub_keeps (hF : F.Normalized E)
    (h : ∀ (n : NodeKey) (f : Field) (c a : Adapter), canonicalAdapter n.1 = some c →
      a ∈ stubAdapters → ∀ u ∈ F.givenTo T c n f, ∀ v ∈ F.givenTo T a n f, u = v)
    {n : NodeKey} {f : Field} {a b c : Adapter} {u v w : Datum}
    (hc : canonicalAdapter n.1 = some c) (ha : a ∈ stubAdapters) (hu : u ∈ F.givenTo T c n f)
    (hv : v ∈ F.givenTo T a n f) (hw : w ∈ F.givenTo T b n f) : w = v := by
  have huv : u = v := h n f c a hc ha u hu v hv
  obtain ⟨l, x⟩ := n
  cases l with
  | person =>
    obtain rfl : Adapter.people = c := Option.some.inj hc
    obtain ⟨s, hs, hgs⟩ := mem_givenTo.1 hv
    obtain ⟨s', hs', hgs'⟩ := mem_givenTo.1 hu
    obtain ⟨rfl, rfl⟩ := stub_person ha hs hgs
    rw [people_tier hF hs' hgs'] at huv
    cases huv
  | committee =>
    obtain rfl : Adapter.committees = c := Option.some.inj hc
    obtain ⟨s, hs, hgs⟩ := mem_givenTo.1 hw
    have hmerges : s.Merges (.committee, x) := by
      by_contra hm
      rw [given_eq_none hm] at hgs
      cases hgs
    rcases merges_committee hF hs hmerges with rfl | rfl
    · exact h _ f _ a hc ha w hw v hv
    · exact (h _ f _ .committeeMemberships hc (by decide) u hu w hw).symm.trans huv
  | _ => cases hc

theorem stubsHarmless_of_agree (hF : F.Normalized E)
    (h : ∀ (n : NodeKey) (f : Field) (c a : Adapter), canonicalAdapter n.1 = some c →
      a ∈ stubAdapters → ∀ u ∈ F.givenTo T c n f, ∀ v ∈ F.givenTo T a n f, u = v) :
    StubsHarmless T F g := by
  intro l₁ a s l₂ hl ha n f c hc hwritten now now'
  obtain ⟨s', hs', hgiven⟩ := hwritten
  obtain ⟨u, hu⟩ := Option.ne_none_iff_exists'.1 hgiven
  have hl' : PropGraph.Interleaves (F.statements T) ((l₁ ++ [(a, s)]) ++ l₂) := by
    rw [List.append_assoc]
    exact hl
  have hsmem : s ∈ F.statements T a := hl.mem_iff.1 (by simp)
  have hs'mem : s' ∈ F.statements T c := hl.mem_iff.1 (List.mem_append_left _ hs')
  rw [interleaved_nodeProp hF hl', interleaved_nodeProp hF hl]
  -- the canonical value makes sure that there is a last value
  cases hlast : lastValue (fun s => (s.nodeWrite n f).given) (l₁.map (·.2)) with
  | none =>
    have hnone := lastValue_eq_none.1 hlast s' (List.mem_map.2 ⟨(c, s'), hs', rfl⟩)
    exact absurd hnone hgiven
  | some w =>
    rw [List.map_append, lastValue_append, hlast]
    cases hs : (s.nodeWrite n f).given with
    | none =>
      have hstub : lastValue (fun s => (s.nodeWrite n f).given) [s] = none :=
        lastValue_eq_none.2 (List.forall_mem_singleton.2 hs)
      change ((lastValue _ [s]).or (some w)).or _ = _
      rw [hstub]
      rfl
    | some v =>
      obtain ⟨y, hy, hgy⟩ := List.mem_filterMap.1 (lastValue_mem hlast)
      obtain ⟨⟨b, y'⟩, hmem, rfl⟩ := List.mem_map.1 hy
      have hw : w ∈ F.givenTo T b n f :=
        mem_givenTo.2 ⟨y', hl.mem_iff.1 (List.mem_append_left _ hmem), hgy⟩
      have hwv : w = v := stub_keeps hF h hc ha (mem_givenTo.2 ⟨s', hs'mem, hu⟩)
        (mem_givenTo.2 ⟨s, hsmem, hs⟩) hw
      have hstub : lastValue (fun s => (s.nodeWrite n f).given) [s] = some v := by
        simp [lastValue, hs]
      change ((lastValue _ [s]).or (some w)).or _ = _
      rw [hstub, hwv]
      rfl

theorem agree_of_stubsHarmless (hF : F.Normalized E) (h : StubsHarmless T F g) {n : NodeKey}
    {f : Field} {c a : Adapter} (hc : canonicalAdapter n.1 = some c) (ha : a ∈ stubAdapters)
    {u v : Datum} (hu : u ∈ F.givenTo T c n f) (hv : v ∈ F.givenTo T a n f) : u = v := by
  have hac : a ≠ c := by
    rintro rfl
    obtain ⟨l, x⟩ := n
    cases l with
    | person => obtain rfl : Adapter.people = a := Option.some.inj hc; exact absurd ha (by decide)
    | committee =>
      obtain rfl : Adapter.committees = a := Option.some.inj hc
      exact absurd ha (by decide)
    | _ => cases hc
  obtain ⟨s, hs, hgs⟩ := mem_givenTo.1 hv
  obtain ⟨s', hs', hgs'⟩ := mem_givenTo.1 hu
  obtain ⟨p, q, hp⟩ := List.append_of_mem hs
  obtain ⟨p', q', hp'⟩ := List.append_of_mem hs'
  -- everything of the stub's adapter before the stub, then the canonical write, then the stub
  obtain ⟨l, hl⟩ := exists_interleaving_at hac hp hp'
  have hwritten : ∃ s'', (c, s'') ∈ tagged a p ++ (tagged c p' ++ [(c, s')]) ∧
      (s''.nodeWrite n f).given ≠ none := ⟨s', by simp, by simp [hgs']⟩
  have hkeep := h _ a s l hl ha n f c hc hwritten (fun _ => 0) fun _ => 0
  have hl' : PropGraph.Interleaves (F.statements T)
      ((tagged a p ++ (tagged c p' ++ [(c, s')]) ++ [(a, s)]) ++ l) := by
    rw [List.append_assoc]
    exact hl
  rw [interleaved_nodeProp hF hl', interleaved_nodeProp hF hl] at hkeep
  have hlast : ∀ (l : List (Adapter × CivicStmt)) (b : Adapter) (x : CivicStmt) (w : Datum),
      (x.nodeWrite n f).given = some w →
        lastValue (fun s => (s.nodeWrite n f).given) ((l ++ [(b, x)]).map (·.2)) = some w := by
    intro l b x w hw
    rw [List.map_append, lastValue_append]
    simp [lastValue, hw]
  rw [hlast _ a s v hgs, ← List.append_assoc, hlast _ c s' u hgs'] at hkeep
  exact (Option.some.inj hkeep).symm

/-! ## The order of the adapters -/

/-- **The order of the adapters does not matter, and stubs are harmless**, exactly when the
adapters agree on the last value each gives to a shared attribute and no stub gives a value its
canonical adapter does not give. -/
theorem adapter_order (F : Feeds) (hF : F.Normalized E) (g : CivicGraph) :
    OrderFree T F g ∧ StubsHarmless T F g ↔ AdaptersAgree T F := by
  constructor
  · rintro ⟨horder, hstubs⟩
    refine ⟨fun n hn f a b u v hu hv => ?_, fun n f c a hc ha u hu v hv => ?_⟩
    · obtain ⟨l, hl, hlu⟩ := exists_interleaving_value (g := g) hF hu
      obtain ⟨l', hl', hlv⟩ := exists_interleaving_value (g := g) hF hv
      have heq := horder l l' hl hl' (fun _ => 0) (fun _ => 0) n hn f
      rw [hlu, hlv] at heq
      exact Option.some.inj heq
    · exact agree_of_stubsHarmless hF hstubs hc ha hu hv
  · exact fun h => ⟨orderFree_of_last hF h.last, stubsHarmless_of_agree hF h.stub⟩

/-! ## One MK in the people feed and in the votes feed -/

def nightFeeds : Feeds where
  people := normalizePerson demoEnv ⟨"965", some "דנה", some "לוי"⟩
  votes := normalizeVote demoEnv ⟨"38123", "965", 1⟩

theorem nightFeeds_normalized : nightFeeds.Normalized demoEnv := by
  intro a r hr
  cases a with
  | people =>
    obtain ⟨p, hp, rfl⟩ := List.mem_map.1 hr
    exact ⟨_, hp⟩
  | votes =>
    obtain ⟨v, hv, rfl⟩ := List.mem_map.1 hr
    exact ⟨_, hv⟩
  | _ => exact absurd hr List.not_mem_nil

/-- The tier of the MK depends on which adapter runs last, and the vote's stub lowers it. -/
theorem adapter_order_fails :
    ¬OrderFree demoTime nightFeeds ∅ ∧ ¬StubsHarmless demoTime nightFeeds ∅ := by
  have hpeople : (nightFeeds.givenTo demoTime .people (.person, "knesset_person:965")
      .sourceTier).getLast? = some (.int 1) := by decide
  have hvotes : (nightFeeds.givenTo demoTime .votes (.person, "knesset_person:965")
      .sourceTier).getLast? = some (.int 2) := by decide
  constructor
  · intro h
    obtain ⟨l, hl, hu⟩ := exists_interleaving_value (g := ∅) nightFeeds_normalized hpeople
    obtain ⟨l', hl', hv⟩ := exists_interleaving_value (g := ∅) nightFeeds_normalized hvotes
    have heq := h l l' hl hl' (fun _ => 0) (fun _ => 0) (.person, "knesset_person:965") (by decide)
      .sourceTier
    rw [hu, hv] at heq
    exact absurd heq (by decide)
  · intro h
    have heq := agree_of_stubsHarmless nightFeeds_normalized h
      (n := (.person, "knesset_person:965")) (f := .sourceTier) (c := .people) (a := .votes) rfl
      (by decide) (List.mem_of_getLast? hpeople) (List.mem_of_getLast? hvotes)
    exact absurd heq (by decide)

theorem adapter_order_night :
    OrderFree demoTime nightFeeds ∅ ∧ StubsHarmless demoTime nightFeeds ∅ ↔
      AdaptersAgree demoTime nightFeeds :=
  adapter_order nightFeeds nightFeeds_normalized ∅

end CivicProof
