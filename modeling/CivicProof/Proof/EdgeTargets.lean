import CivicProof.Proof.Reingest
import CivicProof.Spec.Declaration
import CivicProof.Spec.NameStores

/-!
# What attribution edges point at

An edge takes its kind from the claim type and its id from the rows, with the claim's own id for
want of any. A row of a template names nodes of the graph, each under the key of its kind, so the
two agree where the first usable id stands under the key of the kind.

* `TemplateRecord.namesNodes`: what the rows of the templates name.
* `pointsRight_iff`: when an edge points at a node of its kind.
-/

namespace CivicProof

open PropGraph

/-! ## The nodes that rows name -/

/-- The key under which a row names a node. -/
def nodeIdKey : Label → String
  | .person => "speaker_person_id"
  | .party => "party_id"
  | .office => "office_id"
  | .committee => "committee_id"
  | .bill => "bill_id"
  | .voteEvent => "vote_event_id"
  | .attendanceEvent => "attendance_event_id"
  | .membershipTerm => "membership_term_id"
  | .positionTerm => "position_term_id"
  | .electionResult => "election_result_id"
  | .governmentDecision => "government_decision_id"

theorem nodeIdKey_injective : Function.Injective nodeIdKey := by
  intro a b h
  cases a <;> cases b <;> first | rfl | exact absurd h (by decide)

/-- The kinds of node that the rows of a claim type name. -/
def rowLabels : ClaimType → List Label
  | .voteCast => [.person, .voteEvent, .bill]
  | .billSponsorship => [.person, .bill]
  | .officeHeld => [.person, .office, .positionTerm]
  | .committeeMembership => [.person, .committee]
  | .committeeAttendance => [.person, .committee, .attendanceEvent]
  | .electionResult => [.party, .electionResult]
  | .statementAboutFormalAction => [.person]
  | .governmentDecision => [.governmentDecision]

/-- The node ids of a record are those of nodes, each under the key of its kind. -/
def Record.NamesNodes (g : CivicGraph) (kinds : List Label) (r : Record) : Prop :=
  ∃ named : List NodeKey,
    r.nodeIds = some (Dict.ofList (named.map fun n => (nodeIdKey n.1, .str n.2))) ∧
      (∀ n ∈ named, n ∈ g.nodes) ∧ ∀ n ∈ named, n.1 ∈ kinds

/-- What stands under a key of a row. -/
theorem mem_of_lookup_nodeIds {ct : ClaimType} {r : Record} {ids : List (String × Value)}
    (hids : r.nodeIds = some (Dict.ofList ids)) {key x : String}
    (h : (recordToEvidence ct r).nodeIds.lookup key = some x) :
    ∃ v, (key, v) ∈ ids ∧ v.pyStr = x := by
  unfold recordToEvidence Dict.mapValues at h
  simp only [hids, Option.getD_some] at h
  rw [AList.lookup_to_alist] at h
  obtain ⟨e, he, heq⟩ := List.mem_map.1 (List.of_mem_dlookup h)
  cases heq
  have hlookup := AList.mem_lookup_iff.2 he
  unfold Dict.ofList at hlookup
  rw [AList.lookup_to_alist] at hlookup
  obtain ⟨e', he', heq'⟩ := List.mem_map.1 (List.of_mem_dlookup hlookup)
  obtain ⟨key', v⟩ := e'
  cases heq'
  exact ⟨_, he', rfl⟩

variable {T : CypherTime} {g : CivicGraph}

/-- A named id is that of a node of the kind of its key. -/
theorem Record.NamesNodes.mem {ct : ClaimType} {kinds : List Label} {r : Record}
    (hr : r.NamesNodes g kinds) {label : Label} {x : String}
    (h : (recordToEvidence ct r).nodeIds.lookup (nodeIdKey label) = some x) :
    label ∈ kinds ∧ (label, x) ∈ g.nodes := by
  obtain ⟨named, hids, hnodes, hkinds⟩ := hr
  obtain ⟨v, hv, rfl⟩ := mem_of_lookup_nodeIds hids h
  obtain ⟨⟨kind, id⟩, hn, heq⟩ := List.mem_map.1 hv
  obtain ⟨hkey, rfl⟩ := Prod.mk.inj heq
  obtain rfl := nodeIdKey_injective hkey
  exact ⟨hkinds _ hn, hnodes _ hn⟩

/-- The row of a relationship names both its ends. -/
theorem namesNodes_of_rel {rel : RelKey} (hrel : rel ∈ g.rels) {kinds : List Label}
    (hstart : rel.2.1.1 ∈ kinds) (hend : rel.2.2.1 ∈ kinds) {r : Record}
    (hids : r.nodeIds = some (Dict.ofList
      [(nodeIdKey rel.2.1.1, .str rel.2.1.2), (nodeIdKey rel.2.2.1, .str rel.2.2.2)])) :
    r.NamesNodes g kinds := by
  refine ⟨[rel.2.1, rel.2.2], hids, ?_, ?_⟩
  · exact List.forall_mem_cons.2 ⟨(g.endpoints rel hrel).1,
      List.forall_mem_singleton.2 (g.endpoints rel hrel).2⟩
  · exact List.forall_mem_cons.2 ⟨hstart, List.forall_mem_singleton.2 hend⟩

/-- **The rows of the templates** name nodes of the graph. -/
theorem TemplateRecord.namesNodes {ct : ClaimType} {r : Record} (h : TemplateRecord T g ct r) :
    r.NamesNodes g (rowLabels ct) := by
  cases h with
  | @voteCast speaker bill _ _ _ _ hout hr =>
    obtain ⟨l, hl, rfl⟩ := hout
    obtain ⟨⟨kind, id⟩, hv, rfl⟩ := List.mem_map.1 hr
    obtain ⟨-, hkind, hcast, habout, -⟩ := Finset.mem_filter.1 (hl.mem_rows hv)
    obtain rfl : kind = .voteEvent := hkind
    refine ⟨[(.person, speaker), (.voteEvent, id), (.bill, bill)], rfl, ?_, by simp [rowLabels]⟩
    simp only [List.forall_mem_cons]
    exact ⟨(g.endpoints _ hcast).1, (g.endpoints _ hcast).2, (g.endpoints _ habout).2,
      List.forall_mem_nil _⟩
  | billSponsorship hr =>
    obtain ⟨hrel, hr⟩ := List.mem_ite_nil_right.1 hr
    obtain rfl := List.mem_singleton.1 hr
    exact namesNodes_of_rel hrel (by simp [rowLabels]) (by simp [rowLabels]) rfl
  | @officeHeld speaker office _ _ _ _ hout hr =>
    obtain ⟨terms, legacy, hterms, hlegacy, hunion⟩ := hout
    rcases (hunion.mem_iff _).1 hr with hr | hr
    · obtain ⟨⟨kind, id⟩, hpt, rfl⟩ := Multiset.mem_map.1 (hterms.mem_iff.1 hr)
      obtain ⟨-, ⟨hkind, hheld, habout⟩, -⟩ := Finset.mem_filter.1 hpt
      obtain rfl : kind = .positionTerm := hkind
      refine ⟨[(.person, speaker), (.office, office), (.positionTerm, id)], rfl, ?_,
        by simp [rowLabels]⟩
      simp only [List.forall_mem_cons]
      exact ⟨(g.endpoints _ hheld).1, (g.endpoints _ habout).2, (g.endpoints _ hheld).2,
        List.forall_mem_nil _⟩
    · obtain ⟨⟨hrel, -⟩, hr⟩ := List.mem_ite_nil_right.1 (Multiset.mem_coe.1 (hlegacy.mem_rows hr))
      obtain rfl := List.mem_singleton.1 hr
      exact namesNodes_of_rel hrel (by simp [rowLabels]) (by simp [rowLabels]) rfl
  | committeeMembership hr =>
    obtain ⟨⟨hrel, -⟩, hr⟩ := List.mem_ite_nil_right.1 hr
    obtain rfl := List.mem_singleton.1 hr
    exact namesNodes_of_rel hrel (by simp [rowLabels]) (by simp [rowLabels]) rfl
  | @committeeAttendance speaker committee _ _ _ _ hout hr =>
    obtain ⟨l, hl, rfl⟩ := hout
    obtain ⟨⟨t, ⟨kind, id⟩, b⟩, hrel, rfl⟩ := List.mem_map.1 hr
    obtain ⟨-, -, hkind, hatt, hcommittee, -⟩ := Finset.mem_filter.1 (hl.mem_rows hrel)
    obtain rfl : kind = .attendanceEvent := hkind
    refine ⟨[(.person, speaker), (.committee, committee), (.attendanceEvent, id)], rfl, ?_,
      by simp [rowLabels]⟩
    simp only [List.forall_mem_cons]
    exact ⟨(g.endpoints _ hatt).1, hcommittee, (g.endpoints _ hatt).2, List.forall_mem_nil _⟩
  | @electionResult party _ _ _ _ hout hr =>
    obtain ⟨l, hl, rfl⟩ := hout
    obtain ⟨⟨kind, id⟩, he, rfl⟩ := List.mem_map.1 hr
    obtain ⟨-, hkind, hfor, -⟩ := Finset.mem_filter.1 (hl.mem_rows he)
    obtain rfl : kind = .electionResult := hkind
    refine ⟨[(.party, party), (.electionResult, id)], rfl, ?_, by simp [rowLabels]⟩
    simp only [List.forall_mem_cons]
    exact ⟨(g.endpoints _ hfor).2, (g.endpoints _ hfor).1, List.forall_mem_nil _⟩
  | @statementAboutFormalAction speaker _ hr =>
    obtain ⟨hnode, hr⟩ := List.mem_ite_nil_right.1 hr
    obtain rfl := List.mem_singleton.1 hr
    refine ⟨[(.person, speaker)], rfl, List.forall_mem_singleton.2 hnode, by simp [rowLabels]⟩
  | governmentDecision hout hr =>
    obtain ⟨l, hl, rfl⟩ := hout
    obtain ⟨⟨kind, id⟩, hn, rfl⟩ := List.mem_map.1 hr
    obtain ⟨hnode, hkind, -⟩ := Finset.mem_filter.1 (hl.mem_rows hn)
    obtain rfl : kind = .governmentDecision := hkind
    exact ⟨[(.governmentDecision, id)], rfl,
      List.forall_mem_singleton.2 (Finmap.mem_keys.1 hnode), by simp [rowLabels]⟩

/-! ## Edges -/

variable {ct : ClaimType} {evidence : List Evidence} {claimId : String}

/-- Every row of the evidence is that of a template. -/
def FromTemplates (T : CypherTime) (g : CivicGraph) (evidence : List Evidence) : Prop :=
  ∀ row, .graph row ∈ evidence → ∃ r, TemplateRecord T g row.claimType r ∧
    row = recordToEvidence row.claimType r

/-- Some row names a node of this kind by this id. -/
def Names (evidence : List Evidence) (label : Label) (u : Uuid) : Prop :=
  ∃ row x, .graph row ∈ evidence ∧ row.nodeIds.lookup (nodeIdKey label) = some x ∧
    Uuid.parse x = some u

/-- The edge is to the claim itself, or to a node of its kind that the evidence names. -/
def PointsRight (g : CivicGraph) (evidence : List Evidence) (claimId : String)
    (edge : AttributionEdge) : Prop :=
  (edge.toObjectType = "AtomicClaim" ∧ edge.toObjectId = claimId) ∨
    ∃ n ∈ g.nodes, n.1.text = edge.toObjectType ∧
      ∃ u, Uuid.parse n.2 = some u ∧ u.str = edge.toObjectId ∧
        ∃ row, .graph row ∈ evidence ∧ row.nodeIds.lookup (nodeIdKey n.1) = some n.2

/-- The ids that the rows of a claim's type offer, each with its key. -/
def usableIds (ct : ClaimType) (evidence : List Evidence) : List (String × Uuid) :=
  evidence.flatMap fun e => match e with
    | .lexical _ => []
    | .graph row =>
      if row.claimType ≠ ct then []
      else (recordKeys ct).filterMap fun key =>
        ((orNone (row.nodeIds.lookup key)).bind Uuid.parse).map (Prod.mk key)

/-- The first usable id stands under the key of the kind that the edge has, or some node of that
kind has by chance the id that is used in its place. -/
def Aimed (ct : ClaimType) (evidence : List Evidence) (claimId : String) : Prop :=
  (usableIds ct evidence).head?.map Prod.fst = (recordKeys ct).head? ∨
    -- the claim's own, where a vote row names the bill
    (ct = .billSponsorship ∧ usableIds ct evidence = [] ∧
      ∃ u : Uuid, u.str = claimId ∧ Names evidence .bill u) ∨
    -- the office's, where another row names the term
    (ct = .officeHeld ∧ ∃ u, (usableIds ct evidence).head? = some ("office_id", u) ∧
      Names evidence .positionTerm u)

theorem extractToObjectId_eq : extractToObjectId ct evidence claimId =
    ((usableIds ct evidence).head?.map (·.2.str)).getD claimId := by
  have hsnd : (usableIds ct evidence).head?.map (·.2.str) =
      ((usableIds ct evidence).map Prod.snd).head?.map Uuid.str := by
    rw [List.head?_map, Option.map_map]
    rfl
  rw [hsnd]
  unfold extractToObjectId usableIds
  rw [List.map_flatMap]
  refine congrArg (fun l : List Uuid => (l.head?.map Uuid.str).getD claimId) ?_
  refine congrArg (fun f => evidence.flatMap f) (funext fun e => ?_)
  cases e with
  | lexical l => rfl
  | graph row =>
    by_cases hct : row.claimType = ct
    · simp only [hct, ne_eq, not_true_eq_false, if_false, List.map_filterMap]
      congr 1
      funext key
      cases (orNone (row.nodeIds.lookup key)).bind Uuid.parse <;> rfl
    · simp only [ne_eq, hct, not_false_eq_true, if_true, List.map_nil]

theorem mem_usableIds {key : String} {u : Uuid} : (key, u) ∈ usableIds ct evidence ↔
    ∃ row x, .graph row ∈ evidence ∧ row.claimType = ct ∧ key ∈ recordKeys ct ∧
      row.nodeIds.lookup key = some x ∧ Uuid.parse x = some u := by
  unfold usableIds
  rw [List.mem_flatMap]
  constructor
  · rintro ⟨e, he, hmem⟩
    cases e with
    | lexical l => exact absurd hmem List.not_mem_nil
    | graph row =>
      by_cases hct : row.claimType = ct
      · simp only [hct, ne_eq, not_true_eq_false, if_false] at hmem
        obtain ⟨key', hkey, hmap⟩ := List.mem_filterMap.1 hmem
        obtain ⟨v, hv, heq⟩ := Option.map_eq_some_iff.1 hmap
        cases heq
        obtain ⟨x, hx, hparse⟩ := Option.bind_eq_some_iff.1 hv
        exact ⟨row, x, he, hct, hkey, (Option.filter_eq_some_iff.1 hx).1, hparse⟩
      · simp only [ne_eq, hct, not_false_eq_true, if_true] at hmem
        exact absurd hmem List.not_mem_nil
  · rintro ⟨row, x, he, hct, hkey, hx, hparse⟩
    refine ⟨_, he, ?_⟩
    simp only [hct, ne_eq, not_true_eq_false, if_false]
    refine List.mem_filterMap.2 ⟨key, hkey, ?_⟩
    have hne : x ≠ "" := by
      rintro rfl
      exact Option.some_ne_none u (hparse.symm.trans (by decide))
    rw [hx, orNone_isSome hne]
    exact Option.map_eq_some_iff.2 ⟨u, hparse, rfl⟩

/-- The kind of node that a claim's record is, if it is one. -/
def recordLabel : ClaimType → Option Label
  | .voteCast => some .voteEvent
  | .billSponsorship => some .bill
  | .officeHeld => some .positionTerm
  | .electionResult => some .electionResult
  | _ => none

theorem determineToObjectType_eq (ct : ClaimType) :
    determineToObjectType ct = ((recordLabel ct).map Label.text).getD "AtomicClaim" := by
  cases ct <;> rfl

theorem head_recordKeys (ct : ClaimType) :
    (recordKeys ct).head? = (recordLabel ct).map nodeIdKey := by
  cases ct <;> rfl

/-- Only office claims have a second key. -/
theorem key_cases {key : String} (h : key ∈ recordKeys ct) :
    (recordKeys ct).head? = some key ∨ (ct = .officeHeld ∧ key = "office_id") := by
  cases ct with
  | officeHeld =>
    rcases List.mem_cons.1 h with rfl | h
    · exact Or.inl rfl
    · exact Or.inr ⟨rfl, List.mem_singleton.1 h⟩
  | voteCast | billSponsorship | electionResult =>
    obtain rfl := List.mem_singleton.1 h
    exact Or.inl rfl
  | _ => exact absurd h List.not_mem_nil

/-- A kind of record is named by the rows of its claim type, but for bills, which vote rows name
too. -/
theorem eq_of_recordLabel {ct' : ClaimType} {label : Label} (h : recordLabel ct = some label)
    (hmem : label ∈ rowLabels ct') : ct' = ct ∨ ct = .billSponsorship := by
  cases ct <;> cases h <;> cases ct' <;> first
    | exact Or.inl rfl
    | exact Or.inr rfl
    | exact absurd hmem (by decide)

theorem names_of_usable {label : Label} {u : Uuid}
    (h : (nodeIdKey label, u) ∈ usableIds ct evidence) : Names evidence label u := by
  obtain ⟨row, x, he, -, -, hx, hparse⟩ := mem_usableIds.1 h
  exact ⟨row, x, he, hx, hparse⟩

theorem usable_of_names (h : FromTemplates T g evidence) {label : Label}
    (hlabel : recordLabel ct = some label) (hct : ct ≠ .billSponsorship) {u : Uuid}
    (hu : Names evidence label u) : (nodeIdKey label, u) ∈ usableIds ct evidence := by
  obtain ⟨row, x, he, hx, hparse⟩ := hu
  obtain ⟨r, hr, heq⟩ := h row he
  rw [heq] at hx
  have hown := eq_of_recordLabel hlabel (hr.namesNodes.mem hx).1
  have hkey : nodeIdKey label ∈ recordKeys ct := by
    refine List.mem_of_mem_head? ?_
    rw [head_recordKeys, hlabel]
    rfl
  exact mem_usableIds.2 ⟨row, x, he, hown.resolve_right hct, hkey, heq ▸ hx, hparse⟩

theorem pointsRight_of_names (h : FromTemplates T g evidence) {edge : AttributionEdge} {label : Label}
    (hlabel : label.text = edge.toObjectType) {u : Uuid} (hu : u.str = edge.toObjectId)
    (hnames : Names evidence label u) : PointsRight g evidence claimId edge := by
  obtain ⟨row, x, he, hx, hparse⟩ := hnames
  obtain ⟨r, hr, heq⟩ := h row he
  have hnode : (label, x) ∈ g.nodes := (hr.namesNodes.mem (heq ▸ hx)).2
  exact Or.inr ⟨(label, x), hnode, hlabel, u, hparse, hu, row, he, hx⟩

/-- **An edge points at a node of its kind** exactly where the first usable id is such a node's. -/
theorem pointsRight_iff (attributionId declarationId : String) (claim : DecomposedClaim)
    (bundle : Bundle) (h : FromTemplates T g (bundle.topEvidence.map (·.evidence))) :
    PointsRight g (bundle.topEvidence.map (·.evidence)) claim.claimId
        (buildAttributionEdge attributionId declarationId claim bundle) ↔
      Aimed claim.claimType (bundle.topEvidence.map (·.evidence)) claim.claimId := by
  generalize hev : bundle.topEvidence.map (·.evidence) = evidence at h ⊢
  generalize hedge : buildAttributionEdge attributionId declarationId claim bundle = edge
  have htype : edge.toObjectType = determineToObjectType claim.claimType := hedge ▸ rfl
  have hid : edge.toObjectId =
      ((usableIds claim.claimType evidence).head?.map (·.2.str)).getD claim.claimId := by
    rw [← extractToObjectId_eq, ← hev, ← hedge]
    rfl
  have hhead := head_recordKeys claim.claimType
  rw [determineToObjectType_eq] at htype
  cases hlabel : recordLabel claim.claimType with
  | none =>
    -- the edge is to the claim
    rw [hlabel] at htype hhead
    have hkeys := List.head?_eq_none_iff.1 hhead
    have hnil : usableIds claim.claimType evidence = [] := by
      refine List.eq_nil_iff_forall_not_mem.2 fun e he => ?_
      obtain ⟨-, -, -, -, hkey, -⟩ := mem_usableIds.1 he
      rw [hkeys] at hkey
      exact absurd hkey List.not_mem_nil
    rw [hnil] at hid
    refine iff_of_true (Or.inl ⟨htype, hid⟩) (Or.inl ?_)
    rw [hnil, hkeys]
    rfl
  | some label =>
    rw [hlabel] at htype hhead
    have htext : label.text = edge.toObjectType := htype.symm
    constructor
    · rintro (⟨hclaim, -⟩ | ⟨⟨kind, id⟩, -, hkind, u, hparse, hu, row, he, hx⟩)
      · exact absurd (htext.trans hclaim) (by cases label <;> decide)
      obtain rfl : kind = label := Label.text_injective (hkind.trans htext.symm)
      have hnames : Names evidence kind u := ⟨row, id, he, hx, hparse⟩
      rw [hid] at hu
      cases hfirst : (usableIds claim.claimType evidence).head? with
      | none =>
        rw [hfirst] at hu
        have hnil := List.head?_eq_none_iff.1 hfirst
        by_cases hbill : claim.claimType = .billSponsorship
        · rw [hbill] at hlabel
          cases hlabel
          exact Or.inr (Or.inl ⟨hbill, hnil, u, hu, hnames⟩)
        · have hmem := usable_of_names h hlabel hbill hnames
          rw [hnil] at hmem
          exact absurd hmem List.not_mem_nil
      | some e =>
        obtain ⟨key, v⟩ := e
        rw [hfirst] at hu
        obtain rfl := Uuid.str_injective hu
        obtain ⟨-, -, -, -, hkey, -⟩ := mem_usableIds.1 (List.mem_of_mem_head? hfirst)
        rcases key_cases hkey with hown | ⟨hoffice, rfl⟩
        · exact Or.inl ((congrArg (Option.map Prod.fst) hfirst).trans hown.symm)
        · rw [hoffice] at hlabel
          cases hlabel
          exact Or.inr (Or.inr ⟨hoffice, u, hfirst, hnames⟩)
    · rintro (hfirst | ⟨hbill, hnil, u, hu, hnames⟩ | ⟨hoffice, u, hfirst, hnames⟩)
      · rw [hhead] at hfirst
        obtain ⟨⟨key, u⟩, he, rfl⟩ := Option.map_eq_some_iff.1 hfirst
        rw [he] at hid
        exact pointsRight_of_names h htext hid.symm
          (names_of_usable (List.mem_of_mem_head? he))
      · rw [hbill] at hlabel
        cases hlabel
        rw [hnil] at hid
        exact pointsRight_of_names h htext (hu.trans hid.symm) hnames
      · rw [hoffice] at hlabel
        cases hlabel
        rw [hfirst] at hid
        exact pointsRight_of_names h htext hid.symm hnames

/-! ## An office held in a graph of the first version -/

/-- A person and an office that a `HELD_OFFICE` edge joins. -/
def legacyGraph : CivicGraph where
  nodes := Finmap.insert (.person, "aaaaaaaa-0000-0000-0000-000000000001") ⟨0, none, fun _ => none⟩
    (Finmap.singleton (.office, "bbbbbbbb-0000-0000-0000-000000000002") ⟨0, none, fun _ => none⟩)
  rels := Finmap.singleton (.heldOffice, (.person, "aaaaaaaa-0000-0000-0000-000000000001"),
    (.office, "bbbbbbbb-0000-0000-0000-000000000002")) ⟨0, none, fun _ => none⟩
  endpoints r hr := by
    obtain rfl := (Finmap.mem_singleton _ _ _).1 hr
    decide

/-- The bundle of a claim about this office, with the one row that the template returns. -/
def legacyBundle (T : CypherTime) : Bundle :=
  let rows := legacyHeldRows T legacyGraph "aaaaaaaa-0000-0000-0000-000000000001"
    "bbbbbbbb-0000-0000-0000-000000000002" none none
  bundleProvenance ⟨.supported, zeroConfidence, true, []⟩
    (rerank (rows.map fun r => .graph (recordToEvidence .officeHeld r)) .officeHeld none ∅)
    ⟨"cccccccc-0000-0000-0000-000000000003", "", "", .officeHeld, fun _ => none, none, .rules, none⟩
    unknownScope .checkable

/-- The row of the edge. -/
def legacyRow : Record where
  nodeIds := some (Dict.ofList
    [("speaker_person_id", .str "aaaaaaaa-0000-0000-0000-000000000001"),
      ("office_id", .str "bbbbbbbb-0000-0000-0000-000000000002")])
  properties := some (Dict.ofList
    [("canonical_name", .null), ("office_type", .null), ("valid_from", .null), ("valid_to", .null)])
  sourceDocumentIds := some []
  sourceTier := some 1

theorem legacyGraph_rows (T : CypherTime) :
    legacyHeldRows T legacyGraph "aaaaaaaa-0000-0000-0000-000000000001"
      "bbbbbbbb-0000-0000-0000-000000000002" none none = [legacyRow] := by
  unfold legacyHeldRows
  dsimp only
  rw [if_pos (by decide)]
  rfl

theorem legacyGraph_answer (T : CypherTime) :
    OfficeHeldAnswer T legacyGraph "aaaaaaaa-0000-0000-0000-000000000001"
      "bbbbbbbb-0000-0000-0000-000000000002" none none [legacyRow] := by
  have hterms : heldTerms legacyGraph "aaaaaaaa-0000-0000-0000-000000000001"
      "bbbbbbbb-0000-0000-0000-000000000002" none none = ∅ := by decide
  refine ⟨[], [legacyRow], ?_, ?_, List.nodup_singleton _, by simp⟩
  · rw [hterms]
    exact ⟨rfl, List.Pairwise.nil⟩
  · rw [legacyGraph_rows]
    exact ⟨[legacyRow], ⟨rfl, List.pairwise_singleton _ _⟩, rfl⟩

theorem legacyBundle_evidence (T : CypherTime) : (legacyBundle T).topEvidence.map (·.evidence) =
    [.graph (recordToEvidence .officeHeld legacyRow)] := by
  unfold legacyBundle
  rw [legacyGraph_rows]
  rfl

theorem legacyBundle_fromTemplates (T : CypherTime) :
    FromTemplates T legacyGraph ((legacyBundle T).topEvidence.map (·.evidence)) := by
  intro row hrow
  rw [legacyBundle_evidence, List.mem_singleton] at hrow
  cases hrow
  exact ⟨legacyRow, .officeHeld (legacyGraph_answer T) (List.mem_singleton_self _), rfl⟩

theorem pointsRight_legacy :
    PointsRight legacyGraph ((legacyBundle demoTime).topEvidence.map (·.evidence))
        (legacyBundle demoTime).claim.claimId
        (buildAttributionEdge "" "" (legacyBundle demoTime).claim (legacyBundle demoTime)) ↔
      Aimed .officeHeld ((legacyBundle demoTime).topEvidence.map (·.evidence))
        (legacyBundle demoTime).claim.claimId :=
  pointsRight_iff "" "" (legacyBundle demoTime).claim (legacyBundle demoTime)
    (legacyBundle_fromTemplates demoTime)

/-- The edge says `PositionTerm` and gives the office's id. -/
theorem legacy_edge_astray :
    FromTemplates demoTime legacyGraph ((legacyBundle demoTime).topEvidence.map (·.evidence)) ∧
      ¬PointsRight legacyGraph ((legacyBundle demoTime).topEvidence.map (·.evidence))
        (legacyBundle demoTime).claim.claimId
        (buildAttributionEdge "" "" (legacyBundle demoTime).claim (legacyBundle demoTime)) := by
  refine ⟨legacyBundle_fromTemplates demoTime, ?_⟩
  rintro (⟨htype, -⟩ | ⟨n, hn, hkind, -⟩)
  · have hkind : determineToObjectType .officeHeld = "AtomicClaim" := htype
    exact absurd hkind (by decide)
  · have hnone : ∀ n ∈ legacyGraph.nodes.keys, n.1.text ≠ "PositionTerm" := by decide
    exact hnone n (Finmap.mem_keys.2 hn) hkind

end CivicProof
