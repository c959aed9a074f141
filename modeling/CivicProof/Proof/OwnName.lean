import CivicProof.Proof.HebrewName
import CivicProof.Proof.Ladder
import CivicProof.Spec.Adapters
import CivicProof.Spec.NameStores

/-!
# Found by its own name

The resolver normalises the name it is asked for and compares it with the names as the adapters
stored them. People are stored under the normalised name, parties under the stripped one,
committees and offices as the feed has them.

* `resolve_hebrew_iff`: when the second step resolves.
* `NamedRow.stored`: the name that an upserted row leaves in the graph.
* `own_name_iff`: which rows are found by their own name.
-/

namespace CivicProof

open CivicProof.Normal PropGraph

variable {σ : Type}

/-! ## The second step -/

/-- A result that a step of the ladder resolved to an id. -/
structure ResolvedAt (r : ResolveResult) (step : ℕ) (id : String) : Prop where
  status : r.status = .resolved
  entity : r.entityId.map Uuid.str = some id
  step : r.candidates.map (·.matchStep) = [step]

/-- The nodes of a label stored under a Hebrew name. -/
def storedUnder (S : NameStores) (label : Label) (name : String) : Finset NodeKey :=
  matching S.toLower S.graph (.hebrewExact label.text name)

theorem mem_storedUnder {S : NameStores} {label : Label} {name : String} {n : NodeKey} :
    n ∈ storedUnder S label name ↔
      n ∈ S.graph.nodes.keys ∧ n.1 = label ∧ textProp S.graph n .hebrewName = some name := by
  simp only [storedUnder, matching, nodeMatches, Finset.mem_filter, Bool.and_eq_true, beq_iff_eq,
    Label.text_injective.eq_iff]

/-- The exact lookup finds the one node stored under the name. -/
theorem lookupHebrewExact_hit (S : NameStores) (label : Label) (name : String) (s : σ) :
    ∃ hit, lookupHebrewExact S.session label.text name s = (.ok hit, s) ∧
      ∀ u, hit = some u ↔ storedUnder S label name = {entityKey label u} := by
  have hlen : (S.found (.hebrewExact label.text name)).length = 1 ↔
      (storedUnder S label name).card = 1 := NameStores.length_found_eq_one le_rfl
  have hrun : S.session (.hebrewExact label.text name) s =
      (.ok (S.rows (.hebrewExact label.text name)), s) := rfl
  unfold lookupHebrewExact
  rw [Eff.bind_of_ok hrun]
  have hmem : ∀ n ∈ S.found (.hebrewExact label.text name), n ∈ storedUnder S label name :=
    fun n hn => NameStores.mem_matching hn
  have hnone : (S.found (.hebrewExact label.text name)).length ≠ 1 →
      ∀ u, (none : Option Uuid) = some u ↔ storedUnder S label name = {entityKey label u} := by
    intro hne u
    refine iff_of_false (fun h => Option.some_ne_none u h.symm) fun hone => hne (hlen.2 ?_)
    rw [hone, Finset.card_singleton]
  unfold NameStores.rows
  rcases hfound : S.found (.hebrewExact label.text name) with _ | ⟨n, _ | ⟨n', rest⟩⟩
  · rw [hfound] at hnone
    exact ⟨none, rfl, hnone (Nat.zero_ne_one)⟩
  · rw [hfound] at hlen hmem
    obtain ⟨m, hone⟩ := Finset.card_eq_one.1 (hlen.1 rfl)
    have hn := hmem n List.mem_cons_self
    obtain ⟨hkey, hlabel, -⟩ := mem_storedUnder.1 hn
    obtain ⟨u, hu⟩ := S.ids n hkey
    have hnu : n = entityKey label u := Prod.ext hlabel hu
    rw [hone, Finset.mem_singleton] at hn
    refine ⟨some u, ?_, fun v => ?_⟩
    · have hparse : (uuidOrRaise n.2 : Eff σ Uuid) = pure u := by
        rw [uuidOrRaise, hu, Uuid.parse_str]
      change ((uuidOrRaise n.2 : Eff σ Uuid) >>= fun id => pure (some id)) s = _
      rw [hparse]
      rfl
    · rw [hone, ← hn, hnu, Finset.singleton_inj, (entityKey_injective label).eq_iff,
        Option.some.injEq]
  · rw [hfound] at hnone
    exact ⟨none, rfl, hnone (by rw [List.length_cons, List.length_cons]; omega)⟩

/-- **The second step resolves** iff one node of the kind is stored under the normalised name. -/
theorem resolve_hebrew_iff {U : Unicode} {fuzz : Option RapidFuzz} {kind : EntityKind}
    {label : Label} {field : String} (hlabel : labelByKind kind = some (label.text, field))
    {S : NameStores} {args : ResolveArgs σ} {h : String} (hname : args.hebrewName = some h)
    (hne : h ≠ "") (hext : args.externalIds = []) (hsession : args.session = some S.session)
    (id : String) (s : σ) :
    (∃ r s', resolve U fuzz kind args s = (.ok r, s') ∧ ResolvedAt r 2 id) ↔
      storedUnder S label (normalizeHebrew U h) = {(label, id)} := by
  obtain ⟨hit, hlookup, hhit⟩ := lookupHebrewExact_hit S label (normalizeHebrew U h) s
  have hhe : orNone args.hebrewName = some h := by
    rw [hname, orNone_isSome hne]
  obtain ⟨rest, hsteps, hnums⟩ : ∃ rest, ladderSteps U fuzz kind label.text args =
      (1, pure []) :: (2, do return (← lookupHebrewExact S.session label.text
        (normalizeHebrew U h)).toList.map fun id => ⟨id, 2, "hebrew_exact", 95⟩) :: rest ∧
      rest.map Prod.fst = [3, 3, 4, 5] := by
    unfold ladderSteps
    simp only [hhe, hsession, hext]
    exact ⟨_, rfl, rfl⟩
  have hclimb : climb [] (ladderSteps U fuzz kind label.text args) s =
      climb (hit.toList.map fun id => ⟨id, 2, "hebrew_exact", 95⟩) rest s := by
    have hsecond : ladderStep [] ((do return (← lookupHebrewExact S.session label.text
        (normalizeHebrew U h)).toList.map fun id => ⟨id, 2, "hebrew_exact", 95⟩)) s =
        (.ok (hit.toList.map fun id => ⟨id, 2, "hebrew_exact", 95⟩), s) := by
      change ((lookupHebrewExact S.session label.text (normalizeHebrew U h)) >>= _) s = _
      rw [Eff.bind_of_ok hlookup]
      rfl
    rw [hsteps, climb, Eff.bind_of_ok (rfl : ladderStep [] (pure []) s = (.ok [], s)), climb,
      Eff.bind_of_ok hsecond]
  have hlater : ∀ step ∈ rest, step.1 ≠ 2 ∧ Numbered step.1 step.2 := by
    intro step hstep
    have hnum : ∀ n ∈ rest.map Prod.fst, n ≠ 2 := by
      rw [hnums]
      decide
    have hmem : step ∈ ladderSteps U fuzz kind label.text args := by
      rw [hsteps]
      exact List.mem_cons_of_mem _ (List.mem_cons_of_mem _ hstep)
    exact ⟨hnum _ (List.mem_map_of_mem hstep), ladderSteps_numbered step hmem⟩
  cases hit with
  | some u =>
    have hcands : climb [] (ladderSteps U fuzz kind label.text args) s =
        (.ok [⟨u, 2, "hebrew_exact", 95⟩], s) := by
      rw [hclimb]
      exact climb_of_ne_nil (List.cons_ne_nil _ _) s
    have hresolve : resolve U fuzz kind args s =
        (.ok ⟨.resolved, some u, [⟨u, 2, "hebrew_exact", 95⟩]⟩, s) := by
      unfold resolve
      rw [hlabel]
      dsimp only
      rw [ladderCandidates_eq, Eff.bind_of_ok hcands]
      rfl
    rw [(hhit u).1 rfl, Finset.singleton_inj]
    constructor
    · rintro ⟨r, s', hr, hat⟩
      rw [hresolve] at hr
      cases hr
      exact Prod.ext rfl (Option.some.inj hat.entity)
    · intro hid
      exact ⟨_, s, hresolve, rfl, congrArg some (Prod.mk.inj hid).2, rfl⟩
  | none =>
    constructor
    · rintro ⟨r, s', hr, hat⟩
      obtain ⟨label', field', cs, t, hlabel', hcs, hexit⟩ := resolve_ok hr
      rw [hlabel] at hlabel'
      cases hlabel'
      have hstep := hat.step
      rw [hexit.candidates] at hstep
      rw [hclimb] at hcs
      rcases climb_ok hcs with ⟨hnil, -⟩ | ⟨-, before, step, after, t', heq, -, hrun⟩
      · rw [hnil] at hstep
        cases hstep
      · obtain ⟨hne2, hnumbered⟩ := hlater step (heq ▸ List.mem_append_right _ List.mem_cons_self)
        obtain ⟨c, rest, rfl⟩ : ∃ c rest, cs = c :: rest := by
          cases cs with
          | nil => cases hstep
          | cons c rest => exact ⟨c, rest, rfl⟩
        rw [List.map_cons] at hstep
        exact absurd ((hnumbered _ _ _ hrun c List.mem_cons_self).symm.trans (List.cons.inj hstep).1)
          hne2
    · intro hone
      have hmem : (label, id) ∈ storedUnder S label (normalizeHebrew U h) := by
        rw [hone]
        exact Finset.mem_singleton_self _
      obtain ⟨u, hu⟩ := S.ids _ (mem_storedUnder.1 hmem).1
      obtain rfl : id = u.str := hu
      cases (hhit u).2 hone

/-! ## Rows with a Hebrew name -/

/-- A row of a feed that names a person, a committee, a party or an office. -/
inductive NamedRow where
  | person (row : PersonRow)
  | committee (row : CommitteeRow)
  /-- The faction of a position. -/
  | faction (row : PositionRow)
  /-- The office of a position. -/
  | office (row : PositionRow)
  /-- A list on an election page. -/
  | electionList (row : ParsedElectionRow) (page : ParsedElectionPage)

namespace NamedRow

/-- The kind of the entity named. -/
def kind : NamedRow → EntityKind
  | .person _ => .person
  | .committee _ => .committee
  | .faction _ => .party
  | .office _ => .office
  | .electionList _ _ => .party

/-- Its label in the graph. -/
def label : NamedRow → Label
  | .person _ => .person
  | .committee _ => .committee
  | .faction _ => .party
  | .office _ => .office
  | .electionList _ _ => .party

/-- The Hebrew name, as the feed has it. A person's is the first name and the last name. -/
def hebrewName : NamedRow → Option String
  | .person row => some (row.firstNameHe.getD "" ++ " " ++ row.lastNameHe.getD "")
  | .committee row => row.nameHe
  | .faction row => row.factionName
  | .office row =>
    officeCanonicalName (officeType row.positionId row.dutyDesc) row.govMinistryName row.dutyDesc
  | .electionList row _ => some row.listName

variable (E : IngestEnv)

/-- The deterministic id of the entity named. -/
def entityId : NamedRow → Option String
  | .person row => some (extUuid E "knesset_person" row.personIdExternal)
  | .committee row => some (extUuid E "knesset_committee" row.committeeIdExternal)
  | .faction row => (orNone row.factionIdExternal).map (extUuid E "knesset_party")
  | .office row => row.positionId.map fun p => officeIdOf E p row.govMinistryId
  | .electionList row page => resolvePartyId E page.knessetNumber row.ballotLetters

/-- The records its normalizer produces. -/
def records : NamedRow → List IngestRecord
  | .person row => (normalizePerson E row).map .person
  | .committee row => (normalizeCommittee E row).map .committee
  | .faction row => (normalizePosition E row).map .position
  | .office row => (normalizePosition E row).map .position
  | .electionList row page => ((normalizeElectionResult E row page).getD []).map .electionResult

/-- The name stored for the row, where its feed has the name `h`. -/
def storedName (U : Unicode) (h : String) : NamedRow → String
  | .person _ => normalizeHebrew U h
  | .faction row => (orNone (some (strip h))).getD ("party:" ++ (orNone row.factionIdExternal).getD "")
  | .committee _ => h
  | .office _ => h
  | .electionList _ _ => h

/-- The adapter stores the name `h` as the resolver looks for it. -/
def StoredNormal (U : Unicode) (h : String) : NamedRow → Prop
  | .person _ => True
  | .faction _ => strip h = normalizeHebrew U h
  | .committee _ => h = normalizeHebrew U h
  | .office _ => h = normalizeHebrew U h
  | .electionList _ _ => h = normalizeHebrew U h

theorem labelByKind_kind (row : NamedRow) :
    ∃ field, labelByKind row.kind = some (row.label.text, field) := by
  cases row <;> exact ⟨_, rfl⟩

/-! ## Names that are left after normalising -/

variable {U : Unicode} {D : Charset Char} (hU : UnicodeData U D)

include hU

theorem strip_ne_empty {h : String} (hne : normalizeHebrew U h ≠ "") : strip h ≠ "" := by
  intro hstrip
  refine hne (String.toList_inj.1 ?_)
  rw [hU.normalizeHebrew_eq]
  rcases hwords : words isSpace (unpointed h) with _ | ⟨w, ws⟩
  · rfl
  · have hw := words_spec (unpointed h) w (hwords ▸ List.mem_cons_self)
    obtain ⟨c, hc⟩ := List.exists_mem_of_ne_nil w hw.1
    obtain ⟨hmem, hsep⟩ := hw.2 c hc
    have hstays := mem_strip (List.mem_filter.1 hmem).1 hsep
    rw [hstrip] at hstays
    exact absurd hstays List.not_mem_nil

theorem storedName_eq_iff {h : String} (hne : normalizeHebrew U h ≠ "") (row : NamedRow) :
    row.storedName U h = normalizeHebrew U h ↔ row.StoredNormal U h := by
  cases row with
  | person row => exact iff_of_true rfl trivial
  | faction row =>
    unfold storedName StoredNormal
    rw [orNone_isSome (strip_ne_empty hU hne)]
    rfl
  | committee row => exact Iff.rfl
  | office row => exact Iff.rfl
  | electionList row page => exact Iff.rfl

/-- A person's name, normalised in one piece or in two. -/
theorem personHebrewName_eq {E : IngestEnv} (hE : E.unicode = U) {row : PersonRow}
    (hne : normalizeHebrew U (row.firstNameHe.getD "" ++ " " ++ row.lastNameHe.getD "") ≠ "") :
    personHebrewName E row =
      some (normalizeHebrew U (row.firstNameHe.getD "" ++ " " ++ row.lastNameHe.getD "")) := by
  unfold personHebrewName
  rw [hE]
  generalize row.firstNameHe.getD "" = first at hne ⊢
  generalize row.lastNameHe.getD "" = last at hne ⊢
  have hwhole : (normalizeHebrew U (first ++ " " ++ last)).toList =
      joined ' ' ((words isSpace (unpointed first)).map D.nfc ++
        (words isSpace (unpointed last)).map D.nfc) := by
    have hcut : unpointed (first ++ " " ++ last) = unpointed first ++ ' ' :: unpointed last := by
      unfold unpointed
      rw [String.toList_append, String.toList_append, List.filter_append, List.filter_append,
        List.append_assoc]
      rfl
    rw [hU.normalizeHebrew_eq, hcut, words_append rfl, List.map_append]
  have hempty : ∀ s, normalizeHebrew U s = "" ↔ (words isSpace (unpointed s)).map D.nfc = [] := by
    intro s
    rw [← hU.words_normalizeHebrew]
    constructor
    · intro h
      rw [h]
      exact words_nil
    · intro h
      apply String.toList_inj.1
      rw [hU.words_normalizeHebrew] at h
      rw [hU.normalizeHebrew_eq, h]
      rfl
  by_cases hfirst : normalizeHebrew U first = ""
  · have hlast : normalizeHebrew U (first ++ " " ++ last) = normalizeHebrew U last := by
      apply String.toList_inj.1
      rw [hwhole, (hempty first).1 hfirst, hU.normalizeHebrew_eq, List.nil_append]
    rw [hlast] at hne ⊢
    simp [hfirst, hne, joinWith]
  by_cases hlast : normalizeHebrew U last = ""
  · have hboth : normalizeHebrew U (first ++ " " ++ last) = normalizeHebrew U first := by
      apply String.toList_inj.1
      rw [hwhole, (hempty last).1 hlast, hU.normalizeHebrew_eq, List.append_nil]
    rw [hboth]
    simp [hfirst, hlast, joinWith]
  · have hboth : normalizeHebrew U (first ++ " " ++ last) =
        normalizeHebrew U first ++ " " ++ normalizeHebrew U last := by
      apply String.toList_inj.1
      have hne₁ := fun h => hfirst ((hempty first).2 h)
      have hne₂ := fun h => hlast ((hempty last).2 h)
      rw [hwhole, joined_append hne₁ hne₂, String.toList_append, String.toList_append,
        hU.normalizeHebrew_eq, hU.normalizeHebrew_eq, List.append_assoc]
      rfl
    rw [hboth]
    simp [hfirst, hlast, joinWith]

end NamedRow

/-! ## What the templates store -/

open Cypher

theorem personUpsert_name (id : String) (c e x : Option String) (t : Option ℤ) (name : String) :
    ((personUpsert id c (some name) e x t).nodeWrite (.person, id) .hebrewName).given =
      some (.text name) := by
  rw [personUpsert, Stmt.nodeWrite_mergeNode]
  rfl

theorem partyUpsert_name (id : String) (c e a : Option String) (name : String) :
    ((partyUpsert id c (some name) e a).nodeWrite (.party, id) .hebrewName).given =
      some (.text name) := by
  rw [partyUpsert, Stmt.nodeWrite_mergeNode]
  rfl

theorem committeeUpsert_name (id : String) (c e : Option String) (name : String) :
    ((committeeUpsert id c (some name) e).nodeWrite (.committee, id) .hebrewName).given =
      some (.text name) := by
  rw [committeeUpsert, Stmt.nodeWrite_mergeNode]
  rfl

theorem officeUpsert_name (id : String) (c e t x : Option String) (name : String) :
    ((officeUpsert id c (some name) e t x).nodeWrite (.office, id) .hebrewName).given =
      some (.text name) := by
  rw [officeUpsert, Stmt.nodeWrite_mergeNode]
  rfl

/-- The statements of a position on its party. -/
theorem upsertPosition_party {T : CypherTime} {b : NormalizedPositionBundle}
    {p : NormalizedPartyMembership} (hp : b.party = some p) {s : CivicStmt}
    (hs : s ∈ upsertPosition T b) (hm : s.Merges (.party, p.partyId)) :
    s = partyUpsert p.partyId (some p.partyName) (some p.partyName) none none := by
  rcases mem_upsertPosition.1 hs with rfl | ⟨p', hp', rfl | rfl⟩ | ⟨o, -, rfl | rfl⟩ |
    ⟨pt, -, rfl | rfl | rfl⟩
  · cases hm
  · rw [hp] at hp'
    cases hp'
    rfl
  · cases hm
  · cases hm
  · cases hm
  · cases hm
  · cases hm
  · cases hm

/-- The statements of a position on its office. -/
theorem upsertPosition_office {T : CypherTime} {b : NormalizedPositionBundle}
    {o : NormalizedOfficeHeld} (ho : b.office = some o) {s : CivicStmt}
    (hs : s ∈ upsertPosition T b) (hm : s.Merges (.office, o.officeId)) :
    s = officeUpsert o.officeId o.canonicalName o.canonicalName none (some o.officeType)
      (some o.scope) := by
  rcases mem_upsertPosition.1 hs with rfl | ⟨p, -, rfl | rfl⟩ | ⟨o', ho', rfl | rfl⟩ |
    ⟨pt, -, rfl | rfl | rfl⟩
  · cases hm
  · cases hm
  · cases hm
  · rw [ho] at ho'
    cases ho'
    rfl
  · cases hm
  · cases hm
  · cases hm
  · cases hm

/-- An upserted row, with the stores of the graph it was upserted into. -/
structure Upserted (E : IngestEnv) (row : NamedRow) (h id : String) (S : NameStores) : Prop where
  name : row.hebrewName = some h
  id : row.entityId E = some id
  run : ∃ r ∈ row.records E, ∃ (T : CypherTime) (nowIso : String) (now : ℕ → ℤ) (g : CivicGraph),
    (∀ s ∈ r.statements T nowIso, s.refused = false) ∧ S.graph = run now (r.statements T nowIso) g

namespace NamedRow

variable {E : IngestEnv} {U : Unicode} {D : Charset Char}

/-- The statement of a record that names the row's entity. -/
theorem naming_statement (hU : UnicodeData E.unicode D) {row : NamedRow} {r : IngestRecord}
    (hr : r ∈ row.records E) {h id : String} (hname : row.hebrewName = some h)
    (hid : row.entityId E = some id) (hne : normalizeHebrew E.unicode h ≠ "") (T : CypherTime)
    (nowIso : String) : ∃ t ∈ r.statements T nowIso,
      (∀ s ∈ r.statements T nowIso, s.Merges (row.label, id) → s = t) ∧
      (t.nodeWrite (row.label, id) .hebrewName).given = some (.text (row.storedName E.unicode h)) := by
  cases row with
  | person row =>
    obtain rfl := List.mem_singleton.1 hr
    cases hname
    cases hid
    refine ⟨_, List.mem_cons_self, fun s hs _ => List.mem_singleton.1 hs, ?_⟩
    rw [personHebrewName_eq hU rfl hne]
    exact personUpsert_name ..
  | committee row =>
    obtain rfl := List.mem_singleton.1 hr
    cases hid
    obtain ⟨id, name⟩ := row
    obtain rfl : name = some h := hname
    exact ⟨_, List.mem_cons_self, fun s hs _ => List.mem_singleton.1 hs, committeeUpsert_name ..⟩
  | faction row =>
    obtain ⟨b, hb, rfl⟩ := List.mem_map.1 hr
    obtain ⟨start, -, rfl⟩ := mem_normalizePosition hb
    obtain ⟨faction, hfaction, rfl⟩ := Option.map_eq_some_iff.1 hid
    obtain hname : row.factionName = some h := hname
    have hparty : partyLane E row start = some
        { partyId := extUuid E "knesset_party" faction
          partyName := (orNone (some (strip h))).getD ("party:" ++ faction)
          validFrom := start
          validTo := row.finishDate } := by
      rw [partyLane, hfaction, hname]
      rfl
    refine ⟨_, mem_upsertPosition.2 (Or.inr (Or.inl ⟨_, hparty, Or.inl rfl⟩)),
      fun s hs hm => upsertPosition_party hparty hs hm, ?_⟩
    have hstored : (NamedRow.faction row).storedName E.unicode h =
        (orNone (some (strip h))).getD ("party:" ++ faction) := by
      change (orNone (some (strip h))).getD ("party:" ++ (orNone row.factionIdExternal).getD "") = _
      rw [hfaction]
      rfl
    rw [hstored]
    exact partyUpsert_name ..
  | office row =>
    obtain ⟨b, hb, rfl⟩ := List.mem_map.1 hr
    obtain ⟨start, -, rfl⟩ := mem_normalizePosition hb
    obtain ⟨p, hp, rfl⟩ := Option.map_eq_some_iff.1 hid
    have hoffice : row.positionId.map (fun p => officeLane E row p start) =
        some (officeLane E row p start) := by
      rw [hp]
      rfl
    have hcanonical : (officeLane E row p start).canonicalName = some h := by
      rw [← hname, hebrewName, hp]
      rfl
    refine ⟨_, mem_upsertPosition.2 (Or.inr (Or.inr (Or.inl ⟨_, hoffice, Or.inl rfl⟩))),
      fun s hs hm => upsertPosition_office hoffice hs hm, ?_⟩
    rw [hcanonical]
    exact officeUpsert_name ..
  | electionList row page =>
    obtain ⟨l, hl, rfl⟩ := List.mem_map.1 hr
    cases hname
    unfold normalizeElectionResult at hl
    split at hl
    · cases hl
    · obtain hid : resolvePartyId E page.knessetNumber row.ballotLetters = some id := hid
      rw [hid] at hl
      obtain rfl := List.mem_singleton.1 hl
      refine ⟨_, List.mem_cons_self, fun s hs hm => ?_, partyUpsert_name ..⟩
      rcases List.mem_cons.1 hs with rfl | hs
      · rfl
      rcases List.mem_cons.1 hs with rfl | hs
      · cases hm
      · obtain rfl := List.mem_singleton.1 hs
        cases hm

theorem records_normalized {row : NamedRow} {r : IngestRecord} (hr : r ∈ row.records E) :
    r.Normalized E := by
  cases row with
  | person row =>
    obtain ⟨x, hx, rfl⟩ := List.mem_map.1 hr
    exact ⟨row, hx⟩
  | committee row =>
    obtain ⟨x, hx, rfl⟩ := List.mem_map.1 hr
    exact ⟨row, hx⟩
  | faction row =>
    obtain ⟨x, hx, rfl⟩ := List.mem_map.1 hr
    exact ⟨row, hx⟩
  | office row =>
    obtain ⟨x, hx, rfl⟩ := List.mem_map.1 hr
    exact ⟨row, hx⟩
  | electionList row page =>
    obtain ⟨x, hx, rfl⟩ := List.mem_map.1 hr
    cases hl : normalizeElectionResult E row page with
    | none =>
      rw [hl] at hx
      cases hx
    | some l =>
      rw [hl] at hx
      exact ⟨row, page, l, hl, hx⟩

/-- **The name that an upserted row leaves in the graph.** -/
theorem stored (hU : UnicodeData E.unicode D) {row : NamedRow} {h id : String} {S : NameStores}
    (hup : Upserted E row h id S) (hne : normalizeHebrew E.unicode h ≠ "") :
    textProp S.graph (row.label, id) .hebrewName = some (row.storedName E.unicode h) := by
  obtain ⟨r, hr, T, nowIso, now, g, hok, hgraph⟩ := hup.run
  obtain ⟨t, ht, honly, hgiven⟩ := naming_statement hU hr hup.name hup.id hne T nowIso
  have hself := (records_normalized hr).selfContained (T := T) nowIso
  have hclosed := hself.closed.mono fun n (hn : False) => (hn.elim : n ∈ g.nodes)
  unfold textProp
  rw [hgraph, run_nodeProp_given hself.regular hclosed hok now ht honly hgiven]
  rfl

end NamedRow

/-- A node with a property is a node. -/
theorem mem_keys_of_textProp {g : CivicGraph} {n : NodeKey} {f : Field} {name : String}
    (h : textProp g n f = some name) : n ∈ g.nodes.keys := by
  rw [Finmap.mem_keys, ← Finmap.lookup_isSome]
  cases hlookup : g.nodes.lookup n with
  | some e => rfl
  | none =>
    unfold textProp Graph.nodeProp at h
    rw [hlookup] at h
    cases h

/-- No other node of the kind has the same normalised name. -/
def NameUnshared (U : Unicode) (S : NameStores) (label : Label) (id h : String) : Prop :=
  ∀ n ∈ S.graph.nodes.keys, n.1 = label → n ≠ (label, id) →
    ∀ name, textProp S.graph n .hebrewName = some name →
      normalizeHebrew U name ≠ normalizeHebrew U h

/-- **Found by its own name**: an upserted row is resolved at the second step iff its adapter
stores the normalised name and, where that name came from presentation forms, no other node of
the kind is stored under it. -/
theorem own_name_iff {E : IngestEnv} {D : Charset Char} (hU : UnicodeData E.unicode D)
    {row : NamedRow} {h id : String} {S : NameStores} (hup : Upserted E row h id S)
    (hne : normalizeHebrew E.unicode h ≠ "") (halone : NameUnshared E.unicode S row.label id h)
    {fuzz : Option RapidFuzz} {args : ResolveArgs σ} (hname : args.hebrewName = some h)
    (hext : args.externalIds = []) (hsession : args.session = some S.session) (s : σ) :
    (∃ r s', resolve E.unicode fuzz row.kind args s = (.ok r, s') ∧ ResolvedAt r 2 id) ↔
      row.StoredNormal E.unicode h ∧
        (Unpresented D h ∨
          storedUnder S row.label (normalizeHebrew E.unicode h) ⊆ {(row.label, id)}) := by
  obtain ⟨field, hlabel⟩ := row.labelByKind_kind
  have hne' : h ≠ "" := by
    rintro rfl
    exact hne rfl
  have hstored := row.stored hU hup hne
  have hmem : (row.label, id) ∈ storedUnder S row.label (normalizeHebrew E.unicode h) ↔
      row.StoredNormal E.unicode h := by
    rw [mem_storedUnder, hstored, Option.some.injEq, row.storedName_eq_iff hU hne]
    exact ⟨fun hin => hin.2.2, fun hnormal => ⟨mem_keys_of_textProp hstored, rfl, hnormal⟩⟩
  rw [resolve_hebrew_iff hlabel hname hne' hext hsession, ← hmem,
    Finset.eq_singleton_iff_unique_mem]
  refine and_congr_right fun _ => ⟨fun hall => Or.inr fun n hn => Finset.mem_singleton.2 (hall n hn),
    fun hor n hn => ?_⟩
  rcases hor with hun | hsub
  · obtain ⟨hkey, hlab, hprop⟩ := mem_storedUnder.1 hn
    by_contra hother
    refine halone n hkey hlab hother _ hprop ?_
    exact hU.normalizeHebrew_again ((hU.normalizeHebrew_bare h).2 hun)
  · exact Finset.mem_singleton.1 (hsub hn)

/-! ## A name that is found and one that is not -/

/-- The stores of a graph that holds one node. -/
def soleStores (label : Label) (u : Uuid) (items : List CivicItem) : NameStores :=
  .ofOrder (run (fun _ => 0) [.mergeNode (entityKey label u) (some items)] ∅) [entityKey label u]
    (List.nodup_singleton _)
    (by
      ext n
      rw [List.mem_toFinset, List.mem_singleton, Finmap.mem_keys]
      change n = _ ↔ n ∈ (∅ : Finmap fun _ : NodeKey => Entity Field Datum).insert _ _
      rw [Finmap.mem_insert]
      simp [Finmap.notMem_empty])
    (fun n hn => ⟨u, by rw [List.mem_singleton.1 hn]; rfl⟩) id fun _ _ _ => []

theorem mem_soleStores {label : Label} {u : Uuid} {items : List CivicItem} {n : NodeKey}
    (h : n ∈ (soleStores label u items).graph.nodes.keys) : n = (label, u.str) := by
  rw [Finmap.mem_keys] at h
  change n ∈ (∅ : Finmap fun _ : NodeKey => Entity Field Datum).insert _ _ at h
  rw [Finmap.mem_insert] at h
  exact h.resolve_right Finmap.notMem_empty

theorem nameUnshared_soleStores (U : Unicode) (label : Label) (u : Uuid) (items : List CivicItem)
    (h : String) : NameUnshared U (soleStores label u items) label u.str h :=
  fun _ hn _ hother => absurd (mem_soleStores hn) hother

/-- An adapter whose ids are all the same. -/
def oneIdEnv : IngestEnv where
  unicode := shinDotText
  uuid5 _ := (repeated 'a' isHexDigit_a).str
  lookup _ := none
  voteShare _ := 0
  thresholdVotes _ := 0

/-- A person whose names have a point and a blank too many. -/
def pointedPerson : NamedRow :=
  .person ⟨"1", some "\u05E9\u05C1\u05D9", some " \u05DC\u05D5\u05D9"⟩

/-- The stores after that person was upserted. -/
def pointedStores : NameStores :=
  soleStores .person (repeated 'a' isHexDigit_a)
    (personUpsert (repeated 'a' isHexDigit_a).str (some "\u05E9\u05D9 \u05DC\u05D5\u05D9")
      (some "\u05E9\u05D9 \u05DC\u05D5\u05D9") none
      (some (jsonDumps [("knesset_person_id", "1")])) (some 1)).items

theorem pointedStores_upserted :
    Upserted oneIdEnv pointedPerson "\u05E9\u05C1\u05D9  \u05DC\u05D5\u05D9"
      (repeated 'a' rfl).str pointedStores where
  name := rfl
  id := rfl
  run := ⟨_, List.mem_cons_self, ⟨fun _ => none, fun _ => ""⟩, "", fun _ => 0, ∅, by decide, rfl⟩

theorem own_name_pointed : ∃ r s', resolve oneIdEnv.unicode none .person
      { hebrewName := some "\u05E9\u05C1\u05D9  \u05DC\u05D5\u05D9"
        session := some pointedStores.session } () = (.ok r, s') ∧
    ResolvedAt r 2 (repeated 'a' rfl).str := by
  have hplain : Unpresented shinDot "\u05E9\u05C1\u05D9  \u05DC\u05D5\u05D9" := by
    unfold Unpresented
    decide
  exact (own_name_iff shinDotData pointedStores_upserted (by decide)
    (nameUnshared_soleStores _ _ _ _ _) rfl rfl rfl ()).2 ⟨trivial, Or.inl hplain⟩

/-- A committee with two blanks in its name. -/
def spacedCommittee : NamedRow := .committee ⟨"2", some "ועדת  הכספים"⟩

/-- The stores after that committee was upserted. -/
def spacedStores : NameStores :=
  soleStores .committee (repeated 'a' isHexDigit_a)
    (committeeUpsert (repeated 'a' isHexDigit_a).str (some "ועדת  הכספים") (some "ועדת  הכספים") none).items

/-- **A committee whose feed has two blanks in its name** is not found by this name. -/
theorem own_name_missed :
    Upserted oneIdEnv spacedCommittee "ועדת  הכספים" (repeated 'a' rfl).str spacedStores ∧
      NameUnshared oneIdEnv.unicode spacedStores .committee (repeated 'a' rfl).str "ועדת  הכספים" ∧
      ¬∃ r s', resolve oneIdEnv.unicode none .committee
          { hebrewName := some "ועדת  הכספים", session := some spacedStores.session } () =
            (.ok r, s') ∧ ResolvedAt r 2 (repeated 'a' rfl).str := by
  have hup : Upserted oneIdEnv spacedCommittee "ועדת  הכספים" (repeated 'a' rfl).str spacedStores :=
    ⟨rfl, rfl, _, List.mem_cons_self, ⟨fun _ => none, fun _ => ""⟩, "", fun _ => 0, ∅, by decide, rfl⟩
  refine ⟨hup, nameUnshared_soleStores _ _ _ _ _, ?_⟩
  have hlabel : labelByKind .committee = some (Label.committee.text, "committee_id") := rfl
  rw [resolve_hebrew_iff hlabel rfl (by decide) rfl rfl, Finset.eq_singleton_iff_unique_mem]
  rintro ⟨hmem, -⟩
  have hstored := (mem_storedUnder.1 hmem).2.2
  have hown : textProp spacedStores.graph (.committee, (repeated 'a' rfl).str) .hebrewName =
      some "ועדת  הכספים" := spacedCommittee.stored shinDotData hup (by decide)
  rw [hown] at hstored
  revert hstored
  decide

end CivicProof
