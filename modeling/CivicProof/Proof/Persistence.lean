import CivicProof.Proof.Decompose
import CivicProof.Proof.Pipeline
import CivicProof.Spec.Persistence

/-!
# Persisting decomposed claims

`persist_statement` on the tables of the migration: what the CHECK constraints ask of a row, and
what a decomposition can produce.

* `row_check_iff`: which claims pass the constraints.
* `persistStatement_ok_iff`, `Persisted.of_ok`: when the call ends normally, and what it has stored.
* `persist_decomposed_iff`: for which statements and claims that is the case.
-/

namespace CivicProof

open Transact

/-! ## Storable values -/

theorem storableText_iff {s : String} : storableText s = true ↔ '\x00' ∉ s.toList := decide_eq_true_iff

theorem storableText_append {s t : String} (hs : storableText s = true) (ht : storableText t = true) :
    storableText (s ++ t) = true := by
  rw [storableText_iff, String.toList_append, List.mem_append, not_or]
  exact ⟨storableText_iff.1 hs, storableText_iff.1 ht⟩

theorem storableFields_iff {l : List (String × Json)} : Json.storableFields l = true ↔
    ∀ e ∈ l, storableText e.1 = true ∧ e.2.storable = true := by
  induction l with
  | nil => simp [Json.storableFields]
  | cons e l ih =>
    obtain ⟨k, x⟩ := e
    rw [Json.storableFields, Bool.and_eq_true, Bool.and_eq_true, ih, List.forall_mem_cons]

theorem obj_storable {l : List (String × Json)} : (Json.obj l).storable = true ↔
    ∀ e ∈ l, storableText e.1 = true ∧ e.2.storable = true := by
  rw [Json.storable, storableFields_iff]

theorem textOrNull_storable {s : Option String} :
    (textOrNull s).storable = true ↔ ∀ v, s = some v → storableText v = true := by
  cases s with
  | none => exact iff_of_true rfl fun v h => by cases h
  | some v => simp [textOrNull, Json.storable]

theorem mem_slotKeys (s : Slot) : s ∈ Slot.keys := by cases s <;> decide

/-- The texts of a slot dictionary can be stored. -/
def Slots.Storable (slots : Slots) : Prop := ∀ s v, slots s = some v → storableText v = true

theorem slotsJson_storable {slots : Slots} : (slotsJson slots).storable = true ↔ slots.Storable := by
  have hname : ∀ s : Slot, storableText s.name = true := by
    intro s
    cases s <;> decide
  unfold slotsJson Slots.Storable
  rw [obj_storable, List.forall_mem_map]
  constructor
  · exact fun h s => textOrNull_storable.1 (h s (mem_slotKeys s)).2
  · exact fun h s _ => ⟨hname s, textOrNull_storable.2 (h s)⟩

/-! ## Time scopes -/

theorem storableText_digits (n : ℕ) : storableText (toString n) = true := by
  rw [storableText_iff, show toString n = Nat.repr n from rfl, Nat.repr, String.toList_ofList]
  intro h
  have hdigit := Nat.isDigit_of_mem_toDigits (by decide) (by decide) h
  revert hdigit
  decide

theorem storableText_pad (w n : ℕ) : storableText (pad w n) = true := by
  unfold pad
  refine storableText_append ?_ (storableText_digits n)
  rw [storableText_iff, String.toList_ofList]
  intro h
  have hzero := List.eq_of_mem_replicate h
  revert hzero
  decide

theorem storableText_iso (d : CivilDate) : storableText d.iso = true := by
  unfold CivilDate.iso
  exact storableText_append (storableText_append (storableText_append (storableText_append
    (storableText_pad 4 _) (by decide)) (storableText_pad 2 _)) (by decide)) (storableText_pad 2 _)

theorem dayStart_storable (d : CivilDate) : storableText d.dayStart = true :=
  storableText_append (storableText_iso d) (by decide)

theorem dayEnd_storable (d : CivilDate) : storableText d.dayEnd = true :=
  storableText_append (storableText_iso d) (by decide)

/-- **A normalized time scope can be stored.** -/
theorem timeScope_storable {scope : TimeScope} (h : BoundsOK scope) :
    (Json.obj scope.fields).storable = true := by
  have hname : ∀ g : Granularity, storableText g.name = true := by
    intro g
    cases g <;> decide
  have hbounds : (textOrNull scope.start).storable = true ∧
      (textOrNull scope.stop).storable = true := by
    rcases h with rfl | ⟨a, b, hstart, hstop, -⟩ | rfl
    · exact ⟨rfl, rfl⟩
    · rw [hstart, hstop]
      exact ⟨dayStart_storable a, dayEnd_storable b⟩
    · exact ⟨dayStart_storable _, rfl⟩
  rw [obj_storable]
  simp only [TimeScope.fields, List.forall_mem_cons]
  exact ⟨⟨by decide, hbounds.1⟩, ⟨by decide, hbounds.2⟩, ⟨by decide, hname _⟩,
    fun _ h => absurd h List.not_mem_nil⟩

/-! ## Inserts -/

namespace StatementTables

variable {t t' : StatementTables}

theorem insertStatement_ok {row : StatementRecord} :
    (∃ t', insertStatement row t = (.ok (), t')) ↔ row.Check := by
  rw [← Checked.insertNew_isSome (T := t.statements)]
  unfold insertStatement
  split
  · rename_i h
    rw [h]
    refine iff_of_false ?_ (by simp)
    rintro ⟨t', heq⟩
    cases heq
  · rename_i statements h
    exact iff_of_true ⟨_, rfl⟩ (Option.isSome_of_mem h)

theorem insertStatement_eq {row : StatementRecord} (h : insertStatement row t = (.ok (), t')) :
    t.statements.insertNew row = some t'.statements ∧ t'.claims = t.claims := by
  unfold insertStatement at h
  split at h
  · cases h
  · rename_i heq
    cases h
    exact ⟨heq, rfl⟩

theorem insertClaim_ok {row : StatementClaim}
    (hfk : row.statementId ∈ t.statements.rows.map (·.statementId)) :
    (∃ t', insertClaim row t = (.ok (), t')) ↔ row.Check := by
  rw [← Checked.insertNew_isSome (T := t.claims)]
  unfold insertClaim
  rw [dif_pos hfk]
  split
  · rename_i h
    rw [h]
    refine iff_of_false ?_ (by simp)
    rintro ⟨t', heq⟩
    cases heq
  · rename_i claims h
    exact iff_of_true ⟨_, rfl⟩ (Option.isSome_of_mem h)

theorem insertClaim_eq {row : StatementClaim} (h : insertClaim row t = (.ok (), t')) :
    t.claims.insertNew row = some t'.claims ∧ t'.statements = t.statements := by
  unfold insertClaim at h
  split at h
  · split at h
    · cases h
    · rename_i heq
      cases h
      exact ⟨heq, rfl⟩
  · cases h

end StatementTables

/-- The loop of `persist_statement`, over the rows of the claims. -/
def insertClaims (row : DecomposedClaim → StatementClaim) :
    ℕ → List DecomposedClaim → Eff StatementTables ℕ :=
  Eff.forList fun n claim => do
    StatementTables.insertClaim (row claim)
    return n + 1

theorem insertClaims_cons {row : DecomposedClaim → StatementClaim} {n : ℕ} {claim : DecomposedClaim}
    {claims : List DecomposedClaim} {t t' : StatementTables}
    (h : StatementTables.insertClaim (row claim) t = (.ok (), t')) :
    insertClaims row n (claim :: claims) t = insertClaims row (n + 1) claims t' := by
  unfold insertClaims
  rw [Eff.forList]
  exact Eff.bind_of_ok (by rw [Eff.bind_of_ok h]; rfl)

/-- **The loop ends normally** iff every row passes the constraints. -/
theorem insertClaims_ok {row : DecomposedClaim → StatementClaim} {claims : List DecomposedClaim} :
    ∀ {n : ℕ} {t : StatementTables},
      (∀ c ∈ claims, (row c).statementId ∈ t.statements.rows.map (·.statementId)) →
      ((∃ m t', insertClaims row n claims t = (.ok m, t')) ↔ ∀ c ∈ claims, (row c).Check) := by
  induction claims with
  | nil => exact fun _ => ⟨fun _ _ h => absurd h List.not_mem_nil, fun _ => ⟨_, _, rfl⟩⟩
  | cons c claims ih =>
    intro n t hfk
    rw [List.forall_mem_cons] at hfk ⊢
    rw [← StatementTables.insertClaim_ok hfk.1]
    -- the rows that follow refer to the same statements
    have hrest : ∀ {t'}, StatementTables.insertClaim (row c) t = (.ok (), t') →
        ∀ x ∈ claims, (row x).statementId ∈ t'.statements.rows.map (·.statementId) := by
      intro t' h x hx
      rw [(StatementTables.insertClaim_eq h).2]
      exact hfk.2 x hx
    constructor
    · rintro ⟨m, t₂, h⟩
      have hround := h
      unfold insertClaims at hround
      rw [Eff.forList, Eff.bind_ok] at hround
      obtain ⟨_, t₁, hround, -⟩ := hround
      obtain ⟨_, t', hins, -⟩ := Eff.bind_ok.1 hround
      rw [insertClaims_cons hins] at h
      exact ⟨⟨t', hins⟩, (ih (hrest hins)).1 ⟨m, t₂, h⟩⟩
    · rintro ⟨⟨t', hins⟩, hall⟩
      rw [insertClaims_cons hins]
      exact (ih (hrest hins)).2 hall

/-- **What the loop leaves**: the rows that were there, those of the claims, and no others. -/
theorem insertClaims_eq {row : DecomposedClaim → StatementClaim} {claims : List DecomposedClaim} :
    ∀ {n m : ℕ} {t t' : StatementTables},
      (∀ c ∈ claims, (row c).statementId ∈ t.statements.rows.map (·.statementId)) →
      insertClaims row n claims t = (.ok m, t') →
      m = n + claims.length ∧ t'.statements = t.statements ∧
        (∀ r ∈ t.claims.rows, r ∈ t'.claims.rows) ∧
        (∀ c ∈ claims, (row c).key ∈ t'.claims.rows.map (·.key)) ∧
        (((claims.map row).map (·.key)).Nodup →
          (∀ c ∈ claims, (row c).key ∉ t.claims.rows.map (·.key)) →
          t'.claims.rows = t.claims.rows ++ claims.map row) := by
  induction claims with
  | nil =>
    intro n m t t' _ h
    cases h
    exact ⟨rfl, rfl, fun _ h => h, fun _ h => absurd h List.not_mem_nil, by simp⟩
  | cons c claims ih =>
    intro n m t t' hfk h
    obtain ⟨t₁, hins⟩ := (StatementTables.insertClaim_ok (hfk c List.mem_cons_self)).2
      ((insertClaims_ok hfk).1 ⟨m, t', h⟩ c List.mem_cons_self)
    rw [insertClaims_cons hins] at h
    obtain ⟨hnew, hst⟩ := StatementTables.insertClaim_eq hins
    have hfk₁ : ∀ x ∈ claims, (row x).statementId ∈ t₁.statements.rows.map (·.statementId) := by
      intro x hx
      rw [hst]
      exact hfk x (List.mem_cons_of_mem _ hx)
    obtain ⟨hm, hst', hkeep, hkeys, hrows⟩ := ih hfk₁ h
    refine ⟨by rw [hm, List.length_cons]; omega, hst'.trans hst,
      fun r hr => hkeep r (Checked.mem_insertNew hnew hr), ?_, ?_⟩
    · intro x hx
      rcases List.mem_cons.1 hx with rfl | hx
      · obtain ⟨r, hr, hkey⟩ := List.mem_map.1 (Checked.key_mem_insertNew hnew)
        exact List.mem_map.2 ⟨r, hkeep r hr, hkey⟩
      · exact hkeys x hx
    · intro hnodup hfree
      rw [List.map_cons, List.map_cons, List.nodup_cons] at hnodup
      have hone : t₁.claims.rows = t.claims.rows ++ [row c] := by
        rw [Checked.insertNew_rows hnew, if_neg (hfree c List.mem_cons_self)]
      rw [hrows hnodup.2, hone, List.append_assoc, List.singleton_append, List.map_cons]
      intro x hx
      rw [hone, List.map_append, List.mem_append, not_or]
      refine ⟨hfree x (List.mem_cons_of_mem _ hx), fun hkey => hnodup.1 ?_⟩
      have hsame : (row x).key = (row c).key := List.mem_singleton.1 hkey
      rw [← hsame]
      exact List.mem_map_of_mem (List.mem_map_of_mem hx)

/-! ## Statements and their claims -/

/-- A statement and the rows of its claims are stored: each once, and where the statement was not
there before, as they are and with nothing else. -/
structure Persisted (statement : StatementRecord) (rows : List StatementClaim)
    (before after : StatementTables) : Prop where
  distinct : (rows.map (·.key)).Nodup
  statement_once :
    after.statements.rows.countP (·.statementId = statement.statementId) = 1
  claim_once : ∀ row ∈ rows, after.claims.rows.countP (·.key = row.key) = 1
  fresh : statement.statementId ∉ before.statements.rows.map (·.statementId) →
    after.statements.rows = before.statements.rows ++ [statement] ∧
      after.claims.rows = before.claims.rows ++ rows

section

variable {statement : StatementRecord} {claims : List DecomposedClaim}
  {checks : String → Option String} {scopes : String → Option (List (String × Json))}
  {before after : StatementTables} {n : ℕ}

theorem persistStatement_eq (statement : StatementRecord) (claims : List DecomposedClaim)
    (checks : String → Option String) (scopes : String → Option (List (String × Json))) :
    persistStatement statement claims checks scopes =
      (StatementTables.insertStatement statement >>= fun _ =>
        insertClaims (·.row statement.statementId checks scopes) 0 claims) := rfl

/-- The rows of the claims refer to the statement, once that is there. -/
theorem row_statement_mem (h : StatementTables.insertStatement statement before = (.ok (), after)) :
    ∀ c ∈ claims, (c.row statement.statementId checks scopes).statementId ∈
      after.statements.rows.map (·.statementId) :=
  fun _ _ => Checked.key_mem_insertNew (StatementTables.insertStatement_eq h).1

/-- **When `persist_statement` ends normally**: every row passes the constraints. -/
theorem persistStatement_ok :
    (∃ n after, persistStatement statement claims checks scopes before = (.ok n, after)) ↔
      statement.Check ∧ ∀ c ∈ claims, (c.row statement.statementId checks scopes).Check := by
  rw [persistStatement_eq]
  constructor
  · rintro ⟨n, after, h⟩
    obtain ⟨_, t, hst, h⟩ := Eff.bind_ok.1 h
    exact ⟨StatementTables.insertStatement_ok.1 ⟨t, hst⟩,
      (insertClaims_ok (row_statement_mem hst)).1 ⟨n, after, h⟩⟩
  · rintro ⟨hcheck, hall⟩
    obtain ⟨t, hst⟩ := StatementTables.insertStatement_ok.2 hcheck
    rw [Eff.bind_of_ok hst]
    exact (insertClaims_ok (row_statement_mem hst)).2 hall

/-- **What `persist_statement` has stored** when it ends normally. -/
theorem Persisted.of_ok (hids : (claims.map (·.claimId)).Nodup)
    (h : persistStatement statement claims checks scopes before = (.ok n, after)) :
    n = claims.length ∧
      Persisted statement (claims.map (·.row statement.statementId checks scopes)) before after := by
  rw [persistStatement_eq] at h
  obtain ⟨_, t, hst, h⟩ := Eff.bind_ok.1 h
  obtain ⟨hnew, hclaims⟩ := StatementTables.insertStatement_eq hst
  obtain ⟨hn, hst', -, hkeys, hrows⟩ := insertClaims_eq (row_statement_mem hst) h
  have hdistinct : ((claims.map (·.row statement.statementId checks scopes)).map (·.key)).Nodup := by
    rw [List.map_map, List.Nodup, List.pairwise_map]
    rw [List.Nodup, List.pairwise_map] at hids
    exact hids.imp fun hne heq => hne (congrArg Prod.snd heq)
  refine ⟨hn.trans (Nat.zero_add _), hdistinct, ?_, ?_, fun hfresh => ⟨?_, ?_⟩⟩
  · rw [hst']
    exact Checked.countP_key_eq _ (Checked.key_mem_insertNew hnew)
  · intro row hrow
    obtain ⟨c, hc, rfl⟩ := List.mem_map.1 hrow
    exact Checked.countP_key_eq _ (hkeys c hc)
  · rw [hst', Checked.insertNew_rows hnew, if_neg hfresh]
  · -- a statement that was not there had no claims
    rw [hrows hdistinct, hclaims]
    intro c _ hkey
    obtain ⟨r, hr, hrkey⟩ := List.mem_map.1 hkey
    rw [hclaims] at hr
    have hid : r.statementId = statement.statementId := congrArg Prod.fst hrkey
    exact hfresh (hid ▸ before.statement_mem r hr)

end

/-! ## Claims that a decomposition produces -/

/-- The claim types that `statement_claims_type_check` leaves out. -/
def unstoredTypes : List ClaimType := [.electionResult, .governmentDecision]

/-- **Which claims pass the constraints**, with checkability values and normalized time scopes. -/
theorem row_check_iff {statementId : String} {checks : String → Option Checkability} {U : Unicode}
    {ref : CivilDate} {phrases : String → Option (Option String)} {c : DecomposedClaim} :
    (c.row statementId (fun id => (checks id).map (·.name))
        (fun id => (phrases id).map fun phrase => (normalizeTimeScope U ref phrase).fields)).Check ↔
      c.claimType ∉ unstoredTypes ∧ c.slots.Storable := by
  have htype : ∀ ct : ClaimType, ct.name ∈ ["vote_cast", "bill_sponsorship", "office_held",
      "committee_membership", "committee_attendance", "statement_about_formal_action"] ↔
      ct ∉ unstoredTypes := by
    intro ct
    cases ct <;> decide
  have hcheck : ∀ o : Option Checkability, (o.map (·.name)).getD "non_checkable" ∈ ["checkable",
      "non_checkable", "insufficient_time_scope", "insufficient_entity_resolution"] := by
    rintro (_ | k)
    · decide
    · cases k <;> decide
  have hmethod : ∀ m : Method, m.name ∈ ["rules", "llm", "rules+llm"] := by
    intro m
    cases m <;> decide
  have hscope : ∀ o : Option (Option String), (Json.obj ((o.map fun phrase =>
      (normalizeTimeScope U ref phrase).fields).getD [])).storable = true := by
    rintro (_ | phrase)
    · rfl
    · exact timeScope_storable (normalizeTimeScope_bounds U ref phrase)
  constructor
  · exact fun h => ⟨(htype _).1 h.claimType, slotsJson_storable.1 h.slots⟩
  · rintro ⟨hct, hslots⟩
    exact ⟨(htype _).2 hct, hcheck _, hmethod _, slotsJson_storable.2 hslots, hscope _⟩

/-- **The slots of a rule claim can be stored** if the statement can. -/
theorem ruleClaims_storable {uuid4 : ℕ → String} {text : String} {language : Language}
    (htext : storableText text = true) {c : DecomposedClaim}
    (hc : c ∈ ruleClaims uuid4 (strip text).toList language) : c.slots.Storable := by
  obtain ⟨⟨m, i⟩, hm, rfl⟩ := List.mem_map.1 (List.mem_of_mem_filter hc)
  have hsel := mem_of_mem_selectMatches (List.fst_mem_of_mem_zipIdx hm)
  have hiter := (List.mem_insertionSort matchLE).1 hsel
  have hpart : ∀ n v, orNone ((m.groups n).map strip) = some v → storableText v = true := by
    intro n v hv
    obtain ⟨text', htext', rfl⟩ := Option.map_eq_some_iff.1 (Option.eq_some_of_filter_eq_some hv)
    rw [storableText_iff] at htext ⊢
    intro h
    exact htext (mem_of_mem_strip (iterMatches_groups hiter htext' _ (mem_of_mem_strip h)))
  have hvote : ∀ o v, normalizeVoteValue o = some v → storableText v = true := by
    intro o v hv
    unfold normalizeVoteValue at hv
    obtain ⟨r, -, hv⟩ := Option.bind_eq_some_iff.1 hv
    dsimp only at hv
    split_ifs at hv <;> (cases hv; decide)
  intro s v hv
  cases s with
  | targetPersonId => cases hv
  | voteValue => exact hvote _ v hv
  | expectPassedThreshold =>
    have hfalse : (if m.template.electionThresholdBelow then some "false" else none) = some v := hv
    split at hfalse
    · cases hfalse
      decide
    · cases hfalse
  | speakerPersonId => exact hpart .subject v hv
  | billId => exact hpart .bill v hv
  | committeeId => exact hpart .committee v hv
  | officeId => exact hpart .office v hv
  | partyId => exact hpart .party v hv
  | expectedSeats => exact hpart .seats v hv
  | governmentDecisionId => exact hpart .decisionNumber v hv
  | governmentNumber => exact hpart .governmentNumber v hv

/-- **Which decomposed statements can be persisted**: those whose claims are of the types that the
table knows, with no U+0000 in the texts of the statement and in the slots that a provider fills. -/
theorem persist_decomposed_iff (uuid4 : ℕ → String) (hfresh : Function.Injective uuid4)
    (llm : Option LLMProvider) (record : StatementRecord) (text : String) (language : Language)
    (checks : String → Option Checkability) (U : Unicode) (ref : CivilDate)
    (phrases : String → Option (Option String)) (before : StatementTables) :
    let claims := (decompose uuid4 llm text language).claims
    let statement := { record with rawText := text, language := language.name }
    let checks' := fun id => (checks id).map (·.name)
    let scopes := fun id => (phrases id).map fun phrase => (normalizeTimeScope U ref phrase).fields
    (∃ n after, persistStatement statement claims checks' scopes before = (.ok n, after) ∧
        n = claims.length ∧
        Persisted statement (claims.map (·.row statement.statementId checks' scopes)) before after) ↔
      (∀ c ∈ claims, c.claimType ∉ unstoredTypes) ∧
        statement.Storable ∧ ∀ c ∈ claims, c.method = .llm → c.slots.Storable := by
  intro claims statement checks' scopes
  have hlanguage : statement.language ∈ ["he", "en"] := by
    show language.name ∈ ["he", "en"]
    cases language <;> decide
  have hids : (claims.map (·.claimId)).Nodup := decompose_claimIds hfresh
  have hstored : (∃ n after, persistStatement statement claims checks' scopes before = (.ok n, after) ∧
        n = claims.length ∧
        Persisted statement (claims.map (·.row statement.statementId checks' scopes)) before after) ↔
      ∃ n after, persistStatement statement claims checks' scopes before = (.ok n, after) := by
    constructor
    · rintro ⟨n, after, h, -⟩
      exact ⟨n, after, h⟩
    · rintro ⟨n, after, h⟩
      exact ⟨n, after, h, Persisted.of_ok hids h⟩
  rw [hstored, persistStatement_ok]
  constructor
  · rintro ⟨hst, hall⟩
    exact ⟨fun c hc => (row_check_iff.1 (hall c hc)).1, hst.2,
      fun c hc _ => (row_check_iff.1 (hall c hc)).2⟩
  · rintro ⟨htypes, hst, hslots⟩
    have htext : storableText text = true := hst.1 text (by simp [statement])
    refine ⟨⟨hlanguage, hst⟩, fun c hc => row_check_iff.2 ⟨htypes c hc, ?_⟩⟩
    -- what the rules find is part of the text
    rcases decompose_cases uuid4 llm text language with ⟨-, hrules, -⟩ | ⟨hinvoked, -⟩
    · have hc' : c ∈ (decompose uuid4 llm text language).claims := hc
      rw [hrules] at hc'
      exact ruleClaims_storable htext hc'
    · have hmethod := decompose_method hc
      rw [hinvoked] at hmethod
      exact hslots c hc hmethod

/-- Fresh ids, for the runs below. -/
def unaryIds (n : ℕ) : String := String.ofList (List.replicate n '1')

theorem unaryIds_injective : Function.Injective unaryIds := by
  intro m n h
  have hlen := congrArg List.length (String.ofList_injective h)
  rwa [List.length_replicate, List.length_replicate] at hlen

/-- No statements. -/
def noStatements : StatementTables := ⟨Checked.empty, Checked.empty, fun _ h => absurd h List.not_mem_nil⟩

theorem persist_decomposed_attendance :
    ∃ n after, persistStatement
        { statementId := "statement", rawText := "Dan attended the tax committee", language := "en" }
        (decompose unaryIds none "Dan attended the tax committee" .en).claims
        (fun id => ((fun _ => none : String → Option Checkability) id).map (·.name))
        (fun id => ((fun _ => none : String → Option (Option String)) id).map fun phrase =>
          (normalizeTimeScope plainEnv.unicode plainEnv.today phrase).fields) noStatements =
      (.ok n, after) ∧ n = 1 := by
  have hlen : (decompose unaryIds none "Dan attended the tax committee" .en).claims.length = 1 := by
    decide
  have htypes : ((decompose unaryIds none "Dan attended the tax committee" .en).claims.all fun c =>
      c.claimType ∉ unstoredTypes ∧ c.method ≠ .llm) = true := by decide
  have hall : ∀ c ∈ (decompose unaryIds none "Dan attended the tax committee" .en).claims,
      c.claimType ∉ unstoredTypes ∧ c.method ≠ .llm :=
    fun c hc => of_decide_eq_true (List.all_eq_true.1 htypes c hc)
  obtain ⟨n, after, hrun, hn, -⟩ := (persist_decomposed_iff unaryIds unaryIds_injective none
    { statementId := "statement", rawText := "", language := "" } "Dan attended the tax committee" .en
    (fun _ => none) plainEnv.unicode plainEnv.today (fun _ => none) noStatements).2
    ⟨fun c hc => (hall c hc).1, ⟨by decide, rfl⟩, fun c hc h => absurd h (hall c hc).2⟩
  exact ⟨n, after, hrun, hn.trans hlen⟩

/-- The claim of an election result fails the check on the type. -/
theorem persist_election_fails :
    (decompose unaryIds none "Likud won 32 seats" .en).claims.map (·.claimType) = [.electionResult] ∧
      ¬∃ n after, persistStatement
        { statementId := "statement", rawText := "Likud won 32 seats", language := "en" }
        (decompose unaryIds none "Likud won 32 seats" .en).claims (fun _ => none) (fun _ => none)
        noStatements = (.ok n, after) := by
  have htypes : (decompose unaryIds none "Likud won 32 seats" .en).claims.map (·.claimType) =
      [.electionResult] := by decide
  refine ⟨htypes, fun h => ?_⟩
  obtain ⟨c, hc, hct⟩ := List.mem_map.1 (htypes ▸ List.mem_singleton_self ClaimType.electionResult)
  have hcheck := ((persistStatement_ok.1 h).2 c hc).claimType
  have hname : (c.row "statement" (fun _ => none) fun _ => none).claimType = "election_result" :=
    congrArg ClaimType.name hct
  rw [hname] at hcheck
  revert hcheck
  decide

end CivicProof
