import CivicProof.PropGraph.Typed
import CivicProof.Spec.Schema
import CivicProof.Spec.VoteFeed

/-!
# The schema of the ingested graph

What the upsert templates leave in each property: the labels and relationship types with their
columns, which of them are never null, and which hold one of a few texts. Every template respects
it, whatever its parameters, so every graph that adapters and scripts write together conforms to it.

* `civicSchema`: the schema.
* `Ingests.respects`: every statement of an adapter or of the vote script respects it.
-/

namespace CivicProof

open PropGraph Cypher

/-! ## Columns -/

/-- The kinds of stored values. -/
inductive Kind where
  | text
  | int
  | flag
  | real
  | instant
  deriving DecidableEq, Repr

/-- The kind of a stored value. -/
def Datum.kind : Datum → Kind
  | .text _ => .text
  | .int _ => .int
  | .flag _ => .flag
  | .real _ => .real
  | .instant _ => .instant

/-- A property of a label or of a relationship type. -/
structure Column where
  field : Field
  kind : Kind := .text
  /-- Never null. -/
  required : Bool := false
  /-- The texts that it may hold, where they are limited. -/
  choices : Option (List String) := none

/-- The values that a column holds. -/
def Column.Admits (c : Column) : Option Datum → Prop
  | none => c.required = false
  | some d => d.kind = c.kind ∧ ∀ l, c.choices = some l → ∃ s ∈ l, d = .text s

/-- A property is null, or as its column says. -/
def columnOK (cs : List Column) (f : Field) (x : Option Datum) : Prop :=
  match cs.find? fun c => c.field = f with
  | none => x = none
  | some c => c.Admits x

/-- The properties of a label's nodes. -/
def nodeColumns : Label → List Column
  | .person =>
    [{ field := .canonicalName }, { field := .hebrewName },
      { field := .englishName, required := true }, { field := .externalIds },
      { field := .sourceTier, kind := .int, required := true }]
  | .party =>
    [{ field := .canonicalName, required := true }, { field := .hebrewName },
      { field := .englishName, required := true }, { field := .abbreviation }]
  | .office =>
    [{ field := .canonicalName }, { field := .hebrewName, required := true },
      { field := .englishName, required := true }, { field := .officeType, required := true },
      { field := .scope, required := true }]
  | .committee =>
    [{ field := .canonicalName }, { field := .hebrewName },
      { field := .englishName, required := true }]
  | .bill =>
    [{ field := .title }, { field := .hebrewName, required := true },
      { field := .englishName, required := true }, { field := .knessetNumber, kind := .int },
      { field := .status }]
  | .voteEvent =>
    [{ field := .billId }, { field := .occurredAt, kind := .instant }, { field := .voteType }]
  | .attendanceEvent =>
    [{ field := .committeeId, required := true }, { field := .occurredAt, kind := .instant }]
  | .membershipTerm =>
    [{ field := .personId, required := true }, { field := .orgId, required := true },
      { field := .orgType, required := true },
      { field := .validFrom, kind := .instant, required := true },
      { field := .validTo, kind := .instant }]
  | .positionTerm =>
    [{ field := .personId, required := true }, { field := .officeId, required := true },
      { field := .appointingBody }, { field := .validFrom, kind := .instant, required := true },
      { field := .validTo, kind := .instant }, { field := .isActing, kind := .flag, required := true },
      { field := .sourceDocumentId }]
  | .electionResult =>
    [{ field := .electionDate, kind := .instant, required := true },
      { field := .knessetNumber, kind := .int, required := true },
      { field := .listName, required := true }, { field := .ballotLetters, required := true },
      { field := .listPartyId, required := true }, { field := .votes, kind := .int, required := true },
      { field := .seatsWon, kind := .int, required := true },
      { field := .voteShare, kind := .real, required := true },
      { field := .passedThreshold, kind := .flag, required := true }, { field := .sourceDocumentId }]
  | .governmentDecision =>
    [{ field := .decisionNumber }, { field := .governmentNumber, kind := .int },
      { field := .decisionDate, kind := .instant }, { field := .title, required := true },
      { field := .summary }, { field := .issuingBody }, { field := .sourceDocumentId }]

/-- The properties of an interval. -/
def spanColumns : List Column :=
  [{ field := .validFrom, kind := .instant, required := true },
    { field := .validTo, kind := .instant }]

/-- The properties of a type's relationships. -/
def relColumns : RelType → List Column
  | .memberOf | .memberOfCommittee | .heldOffice => spanColumns
  | .castVote =>
    [{ field := .value, required := true, choices := some ["for", "against", "abstain"] }]
  | .attended =>
    [{ field := .presence, required := true, choices := some ["present", "absent", "partial"] }]
  | .hasPositionTerm | .aboutOffice | .forParty | .sponsored | .aboutBill | .aboutPerson
  | .hasSpan => []

/-- The schema of the ingested graph. -/
def civicSchema : PropGraph.Schema Label RelType Field Datum where
  node l := columnOK (nodeColumns l)
  rel t := columnOK (relColumns t)
  ends t a b := t.ends = some (a, b)

/-! ## Items of the templates -/

section Items

variable {cs : List Column} {f : Field} {x : Option Datum} {c : Column}

theorem columnOK_iff (hc : cs.find? (fun c => c.field = f) = some c) :
    columnOK cs f x ↔ c.Admits x := by
  unfold columnOK
  rw [hc]

theorem keep_ok (hc : cs.find? (fun c => c.field = f) = some c) (hx : c.Admits x) :
    SetItem.OK (columnOK cs) (keep f x) where
  create := (columnOK_iff hc).2 hx
  onMatch old hold := by
    cases x with
    | none =>
      change columnOK cs f ((Write.keep none).apply old)
      rwa [Write.apply_keep_none]
    | some d => exact (columnOK_iff hc).2 hx

theorem overwrite_ok (hc : cs.find? (fun c => c.field = f) = some c) (hx : c.Admits x) :
    SetItem.OK (columnOK cs) (overwrite f x) where
  create := (columnOK_iff hc).2 hx
  onMatch _ _ := (columnOK_iff hc).2 hx

/-- A value of the column's kind, where its texts are not limited. -/
theorem admits_some {d : Datum} (hkind : d.kind = c.kind) (hfree : c.choices = none) :
    c.Admits (some d) :=
  ⟨hkind, fun l hl => by rw [hfree] at hl; cases hl⟩

/-- A parameter that may be null. -/
theorem admits_map {α : Type} {d : α → Datum} (x : Option α) (hreq : c.required = false)
    (hkind : ∀ a, (d a).kind = c.kind) (hfree : c.choices = none) : c.Admits (x.map d) := by
  cases x with
  | none => exact hreq
  | some a => exact admits_some (hkind a) hfree

/-- A text that is taken over, or was there, or is empty. -/
theorem orBlank_ok {x y : Option String} {i : CivicItem}
    (hc : cs.find? (fun c => c.field = i.field) = some c) (hkind : c.kind = .text)
    (hfree : c.choices = none) (hcreate : i.onCreate = some (((text x).or (text y)).getD .blank))
    (hmatch : i.onMatch = .keepOr (text x) .blank) : SetItem.OK (columnOK cs) i := by
  constructor
  · rw [columnOK_iff hc, hcreate]
    refine admits_some ?_ hfree
    cases x <;> cases y <;> exact hkind.symm
  · intro old hold
    rw [columnOK_iff hc] at hold ⊢
    rw [hmatch]
    refine admits_some ?_ hfree
    cases x with
    | some s => exact hkind.symm
    | none =>
      cases old with
      | none => exact hkind.symm
      | some d => exact hold.1

theorem keepOrBlank_ok (x : Option String) (hc : cs.find? (fun c => c.field = f) = some c)
    (hkind : c.kind = .text) (hfree : c.choices = none) :
    SetItem.OK (columnOK cs) (keepOrBlank f (text x)) :=
  orBlank_ok (y := none) hc hkind hfree (by cases x <;> rfl) rfl

theorem keepOrElse_ok (x y : Option String) (hc : cs.find? (fun c => c.field = f) = some c)
    (hkind : c.kind = .text) (hfree : c.choices = none) :
    SetItem.OK (columnOK cs) (keepOrElse f (text x) (text y)) :=
  orBlank_ok hc hkind hfree rfl rfl

/-- A column that no item writes is not required. -/
theorem columnOK_none (h : ∀ c ∈ cs, c.field = f → c.required = false) : columnOK cs f none := by
  unfold columnOK
  cases hc : cs.find? fun c => c.field = f with
  | none => rfl
  | some c =>
    have hf := List.find?_some hc
    exact h c (List.mem_of_find?_eq_some hc) (of_decide_eq_true hf)

/-- **Items of columns**, which write all that are required. -/
theorem items_ok {items : List CivicItem} (hitem : ∀ i ∈ items, SetItem.OK (columnOK cs) i)
    (hreq : ∀ c ∈ cs, c.required = true → c.field ∈ items.map SetItem.field) :
    ItemsOK (columnOK cs) items := by
  refine ItemsOK.of_items hitem fun f hf => columnOK_none fun c hc hcf => ?_
  rw [Bool.eq_false_iff]
  intro hr
  exact hf (hcf ▸ hreq c hc hr)

theorem noItems_ok : ItemsOK (columnOK []) [] :=
  items_ok (fun _ h => absurd h List.not_mem_nil) fun _ h => absurd h List.not_mem_nil

end Items

/-! ## The templates -/

section Templates

variable {T : CypherTime}

/-- A parsed time, if there is one. -/
theorem moment_eq {s : Option String} {x : Option Datum} (h : moment T s = some x) :
    ∃ t : Option ℤ, x = t.map .instant := by
  cases s with
  | none =>
    cases h
    exact ⟨none, rfl⟩
  | some s =>
    obtain ⟨t, -, rfl⟩ := Option.map_eq_some_iff.1 h
    exact ⟨some t, rfl⟩

theorem personUpsert_respects {id : String} {c h e x : Option String} {tier : ℤ} :
    (personUpsert id c h e x (some tier)).Respects civicSchema := by
  rintro l ⟨⟩
  refine items_ok ?_ (by simp [nodeColumns, keep, keepOrBlank])
  simp only [List.forall_mem_cons, List.not_mem_nil, false_imp_iff, implies_true, and_true]
  exact ⟨keep_ok rfl (admits_map c rfl (fun _ => rfl) rfl),
    keep_ok rfl (admits_map h rfl (fun _ => rfl) rfl), keepOrBlank_ok e rfl rfl rfl,
    keep_ok rfl (admits_map x rfl (fun _ => rfl) rfl), keep_ok rfl (admits_some rfl rfl)⟩

theorem partyUpsert_respects {id c : String} {h e a : Option String} :
    (partyUpsert id (some c) h e a).Respects civicSchema := by
  rintro l ⟨⟩
  refine items_ok ?_ (by simp [nodeColumns, keep, keepOrBlank])
  simp only [List.forall_mem_cons, List.not_mem_nil, false_imp_iff, implies_true, and_true]
  exact ⟨keep_ok rfl (admits_some rfl rfl), keep_ok rfl (admits_map h rfl (fun _ => rfl) rfl),
    keepOrBlank_ok e rfl rfl rfl, keep_ok rfl (admits_map a rfl (fun _ => rfl) rfl)⟩

theorem committeeUpsert_respects {id : String} {c h e : Option String} :
    (committeeUpsert id c h e).Respects civicSchema := by
  rintro l ⟨⟩
  refine items_ok ?_ (by simp [nodeColumns, keep, keepOrBlank])
  simp only [List.forall_mem_cons, List.not_mem_nil, false_imp_iff, implies_true, and_true]
  exact ⟨keep_ok rfl (admits_map c rfl (fun _ => rfl) rfl),
    keep_ok rfl (admits_map h rfl (fun _ => rfl) rfl), keepOrBlank_ok e rfl rfl rfl⟩

theorem officeUpsert_respects {id : String} {c h e : Option String} {t s : String} :
    (officeUpsert id c h e (some t) (some s)).Respects civicSchema := by
  rintro l ⟨⟩
  refine items_ok ?_ (by simp [nodeColumns, keep, keepOrBlank, keepOrElse])
  simp only [List.forall_mem_cons, List.not_mem_nil, false_imp_iff, implies_true, and_true]
  exact ⟨keep_ok rfl (admits_map c rfl (fun _ => rfl) rfl), keepOrElse_ok h c rfl rfl rfl,
    keepOrBlank_ok e rfl rfl rfl, keep_ok rfl (admits_some rfl rfl),
    keep_ok rfl (admits_some rfl rfl)⟩

theorem billUpsert_respects {id : String} {t h e : Option String} {n : Option ℤ}
    {s : Option String} : (billUpsert id t h e n s).Respects civicSchema := by
  rintro l ⟨⟩
  refine items_ok ?_ (by simp [nodeColumns, keep, keepOrBlank, keepOrElse])
  simp only [List.forall_mem_cons, List.not_mem_nil, false_imp_iff, implies_true, and_true]
  exact ⟨keep_ok rfl (admits_map t rfl (fun _ => rfl) rfl), keepOrElse_ok h t rfl rfl rfl,
    keepOrBlank_ok e rfl rfl rfl, keep_ok rfl (admits_map n rfl (fun _ => rfl) rfl),
    keep_ok rfl (admits_map s rfl (fun _ => rfl) rfl)⟩

theorem voteEventUpsert_respects {id : String} {b o v : Option String} :
    (voteEventUpsert T id b o v).Respects civicSchema := by
  intro l hl
  obtain ⟨x, hx, hl⟩ := Option.bind_eq_some_iff.1 hl
  obtain ⟨t, rfl⟩ := moment_eq hx
  cases hl
  refine items_ok ?_ (by simp [nodeColumns, keep])
  simp only [List.forall_mem_cons, List.not_mem_nil, false_imp_iff, implies_true, and_true]
  exact ⟨keep_ok rfl (admits_map b rfl (fun _ => rfl) rfl),
    keep_ok rfl (admits_map t rfl (fun _ => rfl) rfl),
    keep_ok rfl (admits_map v rfl (fun _ => rfl) rfl)⟩

theorem attendanceEventUpsert_respects {id c : String} {o : Option String} :
    (attendanceEventUpsert T id (some c) o).Respects civicSchema := by
  intro l hl
  obtain ⟨x, hx, hl⟩ := Option.bind_eq_some_iff.1 hl
  obtain ⟨t, rfl⟩ := moment_eq hx
  cases hl
  refine items_ok ?_ (by simp [nodeColumns, keep])
  simp only [List.forall_mem_cons, List.not_mem_nil, false_imp_iff, implies_true, and_true]
  exact ⟨keep_ok rfl (admits_some rfl rfl), keep_ok rfl (admits_map t rfl (fun _ => rfl) rfl)⟩

/-- The parsed times of an interval whose start is given. -/
theorem moments_eq {start : String} {stop : Option String} {l : List CivicItem}
    {f : Option Datum → Option Datum → List CivicItem}
    (h : (do
      let a ← moment T (some start)
      let b ← moment T stop
      return f a b) = some l) :
    ∃ (t : ℤ) (u : Option ℤ), l = f (some (.instant t)) (u.map .instant) := by
  obtain ⟨a, ha, h⟩ := Option.bind_eq_some_iff.1 h
  obtain ⟨b, hb, h⟩ := Option.bind_eq_some_iff.1 h
  obtain ⟨t, -, rfl⟩ := Option.map_eq_some_iff.1 ha
  obtain ⟨u, rfl⟩ := moment_eq hb
  cases h
  exact ⟨t, u, rfl⟩

theorem membershipTermUpsert_respects {id p o k start : String} {stop : Option String} :
    (membershipTermUpsert T id (some p) (some o) (some k) (some start) stop).Respects
      civicSchema := by
  intro l hl
  obtain ⟨t, u, rfl⟩ := moments_eq hl
  refine items_ok ?_ (by simp [nodeColumns, keep])
  simp only [List.forall_mem_cons, List.not_mem_nil, false_imp_iff, implies_true, and_true]
  exact ⟨keep_ok rfl (admits_some rfl rfl), keep_ok rfl (admits_some rfl rfl),
    keep_ok rfl (admits_some rfl rfl), keep_ok rfl (admits_some rfl rfl),
    keep_ok rfl (admits_map u rfl (fun _ => rfl) rfl)⟩

theorem positionTermUpsert_respects {id p o : String} {a : Option String} {start : String}
    {stop : Option String} {i : Bool} {x : Option String} :
    (positionTermUpsert T id (some p) (some o) a (some start) stop (some i) x).Respects
      civicSchema := by
  intro l hl
  obtain ⟨t, u, rfl⟩ := moments_eq hl
  refine items_ok ?_ (by simp [nodeColumns, keep])
  simp only [List.forall_mem_cons, List.not_mem_nil, false_imp_iff, implies_true, and_true]
  exact ⟨keep_ok rfl (admits_some rfl rfl), keep_ok rfl (admits_some rfl rfl),
    keep_ok rfl (admits_map a rfl (fun _ => rfl) rfl), keep_ok rfl (admits_some rfl rfl),
    keep_ok rfl (admits_map u rfl (fun _ => rfl) rfl), keep_ok rfl (admits_some rfl rfl),
    keep_ok rfl (admits_map x rfl (fun _ => rfl) rfl)⟩

theorem electionResultUpsert_respects {id d : String} {k : ℤ} {n b p : String} {v s : ℤ} {q : ℚ}
    {t : Bool} {x : Option String} :
    (electionResultUpsert T id (some d) (some k) (some n) (some b) (some p) (some v) (some s)
      (some q) (some t) x).Respects civicSchema := by
  intro l hl
  obtain ⟨y, hy, hl⟩ := Option.bind_eq_some_iff.1 hl
  obtain ⟨date, -, rfl⟩ := Option.map_eq_some_iff.1 hy
  cases hl
  refine items_ok ?_ (by simp [nodeColumns, keep])
  simp only [List.forall_mem_cons, List.not_mem_nil, false_imp_iff, implies_true, and_true]
  exact ⟨keep_ok rfl (admits_some rfl rfl), keep_ok rfl (admits_some rfl rfl),
    keep_ok rfl (admits_some rfl rfl), keep_ok rfl (admits_some rfl rfl),
    keep_ok rfl (admits_some rfl rfl), keep_ok rfl (admits_some rfl rfl),
    keep_ok rfl (admits_some rfl rfl), keep_ok rfl (admits_some rfl rfl),
    keep_ok rfl (admits_some rfl rfl), keep_ok rfl (admits_map x rfl (fun _ => rfl) rfl)⟩

theorem governmentDecisionUpsert_respects {id : String} {n : Option String} {g : Option ℤ}
    {d : Option String} {t : String} {s i x : Option String} :
    (governmentDecisionUpsert T id n g d (some t) s i x).Respects civicSchema := by
  intro l hl
  obtain ⟨y, hy, hl⟩ := Option.bind_eq_some_iff.1 hl
  obtain ⟨date, rfl⟩ := moment_eq hy
  cases hl
  refine items_ok ?_ (by simp [nodeColumns, keep])
  simp only [List.forall_mem_cons, List.not_mem_nil, false_imp_iff, implies_true, and_true]
  exact ⟨keep_ok rfl (admits_map n rfl (fun _ => rfl) rfl),
    keep_ok rfl (admits_map g rfl (fun _ => rfl) rfl),
    keep_ok rfl (admits_map date rfl (fun _ => rfl) rfl), keep_ok rfl (admits_some rfl rfl),
    keep_ok rfl (admits_map s rfl (fun _ => rfl) rfl),
    keep_ok rfl (admits_map i rfl (fun _ => rfl) rfl),
    keep_ok rfl (admits_map x rfl (fun _ => rfl) rfl)⟩

theorem spanMerge_respects {t : RelType} {a b : NodeKey} (hends : t.ends = some (a.1, b.1))
    (ht : relColumns t = spanColumns) (start stop : Option String) :
    (spanMerge T t a b start stop).Respects civicSchema := by
  intro hadmitted
  obtain ⟨s, rfl⟩ := Option.isSome_iff_exists.1 hadmitted
  refine ⟨hends, fun l hl => ?_⟩
  obtain ⟨v, u, rfl⟩ := moments_eq hl
  change ItemsOK (columnOK (relColumns t)) _
  rw [ht]
  refine items_ok ?_ (by simp [spanColumns, keep, overwrite])
  simp only [List.forall_mem_cons, List.not_mem_nil, false_imp_iff, implies_true, and_true]
  exact ⟨overwrite_ok rfl (admits_some rfl rfl), keep_ok rfl (admits_map u rfl (fun _ => rfl) rfl)⟩

/-- A text out of a list is written where it is one of them. -/
theorem choiceMerge_respects {t : RelType} {a b : NodeKey} {f : Field} {choices : List String}
    (hends : t.ends = some (a.1, b.1))
    (ht : relColumns t = [{ field := f, required := true, choices := some choices }])
    (x : Option String) : (choiceMerge t a b f choices x).Respects civicSchema := by
  intro hadmitted
  cases x with
  | none => cases hadmitted
  | some s =>
    have hs : s ∈ choices := of_decide_eq_true hadmitted
    refine ⟨hends, fun l hl => ?_⟩
    cases hl
    change ItemsOK (columnOK (relColumns t)) _
    rw [ht]
    refine items_ok (List.forall_mem_singleton.2 (overwrite_ok (List.find?_cons_of_pos (by simp)) ?_))
      (by simp [overwrite])
    refine ⟨rfl, fun l hl => ?_⟩
    cases hl
    exact ⟨s, hs, rfl⟩

/-- A relationship without properties. -/
theorem plainMerge_respects {t : RelType} {a b : NodeKey} (hends : t.ends = some (a.1, b.1))
    (ht : relColumns t = []) :
    (.mergeRel t a b true (some []) : CivicStmt).Respects civicSchema := by
  intro _
  refine ⟨hends, fun l hl => ?_⟩
  cases hl
  change ItemsOK (columnOK (relColumns t)) _
  rw [ht]
  exact noItems_ok

/-- A statement of the vote script. -/
theorem voteEventAboutBill_respects {v b : String} {o x : Option String} :
    (voteEventAboutBill T v b o x).Respects civicSchema := by
  refine ⟨fun l hl => ?_, rfl, noItems_ok⟩
  obtain ⟨y, hy, hl⟩ := Option.bind_eq_some_iff.1 hl
  obtain ⟨t, rfl⟩ := moment_eq hy
  cases hl
  have hitems : ItemsOK (columnOK (nodeColumns .voteEvent)) [overwrite .billId (text (some b)),
      keep .occurredAt (t.map .instant), keep .voteType (text x)] := by
    refine items_ok ?_ (by simp [nodeColumns])
    simp only [List.forall_mem_cons, List.not_mem_nil, false_imp_iff, implies_true, and_true]
    exact ⟨overwrite_ok rfl (admits_some rfl rfl),
      keep_ok rfl (admits_map t rfl (fun _ => rfl) rfl),
      keep_ok rfl (admits_map x rfl (fun _ => rfl) rfl)⟩
  exact hitems.onMatch

/-- A template run without a parameter writes nothing. -/
theorem missingParameter_respects (n : NodeKey) : (missingParameter n).Respects civicSchema :=
  fun _ h => absurd h nofun

end Templates

/-! ## The statements of the adapters -/

variable (T : CypherTime) (E : IngestEnv)

/-- A statement that an adapter issues for a record, or the vote script for a row of its feed. -/
def Ingests (s : CivicStmt) : Prop :=
  (∃ r iso, s ∈ IngestRecord.statements T iso r) ∨ ∃ row, voteBillStatement T E row = some s

variable {T E}

/-- **The statements of a record** respect the schema, whatever the record. -/
theorem IngestRecord.respects {r : IngestRecord} {iso : String} {s : CivicStmt}
    (hs : s ∈ r.statements T iso) : s.Respects civicSchema := by
  cases r with
  | person r =>
    simp only [statements, upsertPerson, List.mem_cons, List.mem_append, List.mem_flatMap,
      List.not_mem_nil, or_false] at hs
    rcases hs with rfl | ⟨p, -, rfl | rfl⟩ | ⟨o, -, rfl | rfl⟩
    · exact personUpsert_respects
    · exact partyUpsert_respects
    · exact spanMerge_respects rfl rfl _ _
    · exact missingParameter_respects _
    · exact spanMerge_respects rfl rfl _ _
  | position r =>
    simp only [statements, upsertPosition, upsertPartyLane, upsertOfficeLane, upsertTermLane,
      List.mem_cons, List.mem_append, List.mem_flatMap, List.not_mem_nil, or_false] at hs
    rcases hs with rfl | (⟨p, -, rfl | rfl⟩ | ⟨o, -, rfl | rfl⟩) | ⟨pt, -, rfl | rfl | rfl⟩
    · exact personUpsert_respects
    · exact partyUpsert_respects
    · exact spanMerge_respects rfl rfl _ _
    · exact officeUpsert_respects
    · exact spanMerge_respects rfl rfl _ _
    · exact positionTermUpsert_respects
    · exact plainMerge_respects rfl rfl
    · exact plainMerge_respects rfl rfl
  | vote r =>
    simp only [statements, upsertVote, List.mem_cons, List.mem_flatMap, List.not_mem_nil,
      or_false] at hs
    rcases hs with rfl | ⟨cv, -, rfl | rfl⟩
    · exact voteEventUpsert_respects
    · exact personUpsert_respects
    · exact choiceMerge_respects rfl rfl _
  | attendance r =>
    simp only [statements, upsertAttendance, List.mem_cons, List.mem_flatMap, List.not_mem_nil,
      or_false] at hs
    rcases hs with rfl | ⟨a, -, rfl | rfl⟩
    · exact attendanceEventUpsert_respects
    · exact personUpsert_respects
    · exact choiceMerge_respects rfl rfl _
  | committee r =>
    simp only [statements, upsertCommittee, List.mem_cons, List.mem_flatMap, List.not_mem_nil,
      or_false] at hs
    rcases hs with rfl | ⟨m, -, rfl | rfl⟩
    · exact committeeUpsert_respects
    · exact membershipTermUpsert_respects
    · exact spanMerge_respects rfl rfl _ _
  | committeeMembership r =>
    simp only [statements, upsertCommitteeMembership, List.mem_cons, List.not_mem_nil,
      or_false] at hs
    rcases hs with rfl | rfl | rfl
    · exact personUpsert_respects
    · exact committeeUpsert_respects
    · exact spanMerge_respects rfl rfl _ _
  | bill r =>
    simp only [statements, upsertBill, List.mem_cons, List.mem_map] at hs
    rcases hs with rfl | ⟨p, -, rfl⟩
    · exact billUpsert_respects
    · exact plainMerge_respects rfl rfl
  | billSponsorship r =>
    simp only [statements, upsertBillSponsorship, List.mem_cons, List.not_mem_nil, or_false] at hs
    rcases hs with rfl | rfl | rfl
    · exact personUpsert_respects
    · exact billUpsert_respects
    · exact plainMerge_respects rfl rfl
  | electionResult r =>
    simp only [statements, upsertElectionResult, List.mem_cons, List.not_mem_nil, or_false] at hs
    rcases hs with rfl | rfl | rfl
    · exact partyUpsert_respects
    · exact electionResultUpsert_respects
    · exact plainMerge_respects rfl rfl
  | governmentDecision r =>
    obtain rfl := List.mem_singleton.1 hs
    exact governmentDecisionUpsert_respects

theorem Ingests.respects {s : CivicStmt} (h : Ingests T E s) : s.Respects civicSchema := by
  rcases h with ⟨r, iso, hs⟩ | ⟨row, hs⟩
  · exact IngestRecord.respects hs
  · obtain ⟨v, -, hs⟩ := Option.bind_eq_some_iff.1 hs
    obtain ⟨b, -, hs⟩ := Option.bind_eq_some_iff.1 hs
    cases hs
    exact voteEventAboutBill_respects

end CivicProof
