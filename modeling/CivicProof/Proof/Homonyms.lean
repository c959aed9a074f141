import CivicProof.Proof.FuzzyMatch
import Mathlib.Data.Nat.Bitwise

/-!
# Names that two nodes bear

The exact step finds both bearers of a name and passes on without a word. What the fuzzy step
makes of them depends on which nodes it scans.

* `homonyms_resolved_iff`: when a name with two bearers is not resolved.
* `homonyms_scanned`: two bearers among the nodes scanned are enough.
-/

namespace CivicProof

open PropGraph

variable {σ : Type}

/-- A lookup by Hebrew name alone: no external ids, no alias rows, no tiebreaker. -/
structure ByHebrewName (S : NameStores) (mention : String) (args : ResolveArgs σ) : Prop where
  hebrewName : args.hebrewName = some mention
  englishName : args.englishName = none
  externalIds : args.externalIds = []
  session : args.session = some S.session
  aliases : ∀ pg, args.pgConn = some pg → ∀ kind text locale, pg.aliases kind text locale = pure []
  llmTiebreaker : args.llmTiebreaker = none

/-- The nodes that bear a mention's normalised name. -/
def bearers (S : NameStores) (U : Unicode) (label mention : String) : Finset NodeKey :=
  matching S.toLower S.graph (.hebrewExact label (normalizeHebrew U mention))

/-- A step that finds nothing hands over to the next one. -/
theorem climb_cons {step : ℕ × Eff σ (List Candidate)} {rest : List (ℕ × Eff σ (List Candidate))}
    {s t : σ} (h : step.2 s = (.ok [], t)) : climb [] (step :: rest) s = climb [] rest t :=
  Eff.bind_of_ok h

/-- The exact step finds nothing where two nodes bear the name. -/
theorem lookupHebrewExact_homonyms {S : NameStores} {U : Unicode} {label mention : String}
    (hhom : 2 ≤ (bearers S U label mention).card) (s : σ) :
    lookupHebrewExact S.session label (normalizeHebrew U mention) s = (.ok none, s) := by
  have hlen : (S.rows (.hebrewExact label (normalizeHebrew U mention))).length = 2 := by
    rw [NameStores.rows, List.length_map, NameStores.length_found]
    exact Nat.min_eq_left hhom
  unfold lookupHebrewExact
  rw [Eff.bind_of_ok (rfl : S.session (.hebrewExact label (normalizeHebrew U mention)) s =
    (.ok (S.rows (.hebrewExact label (normalizeHebrew U mention))), s))]
  generalize S.rows (.hebrewExact label (normalizeHebrew U mention)) = rows at hlen ⊢
  rcases rows with _ | ⟨row, _ | ⟨row', rest⟩⟩
  · cases hlen
  · cases hlen
  · rfl

namespace ByHebrewName

variable {S : NameStores} {mention : String} {args : ResolveArgs σ}

/-- An alias step finds nothing. -/
theorem alias_step (h : ByHebrewName S mention args) (kind : EntityKind) (n : ℕ) (why : String)
    (penalty : ℤ) (text locale : String) (s : σ) {pg : PgConn σ} (hpg : args.pgConn = some pg) :
    (do return aliasCandidates n why penalty (← pg.aliases kind text locale)) s =
      (.ok [], s) := by
  rw [h.aliases pg hpg]
  rfl

/-- What such a lookup finds is what the fuzzy step finds. -/
theorem climb_eq (h : ByHebrewName S mention args) {U : Unicode} (fuzz : Option RapidFuzz)
    (kind : EntityKind) {label : String} (hhom : 2 ≤ (bearers S U label mention).card) (s : σ) :
    climb [] (ladderSteps U fuzz kind label args) s =
      if mention = "" then (.ok [], s)
      else lookupFuzzy U fuzz S.session label (some mention) none s := by
  have hlast : ∀ step : ℕ × Eff σ (List Candidate), climb [] [step] s = step.2 s := by
    intro step
    change (step.2 >>= fun found => pure found) s = step.2 s
    rw [Eff.bind_apply]
    rcases step.2 s with ⟨_ | a, s'⟩ <;> rfl
  unfold ladderSteps
  dsimp only
  rw [h.session, h.hebrewName, h.englishName, h.externalIds]
  by_cases hname : mention = ""
  · -- without a name no step applies
    have hnone : orNone (some mention) = none := by rw [hname]; rfl
    rw [hnone, if_pos hname]
    cases args.pgConn with
    | none => rfl
    | some pg => rfl
  · have hsome : orNone (some mention) = some mention := by
      unfold orNone
      rw [Option.filter_some, if_pos (decide_eq_true hname)]
    have hexact := lookupHebrewExact_homonyms hhom s
    rw [hsome, if_neg hname, climb_cons rfl, climb_cons (Eff.bind_of_ok hexact)]
    cases hpg : args.pgConn with
    | none =>
      rw [climb_cons rfl, climb_cons rfl, climb_cons rfl, hlast]
      rfl
    | some pg =>
      have htranslit : (if transliterateHebrew U mention = "" then pure [] else
          pg.aliases kind (transliterateHebrew U mention) "en" >>= fun hits =>
            pure (aliasCandidates 4 "transliteration" 10 hits) : Eff σ (List Candidate)) s =
          (.ok [], s) := by
        split
        · rfl
        · exact h.alias_step kind _ _ _ _ _ s hpg
      rw [climb_cons (h.alias_step kind _ _ _ _ _ s hpg), climb_cons rfl, climb_cons htranslit, hlast]
      rfl

end ByHebrewName

/-- **A name with two bearers** is left unresolved iff no node scanned stands alone. -/
theorem homonyms_resolved_iff {S : NameStores} {mention : String} {args : ResolveArgs σ}
    (h : ByHebrewName S mention args) {U : Unicode} {fuzz : Option RapidFuzz}
    {kind : EntityKind} {label idField : String} (hlabel : labelByKind kind = some (label, idField))
    (hhom : 2 ≤ (bearers S U label mention).card) {s s' : σ} {r : ResolveResult}
    (hr : resolve U fuzz kind args s = (.ok r, s')) :
    r.status ≠ .resolved ↔ ∀ similarity, fuzz = some similarity → mention ≠ "" →
      ∀ n ∈ S.scanned label, ¬StandsAlone (S.scanned label)
        (S.mentionScore U similarity label (some mention) none) n := by
  obtain ⟨label', idField', candidates, t, hlabel', hclimb, hexit⟩ := resolve_ok hr
  obtain ⟨rfl, -⟩ := Prod.mk.inj (Option.some.inj (hlabel.symm.trans hlabel'))
  rw [h.climb_eq fuzz kind hhom] at hclimb
  have hunresolved : candidates = [] → r.status ≠ .resolved := by
    rintro rfl hst
    cases hexit with
    | unresolved => cases hst
    | single best _ hbest => cases hbest
    | clear top hdiv => exact hdiv.ne_nil rfl
    | picked id hdiv => exact hdiv.ne_nil rfl
    | ambiguous => cases hst
  by_cases hname : mention = ""
  · rw [if_pos hname] at hclimb
    cases hclimb
    exact iff_of_true (hunresolved rfl) fun _ _ hne => absurd hname hne
  rw [if_neg hname] at hclimb
  cases fuzz with
  | none =>
    cases hclimb
    exact iff_of_true (hunresolved rfl) fun _ hnone => by cases hnone
  | some similarity =>
    rw [NameStores.lookupFuzzy_eq] at hclimb
    obtain rfl := Except.ok.inj (Prod.mk.inj hclimb).1
    have hranked := S.ranking_ranked U similarity label (some mention) none
    have hiff := hranked.resolved_iff h.llmTiebreaker hexit
    constructor
    · rintro hst similarity' heq - n hn halone
      cases heq
      exact hst (hiff.2 ⟨n, hn, halone⟩)
    · intro hnone hst
      obtain ⟨e, he, -, halone⟩ := hiff.1 hst
      exact hnone similarity rfl hname e.1 (hranked.mem e he).1 halone

/-- The score of a node whose stored name is the mention's normalised one. -/
theorem mentionScore_bearer {S : NameStores} {U : Unicode} {similarity : RapidFuzz}
    {label mention : String} (hnorm : normalizeHebrew U (normalizeHebrew U mention) =
      normalizeHebrew U mention) (hne : normalizeHebrew U mention ≠ "")
    (hsame : ∀ name, name ≠ "" → similarity.ratio name name = 100) {n : NodeKey}
    (hn : n ∈ bearers S U label mention) :
    100 ≤ S.mentionScore U similarity label (some mention) none n := by
  have hhe : textProp S.graph n .hebrewName = some (normalizeHebrew U mention) :=
    eq_of_beq (Bool.and_eq_true _ _ ▸ (Finset.mem_filter.1 hn).2).2
  have hrow : normalizeHebrew U ((rowOf S.graph n (.allNodes label)).he.getD "") =
      normalizeHebrew U mention := by
    change normalizeHebrew U ((textProp S.graph n .hebrewName).getD "") = _
    rw [hhe, Option.getD_some, hnorm]
  unfold NameStores.mentionScore nodeScore
  rw [hrow]
  refine le_trans ?_ (le_max_left _ _)
  refine le_trans ?_ (le_max_left _ _)
  rw [Option.getD_some, if_pos ⟨hne, hne⟩, hsame _ hne]

theorem nodeScore_le {U : Unicode} {similarity : RapidFuzz}
    (hmax : ∀ a b, similarity.ratio a b ≤ 100 ∧ similarity.partialRatio a b ≤ 100)
    (he en : String) (row : NodeRow) : nodeScore U similarity he en row ≤ 100 := by
  have hite : ∀ (p : Prop) [Decidable p] (x : ℚ), x ≤ 100 → (if p then x else 0) ≤ 100 := by
    intro p _ x hx
    split
    · exact hx
    · norm_num
  unfold nodeScore
  refine max_le (max_le (hite _ _ (hmax _ _).1) (max_le (hite _ _ (hmax _ _).1)
    (hite _ _ (hmax _ _).1))) ?_
  refine le_trans (Rat.floor_le _) ?_
  have hpartial := hite (he ≠ "" ∧ normalizeHebrew U (row.he.getD "") ≠ "")
    (similarity.partialRatio he (normalizeHebrew U (row.he.getD ""))) (hmax _ _).2
  linarith

/-- **Two bearers among the nodes scanned** keep any node from standing alone, if equal names score
100 and none scores more. -/
theorem homonyms_scanned {S : NameStores} {U : Unicode} {similarity : RapidFuzz}
    {label mention : String} (hnorm : normalizeHebrew U (normalizeHebrew U mention) =
      normalizeHebrew U mention) (hne : normalizeHebrew U mention ≠ "")
    (hsame : ∀ name, name ≠ "" → similarity.ratio name name = 100)
    (hmax : ∀ a b, similarity.ratio a b ≤ 100 ∧ similarity.partialRatio a b ≤ 100)
    {a b : NodeKey} (hab : a ≠ b) (ha : a ∈ S.scanned label) (hb : b ∈ S.scanned label)
    (hbears : a ∈ bearers S U label mention) (hbears' : b ∈ bearers S U label mention) :
    ∀ n ∈ S.scanned label, ¬StandsAlone (S.scanned label)
      (S.mentionScore U similarity label (some mention) none) n := by
  intro n hn halone
  -- one of the two is another node, and scores 100
  obtain ⟨other, hother, hdiff, hscore⟩ : ∃ other ∈ S.scanned label, other ≠ n ∧
      100 ≤ S.mentionScore U similarity label (some mention) none other := by
    by_cases heq : a = n
    · exact ⟨b, hb, fun h => hab (heq.trans h.symm), mentionScore_bearer hnorm hne hsame hbears'⟩
    · exact ⟨a, ha, heq, mentionScore_bearer hnorm hne hsame hbears⟩
  have htop : S.mentionScore U similarity label (some mention) none n ≤ 100 :=
    nodeScore_le hmax _ _ _
  have hmargin := fuzzyMargin_pos
  rcases halone with ⟨-, hlow⟩ | ⟨-, hlead⟩
  · have hbelow := hlow other hother hdiff
    linarith
  · have hgap := hlead other hother hdiff
    linarith

/-! ## More nodes than a scan reads -/

/-- The id with a given number, in binary digits. -/
def numberedId (i : ℕ) : Uuid where
  hex := List.ofFn fun k : Fin 32 => if i.testBit k then '1' else '0'
  wf := by
    refine ⟨List.length_ofFn, List.all_eq_true.2 fun c hc => ?_⟩
    obtain ⟨k, rfl⟩ := (List.mem_ofFn' _ _).1 hc
    dsimp only
    split <;> rfl

theorem numberedId_inj {i j : ℕ} (hi : i < 2 ^ 32) (hj : j < 2 ^ 32)
    (h : numberedId i = numberedId j) : i = j := by
  have hhex : (List.ofFn fun k : Fin 32 => if i.testBit k then '1' else '0') =
      List.ofFn fun k : Fin 32 => if j.testBit k then '1' else '0' := congrArg Uuid.hex h
  have hdigits := List.ofFn_injective hhex
  refine Nat.eq_of_testBit_eq fun k => ?_
  rcases lt_or_ge k 32 with hk | hk
  · have hdigit := congrFun hdigits ⟨k, hk⟩
    dsimp only at hdigit
    cases hbi : i.testBit k <;> cases hbj : j.testBit k
    · rfl
    · rw [hbi, hbj] at hdigit
      exact absurd hdigit (by decide)
    · rw [hbi, hbj] at hdigit
      exact absurd hdigit (by decide)
    · rfl
  · have hpow : 2 ^ 32 ≤ 2 ^ k := Nat.pow_le_pow_right (by decide) hk
    rw [Nat.testBit_lt_two_pow (by omega), Nat.testBit_lt_two_pow (by omega)]

/-- Five hundred and one persons: the first and the last bear one name, of the others none is
known. -/
def farApart : List (Uuid × (Field → Option Datum)) :=
  (List.range 501).map fun i =>
    (numberedId i, if i = 0 ∨ i = 500 then hebrewNamed "דן לוי" else fun _ => none)

theorem farApart_nodup : (farApart.map Prod.fst).Nodup := by
  rw [farApart, List.map_map]
  refine List.Nodup.map_on ?_ List.nodup_range
  intro i hi j hj h
  rw [List.mem_range] at hi hj
  exact numberedId_inj (by omega) (by omega) h

/-- Their stores. -/
def farApartStores : NameStores := .ofNodes .person farApart farApart_nodup id

theorem farApartStores_graph : farApartStores.graph = nodeGraph .person farApart := rfl

theorem mem_farApart {i : ℕ} (hi : i < 501) :
    (numberedId i, if i = 0 ∨ i = 500 then hebrewNamed "דן לוי" else fun _ => none) ∈ farApart :=
  List.mem_map_of_mem (List.mem_range.2 hi)

theorem farApart_textProp {i : ℕ} (hi : i < 501) (f : Field) :
    textProp farApartStores.graph (entityKey .person (numberedId i)) f =
      if i = 0 ∨ i = 500 then (hebrewNamed "דן לוי" f).bind Datum.text? else none := by
  have hprop := nodeGraph_prop .person farApart_nodup (mem_farApart hi) f
  rw [farApartStores_graph, textProp, hprop]
  split <;> rfl

theorem mem_bearers_farApart {i : ℕ} (hi : i < 501) (hname : i = 0 ∨ i = 500) :
    entityKey .person (numberedId i) ∈ bearers farApartStores composedText "Person" "דן לוי" := by
  have hnorm : normalizeHebrew composedText "דן לוי" = "דן לוי" := by decide
  have hhe := farApart_textProp hi .hebrewName
  rw [if_pos hname] at hhe
  have hkey := mem_keys_nodeGraph .person (mem_farApart hi)
  rw [← farApartStores_graph] at hkey
  rw [bearers, matching, Finset.mem_filter, hnorm]
  refine ⟨hkey, ?_⟩
  rw [nodeMatches, hhe]
  rfl

theorem mem_scanned_farApart {n : NodeKey} : n ∈ farApartStores.scanned "Person" ↔
    ∃ i < 500, n = entityKey .person (numberedId i) := by
  have hscan : farApartStores.scanned "Person" =
      (List.range 500).map fun i => entityKey .person (numberedId i) := by
    have hmin : min 500 501 = 500 := rfl
    refine (NameStores.found_ofNodes .person farApart_nodup id).trans ?_
    rw [farApart, List.map_map, ← List.map_take, List.take_range, hmin]
    rfl
  rw [hscan, List.mem_map]
  constructor
  · rintro ⟨i, hi, rfl⟩
    exact ⟨i, List.mem_range.1 hi, rfl⟩
  · rintro ⟨i, hi, rfl⟩
    exact ⟨i, List.mem_range.2 hi, rfl⟩

/-- Equal names score 100, others nothing. -/
def equalNames : RapidFuzz :=
  ⟨fun a b => if a = b then 100 else 0, fun a b => if a = b then 100 else 0⟩

/-- The score of a person without a name. -/
theorem farApart_score {i : ℕ} (hi : i < 500) (hne : i ≠ 0) :
    farApartStores.mentionScore composedText equalNames "Person" (some "דן לוי") none
      (entityKey .person (numberedId i)) = 0 := by
  have hprop := farApart_textProp (i := i) (by omega)
  have hmid : ¬(i = 0 ∨ i = 500) := by omega
  simp only [if_neg hmid] at hprop
  have hempty : normalizeHebrew composedText "" = "" := rfl
  have hlower : composedText.lower (strip "") = "" := by decide
  have hfloor : ((0 : ℚ) * (92 / 100)).floor = 0 := by
    rw [zero_mul]
    rfl
  unfold NameStores.mentionScore nodeScore rowOf
  simp only [hprop, Option.getD_none, hempty, hlower, ne_eq, not_true_eq_false, and_false,
    if_false, max_self, hfloor, Int.cast_zero]

/-- The first person stands alone. -/
theorem farApart_standsAlone : StandsAlone (farApartStores.scanned "Person")
    (farApartStores.mentionScore composedText equalNames "Person" (some "דן לוי") none)
    (entityKey .person (numberedId 0)) := by
  have hsame : ∀ name, name ≠ "" → equalNames.ratio name name = 100 := fun name _ => if_pos rfl
  have hscore := mentionScore_bearer (by decide) (by decide) hsame
    (mem_bearers_farApart (i := 0) (by decide) (Or.inl rfl))
  refine Or.inl ⟨le_trans (by norm_num) hscore, fun n hn hne => ?_⟩
  obtain ⟨i, hi, rfl⟩ := mem_scanned_farApart.1 hn
  rw [farApart_score hi fun h => hne (by rw [h])]
  norm_num

/-- The question for the name. -/
def farApartArgs : ResolveArgs Unit :=
  { hebrewName := some "דן לוי", session := some farApartStores.session }

theorem farApartArgs_byHebrewName : ByHebrewName farApartStores "דן לוי" farApartArgs where
  hebrewName := rfl
  englishName := rfl
  externalIds := rfl
  session := rfl
  aliases := by
    intro pg h
    cases h
  llmTiebreaker := rfl

theorem farApart_card : 2 ≤ (bearers farApartStores composedText "Person" "דן לוי").card := by
  have hne : entityKey .person (numberedId 0) ≠ entityKey .person (numberedId 500) := by
    intro h
    have heq := numberedId_inj (by decide) (by decide) (entityKey_injective _ h)
    exact absurd heq (by decide)
  rw [← Finset.card_pair hne]
  refine Finset.card_le_card fun n hn => ?_
  rcases Finset.mem_insert.1 hn with rfl | hn
  · exact mem_bearers_farApart (by decide) (Or.inl rfl)
  · rw [Finset.mem_singleton.1 hn]
    exact mem_bearers_farApart (by decide) (Or.inr rfl)

/-- Without a tiebreaker and a connection every list of candidates is settled. -/
theorem settleCandidates_ends (kind : EntityKind) {args : ResolveArgs σ}
    (htie : args.llmTiebreaker = none) (hpg : args.pgConn = none) (cs : List Candidate) (s : σ) :
    ∃ r, settleCandidates kind args cs s = (.ok r, s) := by
  have hpick : tiebreak kind args cs s = (.ok none, s) := by
    unfold tiebreak
    rw [htie]
    rfl
  have hrecord : recordedAmbiguous kind args cs s = (.ok (), s) := by
    unfold recordedAmbiguous
    rw [hpg]
    rfl
  unfold settleCandidates
  by_cases hnil : cs = []
  · rw [if_pos hnil]
    exact ⟨_, rfl⟩
  rw [if_neg hnil]
  by_cases hone : (cs.map (·.entityId)).dedup.length = 1
  · rw [if_pos hone]
    exact ⟨_, rfl⟩
  rw [if_neg hone]
  cases fuzzyWinner cs with
  | some top => exact ⟨_, rfl⟩
  | none =>
    dsimp only
    rw [Eff.bind_of_ok hpick]
    dsimp only
    rw [Eff.bind_of_ok hrecord]
    exact ⟨_, rfl⟩

/-- The answer to the question. -/
theorem farApart_resolve : ∃ r s,
    resolve composedText (some equalNames) .person farApartArgs () = (.ok r, s) ∧
      r.status = .resolved := by
  have hname : ¬("דן לוי" : String) = "" := by decide
  have hclimb := farApartArgs_byHebrewName.climb_eq (some equalNames) .person farApart_card ()
  rw [if_neg hname, NameStores.lookupFuzzy_eq] at hclimb
  have htie : farApartArgs.llmTiebreaker = none := rfl
  obtain ⟨r, hsettle⟩ := settleCandidates_ends .person htie rfl
    (Ranked.candidates (farApartStores.ranking composedText equalNames "Person" (some "דן לוי") none))
    ()
  refine ⟨r, (), ?_, ?_⟩
  · unfold resolve
    change (ladderCandidates composedText (some equalNames) .person "Person" farApartArgs >>= _) () = _
    rw [ladderCandidates_eq, Eff.bind_of_ok hclimb]
    exact hsettle
  · have hfirst : entityKey .person (numberedId 0) ∈ farApartStores.scanned "Person" :=
      mem_scanned_farApart.2 ⟨0, by decide, rfl⟩
    exact ((NameStores.ranking_ranked _ _ _ _ _ _).resolved_iff rfl (settleCandidates_exit hsettle)).2
      ⟨_, hfirst, farApart_standsAlone⟩

/-- **A name with two bearers is resolved** when the scan reads one of them only. -/
theorem homonyms_resolved : ∃ r s,
    ByHebrewName farApartStores "דן לוי" farApartArgs ∧
      2 ≤ (bearers farApartStores composedText "Person" "דן לוי").card ∧
      resolve composedText (some equalNames) .person farApartArgs () = (.ok r, s) ∧
      r.status = .resolved := by
  obtain ⟨r, s, hr, hst⟩ := farApart_resolve
  exact ⟨r, s, farApartArgs_byHebrewName, farApart_card, hr, hst⟩

theorem homonyms_resolved_iff_far_apart : ∃ r s,
    resolve composedText (some equalNames) .person farApartArgs () = (.ok r, s) ∧
      (r.status ≠ .resolved ↔ ∀ similarity, some equalNames = some similarity →
        ("דן לוי" : String) ≠ "" → ∀ n ∈ farApartStores.scanned "Person",
          ¬StandsAlone (farApartStores.scanned "Person")
            (farApartStores.mentionScore composedText similarity "Person" (some "דן לוי") none) n) := by
  obtain ⟨r, s, hr, -⟩ := farApart_resolve
  have hlabel : labelByKind .person = some ("Person", "person_id") := rfl
  exact ⟨r, s, hr, homonyms_resolved_iff farApartArgs_byHebrewName hlabel farApart_card hr⟩

end CivicProof
