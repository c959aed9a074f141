import CivicProof.Proof.Ladder
import CivicProof.Spec.NameStores

/-!
# Ambiguous names in the live resolver

An ambiguous ladder is followed by the substring search, which looks at the graph only: the slot
is resolved whenever a single node contains the value, whichever entities the ladder found.

* `ambiguous_slot_iff`: when an ambiguous value leaves its slot unresolved.
-/

namespace CivicProof

open PropGraph

variable {σ : Type}

namespace LiveEntityResolver

variable {R : LiveEntityResolver σ} {slots : Slots} {S : NameStores}

/-- A slot's status is that of its round: by induction on the table, whose slots are distinct. -/
theorem slotLoop_status {l : List (Slot × EntityKind)} (hnd : (l.map Prod.fst).Nodup) {slot : Slot}
    {kind : EntityKind} {value : String} (hv : slots slot = some value) (hmem : (slot, kind) ∈ l) :
    ∀ {acc acc' : ResolutionResult} {s s' : σ},
      Eff.forList (R.slotRound slots) acc l s = (.ok acc', s') →
      ∃ t t' st id, R.resolveSlot kind value t = (.ok (st, id), t') ∧
        acc'.slotStatuses slot = some st := by
  induction l with
  | nil => exact absurd hmem List.not_mem_nil
  | cons entry rest ih =>
    intro acc acc' s s' h
    rw [List.map_cons, List.nodup_cons] at hnd
    rw [Eff.forList, Eff.bind_ok] at h
    obtain ⟨acc₁, s₁, h1, h2⟩ := h
    rcases List.mem_cons.1 hmem with rfl | hrest
    · obtain ⟨st, id, hr, hacc⟩ := slotRound_ok hv h1
      refine ⟨s, s₁, st, id, hr, ?_⟩
      rw [slotLoop_other hnd.1 h2, hacc, Function.update_self]
    · exact ih hnd.2 hrest h2

/-- What the ladder is asked for a value. -/
def ladderArgs (R : LiveEntityResolver σ) (value : String) : ResolveArgs σ :=
  if isHebrew value then
    { hebrewName := some value, session := some R.session, pgConn := R.pgConn }
  else { englishName := some value, session := some R.session, pgConn := R.pgConn }

/-- A live resolver whose calls read these stores. -/
structure Reads (R : LiveEntityResolver σ) (S : NameStores) : Prop where
  session : R.session = S.session
  pgConn : ∀ pg, R.pgConn = some pg → pg = S.pg

/-- The substring search for a value. -/
def fallbackQuery (kind : EntityKind) (value : String) : NameQuery :=
  .contains (fallbackFields kind).1 (fallbackFields kind).2 value

theorem ladderArgs_still (hR : R.Reads S) (value : String) (kind : EntityKind) :
    Eff.Still (CivicProof.resolve R.unicode R.fuzz kind (R.ladderArgs value)) := by
  have hsession : (R.ladderArgs value).session = some R.session := by
    unfold ladderArgs
    split <;> rfl
  have hpg : (R.ladderArgs value).pgConn = R.pgConn := by
    unfold ladderArgs
    split <;> rfl
  have htie : (R.ladderArgs value).llmTiebreaker = none := by
    unfold ladderArgs
    split <;> rfl
  have hrec : (R.ladderArgs value).recordAmbiguous = false := by
    unfold ladderArgs
    split <;> rfl
  have hclosed := Eff.still_closed (σ := σ)
  have hsettle : ∀ cs, Eff.Still (settleCandidates kind (R.ladderArgs value) cs) := by
    intro cs
    have hrecorded : Eff.Still (recordedAmbiguous kind (R.ladderArgs value) cs) := by
      unfold recordedAmbiguous
      split
      · rw [hrec]
        exact hclosed.pure ()
      · exact hclosed.pure ()
    unfold settleCandidates
    split
    · exact hclosed.pure _
    split
    · exact hclosed.pure _
    split
    · exact hclosed.pure _
    unfold tiebreak
    rw [htie]
    exact hclosed.bind (hclosed.pure none) fun pick => by
      cases pick with
      | some id => exact hclosed.pure _
      | none => exact hclosed.bind hrecorded fun _ => hclosed.pure _
  unfold CivicProof.resolve
  split
  · exact hclosed.raise _
  · rename_i label idField _
    rw [ladderCandidates_eq]
    refine hclosed.bind (climb_closed hclosed ?_ ?_ _ _ _ _) hsettle
    · intro run hrun q
      rw [hsession, hR.session] at hrun
      cases hrun
      exact hclosed.pure _
    · intro pg hconn kind text locale
      rw [hpg] at hconn
      rw [hR.pgConn pg hconn]
      exact hclosed.pure _

/-- The fallback resolves iff the search matches a single node. -/
theorem fallbackResolve_apply (hR : R.Reads S) (kind : EntityKind) (value : String) (s : σ) :
    ∃ found, fallbackResolve R.session kind value s = (.ok found, s) ∧
      (found.isSome ↔ (matching S.toLower S.graph (fallbackQuery kind value)).card = 1) := by
  have hlen := NameStores.length_found_eq_one (S := S) (q := fallbackQuery kind value) le_rfl
  have hrows : (S.rows (fallbackQuery kind value)).length = (S.found _).length :=
    List.length_map _
  rw [← hrows] at hlen
  rw [← hlen]
  unfold fallbackResolve
  rw [hR.session]
  rcases hfields : fallbackFields kind with ⟨label, fields⟩
  have hread : S.session (.contains label fields value) s =
      (.ok (S.rows (fallbackQuery kind value)), s) := by
    unfold fallbackQuery
    rw [hfields]
    rfl
  dsimp only
  rw [Eff.bind_of_ok hread]
  generalize S.rows (fallbackQuery kind value) = rows
  rcases rows with _ | ⟨row, _ | ⟨row', rest⟩⟩
  · exact ⟨none, rfl, by simp⟩
  · exact ⟨some row.id, rfl, by simp⟩
  · exact ⟨none, rfl, by simp⟩

/-- **A slot whose value the ladder finds ambiguous** is left unresolved iff the substring search
does not match exactly one node. -/
theorem ambiguous_slot_iff (hR : R.Reads S) {slot : Slot} {kind : EntityKind} {value : String}
    (hslot : (slot, kind) ∈ slotToKind) (hv : slots slot = some value) {s₀ s₁ : σ}
    {r₀ : ResolveResult}
    (hladder : CivicProof.resolve R.unicode R.fuzz kind (R.ladderArgs value) s₀ = (.ok r₀, s₁))
    (hamb : r₀.status = .ambiguous) {s s' : σ} {r : ResolutionResult}
    (h : R.resolve slots s = (.ok r, s')) :
    r.slotStatuses slot ≠ some .resolved ↔
      (matching S.toLower S.graph (fallbackQuery kind value)).card ≠ 1 := by
  obtain ⟨u, u', -, hloop⟩ := Eff.within_ok h
  obtain ⟨t, t', st, id, hround, hst⟩ := slotLoop_status slotToKind_nodup hv hslot hloop
  obtain ⟨found, hfall, hcard⟩ := fallbackResolve_apply hR kind value t
  have hagain := ((ladderArgs_still hR value kind).eq (t := t) hladder).2
  obtain ⟨status, entityId, candidates⟩ := r₀
  obtain rfl : status = .ambiguous := hamb
  unfold resolveSlot at hround
  rw [Eff.bind_ok] at hround
  obtain ⟨result, t₁, hresult, hround⟩ := hround
  obtain ⟨rfl, rfl⟩ : _ = result ∧ t = t₁ := by
    have heq := hagain.symm.trans hresult
    exact ⟨Except.ok.inj (Prod.mk.inj heq).1, (Prod.mk.inj heq).2⟩
  rw [Eff.bind_ok] at hround
  obtain ⟨found', t₂, hfound, hround⟩ := hround
  obtain ⟨rfl, rfl⟩ : found = found' ∧ t = t₂ := by
    have heq := hfall.symm.trans hfound
    exact ⟨Except.ok.inj (Prod.mk.inj heq).1, (Prod.mk.inj heq).2⟩
  rw [hst, not_iff_not, ← hcard]
  cases found with
  | some i =>
    cases hround
    exact iff_of_true rfl rfl
  | none =>
    cases hround
    exact iff_of_false (fun h => ResolverStatus.noConfusion (Option.some.inj h)) Bool.false_ne_true

/-- Two persons whose names are close to one mention, which one of them contains. -/
def closeNames : NameStores :=
  .ofNodes .person
    [(repeated 'a' isHexDigit_a, hebrewNamed "דן לוין"),
      (repeated 'b' isHexDigit_b, hebrewNamed "דן לו")]
    (by decide) id

/-- A resolver of these persons. The similarities are those of "דן לוי" to the two names. -/
def closeNamesResolver : LiveEntityResolver Unit where
  unicode := composedText
  fuzz := some ⟨fun _ name => if name = "דן לוין" then 1200 / 13 else 1000 / 11, fun _ _ => 100⟩
  openSession := pure ()
  closeSession := pure ()
  session := closeNames.session
  pgConn := none

theorem closeNamesResolver_reads : closeNamesResolver.Reads closeNames where
  session := rfl
  pgConn := by
    intro pg h
    cases h

/-- A claim about the mention. -/
def mentionSlots : Slots := fun slot => if slot = .speakerPersonId then some "דן לוי" else none

/-- The ladder finds the mention ambiguous. -/
theorem closeNames_ladder : ∃ r s,
    CivicProof.resolve closeNamesResolver.unicode closeNamesResolver.fuzz .person
      (closeNamesResolver.ladderArgs "דן לוי") () = (.ok r, s) ∧ r.status = .ambiguous :=
  Eff.ok_of_map (by decide +kernel)

/-- The resolver reports the slot as resolved. -/
theorem closeNames_resolve : ∃ r s, closeNamesResolver.resolve mentionSlots () = (.ok r, s) ∧
    r.slotStatuses .speakerPersonId = some .resolved :=
  Eff.ok_of_map (f := fun r : ResolutionResult => r.slotStatuses .speakerPersonId)
    (by decide +kernel)

/-- **An ambiguous value may be reported as resolved.** -/
theorem ambiguous_slot_resolved : ∃ r₀ s₀ r s,
    CivicProof.resolve closeNamesResolver.unicode closeNamesResolver.fuzz .person
      (closeNamesResolver.ladderArgs "דן לוי") () = (.ok r₀, s₀) ∧ r₀.status = .ambiguous ∧
      closeNamesResolver.resolve mentionSlots () = (.ok r, s) ∧
      r.slotStatuses .speakerPersonId = some .resolved := by
  obtain ⟨r₀, s₀, hladder, hamb⟩ := closeNames_ladder
  obtain ⟨r, s, hresolve, hstatus⟩ := closeNames_resolve
  exact ⟨r₀, s₀, r, s, hladder, hamb, hresolve, hstatus⟩

theorem ambiguous_slot_iff_close_names : ∃ r s,
    closeNamesResolver.resolve mentionSlots () = (.ok r, s) ∧
      (r.slotStatuses .speakerPersonId ≠ some .resolved ↔
        (matching closeNames.toLower closeNames.graph (fallbackQuery .person "דן לוי")).card ≠ 1) := by
  obtain ⟨r₀, s₀, hladder, hamb⟩ := closeNames_ladder
  obtain ⟨r, s, hresolve, -⟩ := closeNames_resolve
  have hslot : (Slot.speakerPersonId, EntityKind.person) ∈ slotToKind := by decide
  exact ⟨r, s, hresolve,
    ambiguous_slot_iff closeNamesResolver_reads hslot rfl hladder hamb hresolve⟩

end LiveEntityResolver

end CivicProof
