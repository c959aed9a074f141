import CivicProof.Proof.ArchiveUri
import CivicProof.Proof.DigestLife

/-!
# The archive keeps one object and one row

A call looks the digest up, then stores, then inserts, with no lock between. Two calls with the
same bytes that overlap both store them, each under the URI of its own day and extension, and one
of them fails at its insert; a call that has stored its content and is lost leaves an object that
a retry on another day does not find.

* `Orderly.step`: the invariant of undisturbed runs.
* `Orderly.goesWrong`: a disturbed lookup can lead to an archive that is not safe.
* `archive_safe`: the archive is safe in every run whose lookups are undisturbed.
-/

namespace CivicProof

open Transact

variable {C K : Type}

/-- The call that an event is a step of. -/
def ArchiveEvent.call : ArchiveEvent C K → Option C
  | .lookup c | .put c | .refuse c | .insert c | .violate c | .commit c => some c
  | .openRun _ | .callerCommit _ | .callerRollback _ | .crash _ => none

/-- A record of the row, but for a content type that the row lacks. -/
def RawFetchObject.IsRecord (row : RawFetchObject) (r : ArchiveRecord) : Prop :=
  r.toRawFetchObject = { row with contentType := r.contentType } ∧
    (row.contentType ≠ "" → r.contentType = row.contentType)

theorem ArchiveCall.isRecord_existing (a : ArchiveCall) (row : RawFetchObject) :
    row.IsRecord (a.existing row) := by
  refine ⟨rfl, fun h => ?_⟩
  simp [ArchiveCall.existing, orNone, Option.filter, h]

theorem RawFetchObject.isRecord_record (row : RawFetchObject) : row.IsRecord row.record :=
  ⟨rfl, fun _ => rfl⟩

variable [DecidableEq C] [DecidableEq K] (E : ArchiveEnv) (P : ArchiveCalls C K)

/-- `ArchiveRun E P p s`: from an archive with nothing in it, the steps of `p` lead to `s`. -/
def ArchiveRun (p : List (ArchiveEvent C K)) (s : Archive C K) : Prop :=
  Run (ArchiveStep E P) (Archive.empty C K) p s

/-- A run of undisturbed steps. -/
def UndisturbedRun (p : List (ArchiveEvent C K)) (s : Archive C K) : Prop :=
  Run (fun s e s' => ArchiveStep E P s e s' ∧ e.Undisturbed E P s) (Archive.empty C K) p s

/-- What call `c` has returned is the record of the row of its digest, unless the caller whose
transaction it took part in has lost it. -/
structure Recorded (p : List (ArchiveEvent C K)) (s : Archive C K) (c : C) (r : ArchiveRecord) :
    Prop where
  digest : r.contentSha256 = P.digest E c
  row : (∃ row, s.findExisting E P c = some row ∧ row.IsRecord r) ∨
    ∃ k, P.conn c = some k ∧ ∃ e ∈ p, e.Loses (.shared k)

/-- Call `c` comes to return a record of its digest, all by itself. -/
def WillReturn (s : Archive C K) (c : C) : Prop :=
  ∃ q s' r, Run (ArchiveStep E P) s q s' ∧ (∀ e ∈ q, e.call = some c) ∧
    s'.call c = .returned r ∧ r.contentSha256 = P.digest E c

/-- One row and one object for a digest, the one naming the other; and calls return. -/
structure ArchiveSafe (p : List (ArchiveEvent C K)) (s : Archive C K) : Prop where
  one_row : ∀ d d' row row', (s.rows d).committed = some row → (s.rows d').committed = some row' →
    row.contentSha256 = row'.contentSha256 → row = row'
  stored : ∀ d row, (s.rows d).committed = some row →
    ∃ content, s.objects row.archiveUri = some content ∧ E.sha256 content = row.contentSha256
  one_object : ∀ uri uri' content content', s.objects uri = some content →
    s.objects uri' = some content' → E.sha256 content = E.sha256 content' → uri = uri'
  unraised : ∀ c err, s.call c ≠ .raised err
  recorded : ∀ c r, s.call c = .returned r → Recorded E P p s c r
  returns : ∀ c, (s.call c).active = true → WillReturn E P s c

/-- The invariant of undisturbed runs. -/
structure Orderly (p : List (ArchiveEvent C K)) (s : Archive C K) : Prop where
  sound : s.Sound E P
  ready : s.Ready E P
  opened : ∀ σ, s.aborted σ = false
  shown : ∀ d, ∃ x, s.Shows E P d x
  unraised : ∀ c err, s.call c ≠ .raised err
  one_object : ∀ uri uri', s.objects uri ≠ none → s.objects uri' ≠ none →
    uri.sha256 = uri'.sha256 → uri = uri'
  -- what a call will store is stored under no other URI
  aims : ∀ c uri, s.call c = .missed uri →
    ∀ uri', s.objects uri' ≠ none → uri'.sha256 = P.digest E c → uri' = uri
  recorded : ∀ c r, s.call c = .returned r → Recorded E P p s c r

theorem orderly_empty : Orderly E P [] (Archive.empty C K) where
  sound := Archive.sound_empty E P
  ready := Archive.ready_empty
  opened _ := rfl
  shown d := ⟨.idle, Archive.shows_empty d⟩
  unraised := nofun
  one_object _ _ h := absurd rfl h
  aims := nofun
  recorded := nofun

variable {E P} {p : List (ArchiveEvent C K)} {s s' : Archive C K} {e : ArchiveEvent C K} {c : C}
  {uri : ArchiveCoord} {row : RawFetchObject} {r : ArchiveRecord}

/-! ## One step -/

omit [DecidableEq C] [DecidableEq K] in
/-- A row that a session sees, it sees until its transaction is lost. -/
theorem DigestStep.sees {x y : DigestState C K} {σ : ArchiveSession C K} (h : DigestStep x e y)
    (hx : x = .committed row ∨ x = .inserted σ row) :
    (y = .committed row ∨ y = .inserted σ row) ∨ (x = .inserted σ row ∧ e.Loses σ) := by
  cases h with
  | stay => exact Or.inl hx
  | lookup => simp at hx
  | put => simp at hx
  | insert => simp at hx
  | commit =>
    obtain hx | hx := hx <;> cases hx
    exact Or.inl (Or.inl rfl)
  | lose h =>
    obtain hx | hx := hx <;> cases hx
    exact Or.inr ⟨rfl, h⟩
  | crash hcell => obtain rfl | rfl := hx <;> cases hcell

/-- A record stays one. -/
theorem Recorded.step {x y : DigestState C K} (h : Recorded E P p s c r)
    (hc : s.call c = .returned r) (hx : s.Shows E P (P.digest E c) x) (hstep : DigestStep x e y)
    (hy : s'.Shows E P (P.digest E c) y) : Recorded E P (p ++ [e]) s' c r where
  digest := h.digest
  row := by
    rcases h.row with ⟨row, hrow, hrecord⟩ | ⟨k, hk, e', he', hloses⟩
    · rw [Archive.findExisting, hx.cell, DigestState.view_cell] at hrow
      rcases hstep.sees hrow with hsees | ⟨rfl, hloses⟩
      · refine Or.inl ⟨row, ?_, hrecord⟩
        rwa [Archive.findExisting, hy.cell, DigestState.view_cell]
      · cases hconn : P.conn c with
        | none =>
          -- a call that has returned is through with a connection of its own
          have hσ : P.session c = .own c := ArchiveCalls.session_eq_own.2 ⟨rfl, hconn⟩
          have hc' := (hx.call c (.inserted row) (by rw [hσ]; rfl)).2
          rw [hc] at hc'
          cases hc'
        | some k =>
          rw [ArchiveCalls.session, hconn] at hloses
          exact Or.inr ⟨k, rfl, e, List.mem_append_right _ (.head _), hloses⟩
    · exact Or.inr ⟨k, hk, e', List.mem_append_left _ he', hloses⟩

namespace Orderly

/-- The digest of a row that a call finds. -/
theorem found (h : Orderly E P p s) (hrow : s.findExisting E P c = some row) :
    row.contentSha256 = P.digest E c :=
  (h.sound.row _ _ (Cell.has_of_view hrow)).1

/-- Two calls at one digest are one call. -/
theorem eq_of_active {c' : C} (h : Orderly E P p s) (hd : P.digest E c' = P.digest E c)
    (hc : (s.call c).active = true) (hc' : (s.call c').active = true) : c' = c := by
  obtain ⟨x, hx⟩ := h.shown (P.digest E c)
  have hpos := hx.position_eq rfl rfl hc
  have hpos' := hx.position_eq hd rfl hc'
  rw [hpos] at hpos'
  cases hpos'
  rfl

theorem not_violate (h : Orderly E P p s) : ¬ArchiveStep E P s (.violate c) s' := by
  obtain ⟨x, hx⟩ := h.shown (P.digest E c)
  exact hx.not_violate h.ready (h.opened _)

theorem opened_step (h : Orderly E P p s) (hstep : ArchiveStep E P s e s')
    (σ : ArchiveSession C K) : s'.aborted σ = false := by
  have hends : ∀ τ, Function.update s.aborted τ false σ = false := by
    intro τ
    by_cases hτ : σ = τ
    · rw [hτ, Function.update_self]
    · rw [Function.update_of_ne hτ, h.opened]
  cases hstep with
  | violate hc htexts hfails => exact absurd (.violate hc htexts hfails) h.not_violate
  | callerCommit => exact hends _
  | callerRollback => exact hends _
  | crash => exact hends _
  | _ => exact h.opened σ

theorem unraised_step (h : Orderly E P p s) (hstep : ArchiveStep E P s e s')
    (hgood : e.Undisturbed E P s) (c : C) (err : PyError) : s'.call c ≠ .raised err := by
  -- the call of the step does not raise, and the others have not
  have hgoOn : ∀ {c' pc}, pc ≠ .raised err → (s.goOn c' pc).call c ≠ .raised err := by
    intro c' pc hpc
    by_cases hc : c = c'
    · rw [hc, show (s.goOn c' pc).call c' = pc from Function.update_self ..]
      exact hpc
    · rw [show (s.goOn c' pc).call c = s.call c from Function.update_of_ne hc ..]
      exact h.unraised c err
  cases hstep with
  | openRun => exact h.unraised c err
  | lookup =>
    refine hgoOn ?_
    rcases Archive.lookup_undisturbed (h.opened _) hgood with
      ⟨row, -, heq⟩ | ⟨-, -, -, uri, -, heq⟩
    · rw [heq]
      exact nofun
    · rw [heq]
      exact nofun
  | put => exact hgoOn nofun
  | refuse hrefuses => exact absurd (.refuse hrefuses) h.ready.not_refuse
  | insert =>
    refine hgoOn ?_
    unfold ArchiveCalls.afterInsert
    split <;> exact nofun
  | violate hc htexts hfails => exact absurd (.violate hc htexts hfails) h.not_violate
  | commit => exact hgoOn nofun
  | callerCommit => exact h.unraised c err
  | callerRollback => exact h.unraised c err
  | crash σ =>
    change (if P.session c = σ ∧ (s.call c).active = true then _ else _) ≠ _
    split
    · exact nofun
    · exact h.unraised c err

theorem one_object_step (h : Orderly E P p s) (hstep : ArchiveStep E P s e s')
    {uri uri' : ArchiveCoord} (huri : s'.objects uri ≠ none) (huri' : s'.objects uri' ≠ none)
    (hsha : uri.sha256 = uri'.sha256) : uri = uri' := by
  -- what is put is stored under no other URI yet
  have hput : ∀ {c uri uri'}, s.call c = .missed uri → s.objects uri' ≠ none →
      uri.sha256 = uri'.sha256 → uri' = uri := by
    intro c uri uri' hc hobject hsha
    exact h.aims c uri hc uri' hobject (hsha.symm.trans (h.sound.missed c uri hc))
  rcases hstep.object_cases huri with hold | ⟨c, rfl, hc, hstored⟩ <;>
    rcases hstep.object_cases huri' with hold' | ⟨c', he, hc', hstored'⟩
  · exact h.one_object uri uri' hold hold' hsha
  · exact hput hc' hold hsha.symm
  · exact (hput hc hold' hsha).symm
  · cases he
    rw [hstored] at hstored'
    cases hstored'
    rfl

theorem aims_step (h : Orderly E P p s) (hstep : ArchiveStep E P s e s')
    (hgood : e.Undisturbed E P s) {uri' : ArchiveCoord} (hc : s'.call c = .missed uri)
    (huri' : s'.objects uri' ≠ none) (hsha : uri'.sha256 = P.digest E c) : uri' = uri := by
  have hcall := hstep.call c
  rw [hc] at hcall
  generalize hx : s.call c = x at hcall
  cases hcall with
  | ends hended => cases hended
  | stay =>
    rcases hstep.object_cases huri' with hold | ⟨c', rfl, hc', hstored⟩
    · exact h.aims c uri hx uri' hold hsha
    · -- the call that puts it is at the same digest
      obtain rfl : c' = c := by
        refine h.eq_of_active ((h.sound.missed c' uri' hc').symm.trans hsha) ?_ ?_
        · rw [hx]
          rfl
        · rw [hc']
          rfl
      rw [hstored] at hc
      cases hc
  | misses huri =>
    obtain ⟨-, ⟨⟨uri₀, huri₀, honly⟩, -, -⟩, -⟩ := hstep.misses (h.opened _) hgood hc
    rw [huri] at huri₀
    cases huri₀
    rcases hstep.object_cases huri' with hold | ⟨c', he, -, -⟩
    · obtain ⟨content, hcontent⟩ := Option.ne_none_iff_exists'.1 hold
      exact honly uri' content hcontent ((h.sound.named uri' content hcontent).trans hsha)
    · cases he

theorem recorded_step (h : Orderly E P p s) (hstep : ArchiveStep E P s e s')
    (hgood : e.Undisturbed E P s) (hc : s'.call c = .returned r) :
    Recorded E P (p ++ [e]) s' c r := by
  obtain ⟨x, hx⟩ := h.shown (P.digest E c)
  obtain ⟨y, hlife, hy⟩ := hx.step h.sound h.ready h.opened h.shown hstep hgood
  by_cases hbefore : s.call c = .returned r
  · exact (h.recorded c r hbefore).step hbefore hx hlife hy
  -- the call has just returned
  have hgoOn : ∀ {c' pc}, (s.goOn c' pc).call c = .returned r → c = c' ∧ pc = .returned r := by
    intro c' pc hpc
    by_cases heq : c = c'
    · subst heq
      rw [show (s.goOn c pc).call c = pc from Function.update_self ..] at hpc
      exact ⟨rfl, hpc⟩
    · rw [show (s.goOn c' pc).call c = s.call c from Function.update_of_ne heq ..] at hpc
      exact absurd hpc hbefore
  cases hstep with
  | openRun => exact absurd hc hbefore
  | lookup =>
    obtain ⟨rfl, hlookup⟩ := hgoOn hc
    rcases Archive.lookup_undisturbed (h.opened _) hgood with
      ⟨row, hfound, heq⟩ | ⟨-, -, -, uri, -, heq⟩
    · rw [heq] at hlookup
      cases hlookup
      have hdigest := h.found hfound
      exact ⟨hdigest, Or.inl ⟨row, hfound, ArchiveCall.isRecord_existing _ row⟩⟩
    · rw [heq] at hlookup
      cases hlookup
  | put =>
    obtain ⟨-, hpc⟩ := hgoOn hc
    cases hpc
  | refuse =>
    obtain ⟨-, hpc⟩ := hgoOn hc
    cases hpc
  | @insert _ uri =>
    obtain ⟨rfl, hpc⟩ := hgoOn hc
    unfold ArchiveCalls.afterInsert at hpc
    split at hpc
    · cases hpc
    · cases hpc
      refine ⟨rfl, Or.inl ⟨P.row E c uri, ?_, RawFetchObject.isRecord_record _⟩⟩
      change (s.rows.insert _ _ _ _).view _ = _
      rw [Table.insert_self, Cell.view_write]
  | violate hstored htexts hfails => exact absurd (.violate hstored htexts hfails) h.not_violate
  | @commit _ row hrow =>
    obtain ⟨rfl, hpc⟩ := hgoOn hc
    cases hpc
    have hpos := hx.position_eq rfl hrow rfl
    obtain rfl := DigestState.eq_inserted hpos
    have hown : P.session c = .own c :=
      ArchiveCalls.session_eq_own.2 ⟨rfl, h.sound.inserted c row hrow⟩
    have hrows : s.rows.commit (P.session c) (P.digest E c) = ⟨some row, none⟩ := by
      rw [hown, Table.commit_apply, hx.cell]
      exact Cell.commit_own
    refine ⟨(h.sound.row _ row (Or.inr ⟨.own c, by rw [hx.cell]; rfl⟩)).1,
      Or.inl ⟨row, ?_, RawFetchObject.isRecord_record row⟩⟩
    change (s.rows.commit _ _).view _ = _
    rw [hrows]
    rfl
  | callerCommit => exact absurd hc hbefore
  | callerRollback => exact absurd hc hbefore
  | crash =>
    change (if _ then _ else s.call c) = _ at hc
    split at hc
    · cases hc
    · exact absurd hc hbefore

/-- **An undisturbed step** keeps the invariant. -/
theorem step (h : Orderly E P p s) (hstep : ArchiveStep E P s e s')
    (hgood : e.Undisturbed E P s) : Orderly E P (p ++ [e]) s' where
  sound := h.sound.step hstep
  ready := h.ready.step h.opened hstep hgood
  opened := h.opened_step hstep
  shown d := by
    obtain ⟨x, hx⟩ := h.shown d
    obtain ⟨y, -, hy⟩ := hx.step h.sound h.ready h.opened h.shown hstep hgood
    exact ⟨y, hy⟩
  unraised := h.unraised_step hstep hgood
  one_object _ _ := h.one_object_step hstep
  aims _ _ hc _ := h.aims_step hstep hgood hc
  recorded _ _ := h.recorded_step hstep hgood

/-! ## Calls return -/

end Orderly

theorem UndisturbedRun.orderly (h : UndisturbedRun E P p s) : Orderly E P p s :=
  h.preserves (orderly_empty E P) fun _ _ _ _ _ horderly hstep => horderly.step hstep.1 hstep.2

theorem WillReturn.cons (hstep : ArchiveStep E P s e s') (he : e.call = some c)
    (h : WillReturn E P s' c) : WillReturn E P s c := by
  obtain ⟨q, t, r, hrun, hown, hreturned⟩ := h
  refine ⟨e :: q, t, r, .cons hstep hrun, fun e' he' => ?_, hreturned⟩
  rcases List.mem_cons.1 he' with rfl | he'
  · exact he
  · exact hown e' he'

namespace Orderly

theorem returns_of_returned (h : Orderly E P p s) (hc : s.call c = .returned r) :
    WillReturn E P s c :=
  ⟨[], s, r, .nil, nofun, hc, (h.recorded c r hc).digest⟩

theorem returns_of_inserted (h : Orderly E P p s) (hc : s.call c = .inserted row) :
    WillReturn E P s c := by
  have hstep := ArchiveStep.commit (E := E) (P := P) hc
  exact .cons hstep rfl ((h.step hstep trivial).returns_of_returned (Function.update_self ..))

theorem returns_of_stored (h : Orderly E P p s) (hc : s.call c = .stored uri) :
    WillReturn E P s c := by
  obtain ⟨x, hx⟩ := h.shown (P.digest E c)
  have hpos := hx.position_eq rfl hc rfl
  have hfree : (s.rows (P.digest E c)).FreeFor (P.session c) := by
    rw [hx.cell, DigestState.eq_stored hpos]
    exact Cell.freeFor_unlocked
  have hstep := ArchiveStep.insert hc (h.opened _) hfree (hx.not_fails hc)
    (h.ready.row c uri (Or.inr hc))
  have hnext := h.step hstep trivial
  refine .cons hstep rfl ?_
  have hcall : (s.goOn c (P.afterInsert E c uri)).call c = P.afterInsert E c uri :=
    Function.update_self ..
  by_cases hconn : P.conn c = none
  · have hinserted : P.afterInsert E c uri = .inserted (P.row E c uri) := if_pos hconn
    exact hnext.returns_of_inserted (hcall.trans hinserted)
  · have hreturned : P.afterInsert E c uri = .returned (P.row E c uri).record := if_neg hconn
    exact hnext.returns_of_returned (hcall.trans hreturned)

theorem returns_of_missed (h : Orderly E P p s) (hc : s.call c = .missed uri) :
    WillReturn E P s c := by
  have hstep := ArchiveStep.put hc (h.ready.put c uri hc)
  exact .cons hstep rfl ((h.step hstep trivial).returns_of_stored (Function.update_self ..))

theorem safe (h : Orderly E P p s) : ArchiveSafe E P p s where
  one_row d d' row row' hrow hrow' heq := by
    obtain ⟨rfl, -⟩ := h.sound.row d row (Or.inl hrow)
    obtain ⟨rfl, -⟩ := h.sound.row d' row' (Or.inl hrow')
    rw [heq, hrow'] at hrow
    exact (Option.some.inj hrow).symm
  stored d row hrow := by
    obtain ⟨hdigest, huri, hobject⟩ := h.sound.row d row (Or.inl hrow)
    obtain ⟨content, hcontent⟩ := Option.ne_none_iff_exists'.1 hobject
    refine ⟨content, hcontent, ?_⟩
    rw [h.sound.named _ content hcontent, huri, hdigest]
  one_object uri uri' content content' huri huri' heq := by
    rw [h.sound.named uri content huri, h.sound.named uri' content' huri'] at heq
    exact h.one_object uri uri' (by simp [huri]) (by simp [huri']) heq
  unraised := h.unraised
  recorded := h.recorded
  returns c hactive := by
    cases hc : s.call c with
    | missed uri => exact h.returns_of_missed hc
    | stored uri => exact h.returns_of_stored hc
    | inserted row => exact h.returns_of_inserted hc
    | _ =>
      rw [hc] at hactive
      cases hactive

end Orderly

/-! ## A disturbed lookup -/

/-- Steps from here on lead to an archive that is not safe. -/
def GoesWrong (E : ArchiveEnv) (P : ArchiveCalls C K) (s : Archive C K) : Prop :=
  ∃ q s', Run (ArchiveStep E P) s q s' ∧ ∀ p, ¬ArchiveSafe E P p s'

theorem GoesWrong.of_run {q : List (ArchiveEvent C K)} (hrun : Run (ArchiveStep E P) s q s')
    (h : GoesWrong E P s') : GoesWrong E P s := by
  obtain ⟨q', t, hrun', hunsafe⟩ := h
  exact ⟨_, t, hrun.append hrun', hunsafe⟩

theorem goesWrong_of_raised {err : PyError} (hc : s.call c = .raised err) : GoesWrong E P s :=
  ⟨[], s, .nil, fun _ hsafe => hsafe.unraised c err hc⟩

theorem goesWrong_of_refused {pc : ArchivePc} {err : PyError} (hc : s.call c = pc)
    (h : P.Refuses E c pc err) : GoesWrong E P s :=
  .of_run (.single (.refuse (hc ▸ h))) (goesWrong_of_raised (c := c) (Function.update_self ..))

/-- A call whose insert fails, if not before then at the server. -/
theorem goesWrong_of_fails (hc : s.call c = .stored uri)
    (hfree : (s.rows (P.digest E c)).FreeFor (P.session c))
    (hfails : s.findExisting E P c ≠ none ∨ ¬s.TakesRow P c) : GoesWrong E P s := by
  cases htexts : (P.args c).storable with
  | false => exact goesWrong_of_refused hc (.texts htexts)
  | true =>
    have hviolated := hfails.imp_right fun hrow =>
      Bool.eq_false_iff.2 fun hrun => hrow ⟨htexts, hrun⟩
    exact .of_run (.single (.violate hc htexts (Or.inr ⟨hfree, hviolated⟩)))
      (goesWrong_of_raised (c := c) (Function.update_self ..))

/-- A call that has stored its content, next to a row that is committed. -/
theorem goesWrong_of_stored (hc : s.call c = .stored uri)
    (hrow : s.rows (P.digest E c) = ⟨some row, none⟩) : GoesWrong E P s := by
  refine goesWrong_of_fails hc ?_ (Or.inl ?_)
  · rw [hrow]
    exact Cell.freeFor_unlocked
  · rw [Archive.findExisting, hrow]
    exact Option.some_ne_none row

theorem goesWrong_of_missed (hc : s.call c = .missed uri)
    (hrow : s.rows (P.digest E c) = ⟨some row, none⟩) : GoesWrong E P s := by
  cases hput : P.put E c uri with
  | error err => exact goesWrong_of_refused hc (.put hput)
  | ok _ =>
    exact .of_run (.single (.put hc hput))
      (goesWrong_of_stored (c := c) (Function.update_self ..) hrow)

/-- A call that has stored its content, next to no row, can have its row committed. -/
theorem exists_committed (hopen : ∀ σ, s.aborted σ = false) (hc : s.call c = .stored uri)
    (hcell : s.rows (P.digest E c) = ⟨none, none⟩) (htakes : s.TakesRow P c) :
    ∃ q s' row, Run (ArchiveStep E P) s q s' ∧ s'.rows (P.digest E c) = ⟨some row, none⟩ ∧
      ∀ c', c' ≠ c → s'.call c' = s.call c' := by
  have hfree : (s.rows (P.digest E c)).FreeFor (P.session c) := by
    rw [hcell]
    exact Cell.freeFor_unlocked
  have hnone : s.findExisting E P c = none := by
    rw [Archive.findExisting, hcell]
    rfl
  have hinsert := ArchiveStep.insert hc (hopen _) hfree hnone htakes
  have hinserted : s.rows.insert (P.session c) (P.digest E c) (P.row E c uri) (P.digest E c) =
      ⟨none, some (P.session c, P.row E c uri)⟩ := by
    rw [Table.insert_self, hcell]
    rfl
  have hcommitted : (s.rows.insert (P.session c) (P.digest E c) (P.row E c uri)).commit
      (P.session c) (P.digest E c) = ⟨some (P.row E c uri), none⟩ := by
    rw [Table.commit_apply, hinserted]
    exact Cell.commit_own
  cases hconn : P.conn c with
  | none =>
    have hcall : (s.goOn c (P.afterInsert E c uri)).call c = .inserted (P.row E c uri) :=
      (Function.update_self ..).trans (if_pos hconn)
    refine ⟨_, _, _, .cons hinsert (.single (.commit hcall)), hcommitted, fun c' hne => ?_⟩
    exact (Function.update_of_ne hne ..).trans (Function.update_of_ne hne ..)
  | some k =>
    have hσ : P.session c = .shared k := by
      rw [ArchiveCalls.session, hconn]
      rfl
    refine ⟨_, _, P.row E c uri, .cons hinsert (.single (.callerCommit k)), ?_, fun c' hne => ?_⟩
    · rw [hσ] at hcommitted
      change (if s.aborted (.shared k) = true then _ else _ : Table (ArchiveSession C K) _ _) _ = _
      rw [hopen, hσ]
      exact hcommitted
    · exact Function.update_of_ne hne ..

/-- Next to another call of its digest, of which only one can insert. -/
theorem goesWrong_of_other {c' : C} {uri' : ArchiveCoord} (hopen : ∀ σ, s.aborted σ = false)
    (hc : s.call c = .stored uri) (hcell : s.rows (P.digest E c) = ⟨none, none⟩) (hne : c' ≠ c)
    (hd : P.digest E c' = P.digest E c) (hc' : s.call c' = .missed uri' ∨ s.call c' = .stored uri') :
    GoesWrong E P s := by
  by_cases htakes : s.TakesRow P c
  swap
  · refine goesWrong_of_fails hc ?_ (Or.inr htakes)
    rw [hcell]
    exact Cell.freeFor_unlocked
  obtain ⟨q, t, row, hrun, hrow, hcalls⟩ := exists_committed hopen hc hcell htakes
  rw [← hd] at hrow
  refine .of_run hrun ?_
  rcases hc' with hc' | hc'
  · exact goesWrong_of_missed ((hcalls c' hne).trans hc') hrow
  · exact goesWrong_of_stored ((hcalls c' hne).trans hc') hrow

/-- Next to a row that another session has inserted, and may commit. -/
theorem goesWrong_of_pending {σ : ArchiveSession C K} (hopen : ∀ σ, s.aborted σ = false)
    (hc : s.call c = .stored uri) (hcell : s.rows (P.digest E c) = ⟨none, some (σ, row)⟩)
    (hσ : ∀ c', σ = .own c' → c' ≠ c ∧ P.session c' = .own c' ∧ s.call c' = .inserted row) :
    GoesWrong E P s := by
  have hcommitted : s.rows.commit σ (P.digest E c) = ⟨some row, none⟩ := by
    rw [Table.commit_apply, hcell]
    exact Cell.commit_own
  cases σ with
  | own c' =>
    obtain ⟨hne, hown, hc'⟩ := hσ c' rfl
    have hrow : s.rows.commit (P.session c') (P.digest E c) = ⟨some row, none⟩ := by
      rw [hown]
      exact hcommitted
    exact .of_run (.single (.commit hc'))
      (goesWrong_of_stored (c := c) ((Function.update_of_ne hne.symm ..).trans hc) hrow)
  | shared k =>
    have hrow : (if s.aborted (.shared k) = true then s.rows.rollback (.shared k)
        else s.rows.commit (.shared k)) (P.digest E c) = ⟨some row, none⟩ := by
      rw [hopen]
      exact hcommitted
    exact .of_run (.single (.callerCommit k)) (goesWrong_of_stored (c := c) hc hrow)

/-- The archive with call `c` past its put. -/
def Archive.storedBy (P : ArchiveCalls C K) (s : Archive C K) (c : C) (uri : ArchiveCoord) :
    Archive C K :=
  { s.goOn c (.stored uri) with
    objects := Function.update s.objects uri (some (P.args c).fetchResult.content) }

namespace Orderly

/-- Another call of the digest is under way. -/
theorem goesWrong_of_active {c' : C} (h : Orderly E P p s) (hidle : s.call c = .idle)
    (hd : P.digest E c' = P.digest E c) (hactive : (s.call c').active = true) :
    GoesWrong E P (s.storedBy P c uri) := by
  have hne : c' ≠ c := by
    rintro rfl
    rw [hidle] at hactive
    cases hactive
  have hc : (s.storedBy P c uri).call c = .stored uri := Function.update_self ..
  have hother : (s.storedBy P c uri).call c' = s.call c' := Function.update_of_ne hne ..
  obtain ⟨x, hx⟩ := h.shown (P.digest E c)
  have hpos := hx.position_eq hd rfl hactive
  cases hc' : s.call c' with
  | missed uri' =>
    rw [hc'] at hpos
    obtain rfl := DigestState.eq_missed hpos
    exact goesWrong_of_other h.opened hc hx.cell hne hd (Or.inl (hother.trans hc'))
  | stored uri' =>
    rw [hc'] at hpos
    obtain rfl := DigestState.eq_stored hpos
    exact goesWrong_of_other h.opened hc hx.cell hne hd (Or.inr (hother.trans hc'))
  | inserted row =>
    rw [hc'] at hpos
    obtain rfl := DigestState.eq_inserted hpos
    refine goesWrong_of_pending h.opened hc hx.cell fun c'' heq => ?_
    obtain rfl : c' = c'' := ArchiveSession.own.inj heq
    exact ⟨hne, ArchiveCalls.session_eq_own.2 ⟨rfl, h.sound.inserted c' row hc'⟩,
      hother.trans hc'⟩
  | _ =>
    rw [hc'] at hactive
    cases hactive

/-- A caller holds the row of the digest. -/
theorem goesWrong_of_held (h : Orderly E P p s)
    (hcalls : ∀ c', P.digest E c' = P.digest E c → (s.call c').active = false)
    (hheld : ¬(s.rows (P.digest E c)).FreeFor (P.session c)) :
    GoesWrong E P (s.storedBy P c uri) := by
  obtain ⟨x, hx⟩ := h.shown (P.digest E c)
  have hnone : ∀ c' pc, x.position = some (c', pc) → pc.active = false := by
    intro c' pc hpos
    obtain ⟨hd, rfl⟩ := hx.call c' pc hpos
    exact hcalls c' hd
  rw [hx.cell] at hheld
  cases x with
  | idle => exact absurd Cell.freeFor_unlocked hheld
  | missed c' uri' => cases hnone c' _ rfl
  | stored c' uri' => cases hnone c' _ rfl
  | committed row => exact absurd Cell.freeFor_unlocked hheld
  | inserted σ row =>
    cases σ with
    | own c' => cases hnone c' _ rfl
    | shared k => exact goesWrong_of_pending h.opened (Function.update_self ..) hx.cell nofun

/-- A call that is not alone with its digest has stored its content. -/
theorem goesWrong_of_not_alone (h : Orderly E P p s) (hidle : s.call c = .idle)
    (huri : (P.args c).uri E = .ok uri) (halone : ¬s.Alone E P c) :
    GoesWrong E P (s.storedBy P c uri) := by
  by_cases hobject : ∀ uri' content, s.objects uri' = some content →
      E.sha256 content = P.digest E c → uri' = uri
  swap
  · -- it is stored under another URI as well
    push Not at hobject
    obtain ⟨uri', content, hcontent, hsha, hne⟩ := hobject
    refine ⟨[], _, .nil, fun p hsafe => hne (hsafe.one_object uri' uri content _ ?_
      (Function.update_self ..) hsha)⟩
    exact (Function.update_of_ne hne ..).trans hcontent
  by_cases hcalls : ∀ c', P.digest E c' = P.digest E c → (s.call c').active = false
  · exact h.goesWrong_of_held hcalls fun hfree => halone ⟨⟨uri, huri, hobject⟩, hcalls, hfree⟩
  · push Not at hcalls
    obtain ⟨c', hd, hactive⟩ := hcalls
    exact h.goesWrong_of_active hidle hd (by simpa using hactive)

/-- **A disturbed lookup can go wrong**: after an undisturbed run up to it, further steps lead to an
archive that is not safe. -/
theorem goesWrong (h : Orderly E P p s) (hidle : s.call c = .idle)
    (hbad : ¬(ArchiveEvent.lookup c).Undisturbed E P s) :
    GoesWrong E P (s.goOn c (s.lookup E P c)) := by
  have hcall : ∀ {pc}, s.lookup E P c = pc → (s.goOn c (s.lookup E P c)).call c = pc := fun heq =>
    (Function.update_self ..).trans heq
  by_cases hchecked : (P.args c).Checked
  swap
  · exact goesWrong_of_raised (hcall (if_pos hchecked))
  have hlookup := Archive.lookup_eq (E := E) hchecked (h.opened (P.session c))
  have hmiss : s.findExisting E P c = none ∧ ¬(s.Takes E P c ∧ s.Alone E P c) := by
    by_contra hfound
    exact hbad ⟨hchecked, fun hnone => not_not.1 fun halone => hfound ⟨hnone, halone⟩⟩
  rw [hmiss.1] at hlookup
  cases huri : (P.args c).uri E with
  | error err =>
    rw [huri] at hlookup
    exact goesWrong_of_raised (hcall hlookup)
  | ok uri =>
    rw [huri] at hlookup
    cases hput : P.put E c uri with
    | error err => exact goesWrong_of_refused (hcall hlookup) (.put hput)
    | ok _ =>
    have hstep := ArchiveStep.put (hcall hlookup) hput
    have hstored : ({ (s.goOn c (s.lookup E P c)).goOn c (.stored uri) with
        objects := Function.update s.objects uri (some (P.args c).fetchResult.content) } :
          Archive C K) = s.storedBy P c uri := by
      simp only [Archive.storedBy, Archive.goOn, Function.update_idem]
    refine .of_run (.single hstep) (hstored ▸ ?_)
    by_cases halone : s.Alone E P c
    · refine goesWrong_of_fails (c := c) (Function.update_self ..) halone.row
        (Or.inr fun hrow => ?_)
      refine hmiss.2 ⟨⟨fun uri' huri' => ?_, hrow⟩, halone⟩
      rw [huri] at huri'
      cases huri'
      exact hput
    · exact h.goesWrong_of_not_alone hidle huri halone

end Orderly

/-- **The archive keeps one object and one row** for each content, and its calls return, in every
run in which a call that finds no row has the digest to itself, and what it brings is taken; and the
first of which this is not so can go wrong. -/
theorem archive_safe (h : UndisturbedRun E P p s) :
    ArchiveSafe E P p s ∧ ∀ c, s.call c = .idle → ¬(ArchiveEvent.lookup c).Undisturbed E P s →
      GoesWrong E P (s.goOn c (s.lookup E P c)) :=
  ⟨h.orderly.safe, fun _ => h.orderly.goesWrong⟩

/-! ## Two calls with the same bytes -/

/-- An archive of `{}`, whose digest it knows. -/
def emptyJsonEnv : ArchiveEnv where
  unicode := ⟨id, lower, Char.isAlphanum⟩
  sha256 _ := "44136fa355b3678a1146ad16f7e8649e94fb4fc21fe77e8310c060f61caaff8a"
  bucket := "civic-archive"

/-- A call that archives `{}`. -/
def emptyJsonCall (extensionHint : String) : ArchiveCall where
  sourceFamily := "knesset"
  sourceUrl := "https://knesset.gov.il/OdataV4/ParliamentInfo/KNS_Person"
  fetchResult := ⟨[0x7B, 0x7D], "application/json", some ⟨2024, 1, 2⟩⟩
  ingestRunId := 1
  sourceTier := 1
  extensionHint := some extensionHint

/-- Calls with the same bytes and connections of their own, with a hint that is `json` or `html`. -/
def emptyJsonCalls : ArchiveCalls Bool Empty where
  args hinted := emptyJsonCall (if hinted then "json" else "html")
  conn _ := none
  objectId hinted := if hinted then "6f1c" else "d2a7"
  objectId_injective a b := by
    revert a b
    decide
  ensureBucket _ := .ok ()
  putObject _ := .ok ()

/-- Where `{}` is stored. -/
def emptyJsonUri (extension : String) : ArchiveCoord :=
  ⟨"civic-archive", "knesset", ⟨2024, 1, 2⟩, emptyJsonEnv.sha256 [], extension⟩

theorem emptyJson_uri :
    (emptyJsonCalls.args true).uri emptyJsonEnv = .ok (emptyJsonUri "json") := rfl

theorem emptyJsonUri_ok {extension : String} (h : Regex.Run isLowerAlnum 1 none extension.toList) :
    (emptyJsonUri extension).OK where
  bucket := ⟨'c', "ivic-archive".toList, show "civic-archive".toList = _ by decide, by decide,
    by decide⟩
  sourceFamily := show "knesset" ∈ sourceFamilies by decide
  day := show (⟨2024, 1, 2⟩ : CivilDate).Valid by decide
  sha256 := show Regex.Run isLowerHex 64 (some 64) (emptyJsonEnv.sha256 []).toList by decide
  extension := h

omit [DecidableEq K] in
/-- The object store takes it. -/
theorem emptyJson_put {D : Type} {P : ArchiveCalls D K} {c : D} {extension : String}
    (h : Regex.Run isLowerAlnum 1 none extension.toList) (hbucket : P.ensureBucket c = .ok ())
    (hput : P.putObject c = .ok ()) : P.put emptyJsonEnv c (emptyJsonUri extension) = .ok () := by
  unfold ArchiveCalls.put putArchiveObject
  rw [hbucket, (emptyJsonUri_ok h).parse_text, hput]
  rfl

/-- One call from beginning to end. -/
def singleRun : List (ArchiveEvent Bool Empty) :=
  [.openRun 1, .lookup true, .put true, .insert true, .commit true]

theorem exists_singleRun : ∃ s, UndisturbedRun emptyJsonEnv emptyJsonCalls singleRun s := by
  have hgood : (ArchiveEvent.lookup true).Undisturbed emptyJsonEnv emptyJsonCalls
      ((Archive.empty Bool Empty).openRun 1) := by
    refine ⟨by decide, fun _ => ⟨⟨fun uri huri => ?_, ⟨by decide, rfl⟩⟩, ⟨_, emptyJson_uri, nofun⟩,
      fun _ _ => rfl, nofun⟩⟩
    rw [emptyJson_uri] at huri
    cases huri
    exact emptyJson_put (by decide) rfl rfl
  exact ⟨_, .cons ⟨.openRun 1, trivial⟩ (.cons ⟨.lookup rfl, hgood⟩
    (.cons ⟨.put (show _ = ArchivePc.missed (emptyJsonUri "json") from rfl)
        (emptyJson_put (by decide) rfl rfl), trivial⟩
      (.cons ⟨.insert (show _ = ArchivePc.stored (emptyJsonUri "json") from rfl) rfl nofun rfl
        ⟨by decide, rfl⟩, trivial⟩ (.single ⟨.commit (show _ = ArchivePc.inserted
          (emptyJsonCalls.row emptyJsonEnv true (emptyJsonUri "json")) from rfl), trivial⟩))))⟩

theorem archive_safe_single : ∃ s, UndisturbedRun emptyJsonEnv emptyJsonCalls singleRun s ∧
    ArchiveSafe emptyJsonEnv emptyJsonCalls singleRun s := by
  obtain ⟨s, hs⟩ := exists_singleRun
  exact ⟨s, hs, (archive_safe hs).1⟩

/-- Two calls that overlap. -/
def overlappingRun : List (ArchiveEvent Bool Empty) :=
  [.openRun 1, .lookup true, .lookup false, .put true, .put false, .insert true, .commit true,
    .violate false]

/-- Two calls that overlap store the same bytes twice, and one of them raises. -/
theorem archive_unsafe : ∃ s, ArchiveRun emptyJsonEnv emptyJsonCalls overlappingRun s ∧
    ¬ArchiveSafe emptyJsonEnv emptyJsonCalls overlappingRun s := by
  refine ⟨_, .cons (.openRun 1) (.cons (.lookup rfl) (.cons (.lookup rfl)
    (.cons (.put (show _ = ArchivePc.missed (emptyJsonUri "json") from rfl)
        (emptyJson_put (by decide) rfl rfl))
      (.cons (.put (show _ = ArchivePc.missed (emptyJsonUri "html") from rfl)
          (emptyJson_put (by decide) rfl rfl))
        (.cons (.insert (show _ = ArchivePc.stored (emptyJsonUri "json") from rfl) rfl nofun rfl
            ⟨by decide, rfl⟩)
          (.cons (.commit (show _ = ArchivePc.inserted
              (emptyJsonCalls.row emptyJsonEnv true (emptyJsonUri "json")) from rfl))
            (.single (.violate (show _ = ArchivePc.stored (emptyJsonUri "html") from rfl)
              (by decide) (Or.inr ⟨nofun, Or.inl nofun⟩))))))))), fun hsafe => ?_⟩
  exact hsafe.unraised false .external rfl

end CivicProof
