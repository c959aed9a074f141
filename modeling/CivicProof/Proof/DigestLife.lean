import CivicProof.Spec.ArchiveSteps

/-!
# The life of a digest

What happens to one content in an archive: the call that is at it, and its row. Steps that are
`Undisturbed` keep an archive `Shows`ing one state of each digest, and the digest takes a step of
its life with each.

* `Archive.Sound.step`: what every step keeps, disturbed or not.
* `Shows.step`: every undisturbed step of the archive is one in the life of each digest.
-/

namespace CivicProof

open Transact

variable {C K : Type}

/-! ## What every step keeps -/

theorem ArchiveCalls.session_eq_own {P : ArchiveCalls C K} {c c' : C} :
    P.session c = .own c' ↔ c' = c ∧ P.conn c = none := by
  unfold ArchiveCalls.session
  cases P.conn c with
  | none => simp [eq_comm]
  | some k => simp

/-- Objects and rows bear the digest of their content, and what a call or a row names is stored. -/
structure Archive.Sound (E : ArchiveEnv) (P : ArchiveCalls C K) (s : Archive C K) : Prop where
  named : ∀ uri content, s.objects uri = some content → E.sha256 content = uri.sha256
  missed : ∀ c uri, s.call c = .missed uri → uri.sha256 = P.digest E c
  stored : ∀ c uri, s.call c = .stored uri → uri.sha256 = P.digest E c ∧ s.objects uri ≠ none
  inserted : ∀ c row, s.call c = .inserted row → P.conn c = none
  row : ∀ d row, (s.rows d).Has row →
    row.contentSha256 = d ∧ row.archiveUri.sha256 = d ∧ s.objects row.archiveUri ≠ none

theorem Archive.sound_empty (E : ArchiveEnv) (P : ArchiveCalls C K) :
    (Archive.empty C K).Sound E P := by
  refine ⟨nofun, nofun, nofun, nofun, ?_⟩
  rintro d row (h | ⟨w, h⟩) <;> cases h

section Steps

variable [DecidableEq C] [DecidableEq K] {E : ArchiveEnv} {P : ArchiveCalls C K}
  {s s' : Archive C K} {e : ArchiveEvent C K} {c c' : C} {pc x : ArchivePc} {uri : ArchiveCoord}
  {row : RawFetchObject} {d : String}

theorem ArchiveCall.uri_sha256 {a : ArchiveCall} (h : a.uri E = .ok uri) :
    uri.sha256 = a.digest E := by
  unfold ArchiveCall.uri buildArchiveUri at h
  split at h
  · cases h
  · split at h
    · cases h
    · cases hext : normalizeExtension E ((orNone a.extensionHint).getD
          (extensionFromContentType E a.fetchResult.contentType)) with
      | error e =>
        rw [hext] at h
        cases h
      | ok ext =>
        rw [hext] at h
        cases h
        rfl

/-- The lookup of a call that may go on. -/
theorem Archive.lookup_eq (hchecked : (P.args c).Checked)
    (hopen : s.aborted (P.session c) = false) : s.lookup E P c = match s.findExisting E P c with
      | some row => .returned ((P.args c).existing row)
      | none => match (P.args c).uri E with
        | .ok uri => .missed uri
        | .error e => .raised e := by
  unfold Archive.lookup
  rw [if_neg (not_not.2 hchecked), hopen]
  rfl

/-- Objects stay. -/
theorem ArchiveStep.objects (h : ArchiveStep E P s e s') (huri : s.objects uri ≠ none) :
    s'.objects uri ≠ none := by
  cases h with
  | @put _ uri' =>
    by_cases heq : uri = uri'
    · simp [heq]
    · simpa [Function.update_of_ne heq] using huri
  | _ => exact huri

/-- An object after a step was there before, or is what a call puts. -/
theorem ArchiveStep.object_cases (h : ArchiveStep E P s e s') (huri : s'.objects uri ≠ none) :
    s.objects uri ≠ none ∨
      ∃ c, e = .put c ∧ s.call c = .missed uri ∧ s'.call c = .stored uri := by
  cases h with
  | @put c uri' h =>
    by_cases heq : uri = uri'
    · subst heq
      exact Or.inr ⟨c, rfl, h, Function.update_self ..⟩
    · simp only [Function.update_of_ne heq] at huri
      exact Or.inl huri
  | _ => exact Or.inl huri

/-- Runs stay. -/
theorem ArchiveStep.runs (h : ArchiveStep E P s e s') {id : ℤ} (hid : s.runs id = true) :
    s'.runs id = true := by
  cases h with
  | openRun id' =>
    change Function.update s.runs id' true id = true
    by_cases heq : id = id'
    · rw [heq, Function.update_self]
    · rwa [Function.update_of_ne heq]
  | _ => exact hid

theorem Archive.TakesRow.step (hs : s.TakesRow P c) (h : ArchiveStep E P s e s') :
    s'.TakesRow P c :=
  ⟨hs.1, h.runs hs.2⟩

/-- A row version after a step was there before, or is a call's own. -/
theorem ArchiveStep.has (h : ArchiveStep E P s e s') (hrow : (s'.rows d).Has row) :
    (s.rows d).Has row ∨
      ∃ c uri, s.call c = .stored uri ∧ d = P.digest E c ∧ row = P.row E c uri := by
  cases h with
  | openRun => exact Or.inl hrow
  | lookup => exact Or.inl hrow
  | put => exact Or.inl hrow
  | refuse => exact Or.inl hrow
  | @insert c uri h =>
    change (s.rows.insert (P.session c) (P.digest E c) (P.row E c uri) d).Has row at hrow
    by_cases hd : d = P.digest E c
    · subst hd
      rw [Table.insert_self] at hrow
      rcases hrow.of_write with hrow | hrow
      · exact Or.inr ⟨c, uri, h, rfl, hrow⟩
      · exact Or.inl hrow
    · rw [Table.insert_of_ne hd] at hrow
      exact Or.inl hrow
  | violate => exact Or.inl hrow.of_rollback
  | commit => exact Or.inl hrow.of_commit
  | callerCommit k =>
    change ((if s.aborted (.shared k) then s.rows.rollback (.shared k)
      else s.rows.commit (.shared k)) d).Has row at hrow
    split at hrow
    · exact Or.inl hrow.of_rollback
    · exact Or.inl hrow.of_commit
  | callerRollback => exact Or.inl hrow.of_rollback
  | crash => exact Or.inl hrow.of_rollback

/-- What a step does to a call, given the objects after it. -/
inductive ArchiveCallStep (E : ArchiveEnv) (P : ArchiveCalls C K) (c : C)
    (objects : ArchiveCoord → Option (List UInt8)) :
    ArchivePc → ArchiveEvent C K → ArchivePc → Prop where
  | stay {x : ArchivePc} {e : ArchiveEvent C K} : ArchiveCallStep E P c objects x e x
  | ends {x y : ArchivePc} {e : ArchiveEvent C K} (h : y.active = false) :
      ArchiveCallStep E P c objects x e y
  | misses {uri : ArchiveCoord} (h : (P.args c).uri E = .ok uri) :
      ArchiveCallStep E P c objects .idle (.lookup c) (.missed uri)
  | stores {uri : ArchiveCoord} (h : objects uri ≠ none) :
      ArchiveCallStep E P c objects (.missed uri) (.put c) (.stored uri)
  | inserts {uri : ArchiveCoord} (h : P.conn c = none) :
      ArchiveCallStep E P c objects (.stored uri) (.insert c) (.inserted (P.row E c uri))

theorem Archive.lookup_call {objects : ArchiveCoord → Option (List UInt8)} :
    ArchiveCallStep E P c objects .idle (.lookup c) (s.lookup E P c) := by
  unfold Archive.lookup
  split
  · exact .ends rfl
  · split
    · exact .ends rfl
    · split
      · exact .ends rfl
      · split
        · exact .misses ‹_›
        · exact .ends rfl

/-- **What a step does to the calls.** -/
theorem ArchiveStep.call (h : ArchiveStep E P s e s') (c : C) :
    ArchiveCallStep E P c s'.objects (s.call c) e (s'.call c) := by
  -- a step of one call leaves the others where they are
  have hgoOn : ∀ {c' pc}, ArchiveCallStep E P c' s'.objects (s.call c') e pc →
      ArchiveCallStep E P c s'.objects (s.call c) e ((s.goOn c' pc).call c) := by
    intro c' pc hstep
    by_cases hc : c = c'
    · subst hc
      rwa [show (s.goOn c pc).call c = pc from Function.update_self ..]
    · rw [show (s.goOn c' pc).call c = s.call c from Function.update_of_ne hc ..]
      exact .stay
  cases h with
  | openRun => exact .stay
  | lookup h =>
    refine hgoOn ?_
    rw [h]
    exact Archive.lookup_call
  | put h =>
    refine hgoOn ?_
    rw [h]
    exact .stores (by simp)
  | refuse => exact hgoOn (.ends rfl)
  | @insert c' _ h =>
    refine hgoOn ?_
    rw [h]
    unfold ArchiveCalls.afterInsert
    split
    · exact .inserts ‹_›
    · exact .ends rfl
  | violate => exact hgoOn (.ends rfl)
  | commit => exact hgoOn (.ends rfl)
  | callerCommit => exact .stay
  | callerRollback => exact .stay
  | crash σ =>
    change ArchiveCallStep E P c _ _ _ (if P.session c = σ ∧ (s.call c).active = true then _ else _)
    split
    · exact .ends rfl
    · exact .stay

/-- **What every step keeps.** -/
theorem Archive.Sound.step (hs : s.Sound E P) (h : ArchiveStep E P s e s') : s'.Sound E P where
  named uri content hcontent := by
    cases h with
    | @put c uri' h =>
      by_cases heq : uri = uri'
      · subst heq
        simp only [Function.update_self, Option.some.injEq] at hcontent
        rw [hs.missed c uri h, ← hcontent]
        rfl
      · simp only [Function.update_of_ne heq] at hcontent
        exact hs.named uri content hcontent
    | _ => exact hs.named uri content hcontent
  missed c uri hc := by
    have hcall := h.call c
    rw [hc] at hcall
    generalize hx : s.call c = x at hcall
    cases hcall with
    | stay => exact hs.missed c uri hx
    | ends hended => cases hended
    | misses huri => exact ArchiveCall.uri_sha256 huri
  stored c uri hc := by
    have hcall := h.call c
    rw [hc] at hcall
    generalize hx : s.call c = x at hcall
    cases hcall with
    | stay => exact ⟨(hs.stored c uri hx).1, h.objects (hs.stored c uri hx).2⟩
    | ends hended => cases hended
    | stores hobject => exact ⟨hs.missed c uri hx, hobject⟩
  inserted c row hc := by
    have hcall := h.call c
    rw [hc] at hcall
    generalize hx : s.call c = x at hcall
    cases hcall with
    | stay => exact hs.inserted c row hx
    | ends hended => cases hended
    | inserts hconn => exact hconn
  row d row hrow := by
    rcases h.has hrow with hrow | ⟨c, uri, hc, rfl, rfl⟩
    · obtain ⟨hdigest, huri, hobject⟩ := hs.row d row hrow
      exact ⟨hdigest, huri, h.objects hobject⟩
    · obtain ⟨huri, hobject⟩ := hs.stored c uri hc
      exact ⟨rfl, huri, h.objects hobject⟩

end Steps

/-! ## The life of a digest -/

/-- Where the content of a digest is. -/
inductive DigestState (C K : Type) where
  /-- No row, and no call is at it. -/
  | idle
  | missed (c : C) (uri : ArchiveCoord)
  | stored (c : C) (uri : ArchiveCoord)
  /-- The row is inserted by an open transaction. -/
  | inserted (σ : ArchiveSession C K) (row : RawFetchObject)
  | committed (row : RawFetchObject)

namespace DigestState

/-- The row of the digest. -/
def cell : DigestState C K → Cell (ArchiveSession C K) RawFetchObject
  | .inserted σ row => ⟨none, some (σ, row)⟩
  | .committed row => ⟨some row, none⟩
  | _ => ⟨none, none⟩

/-- The one call that is at the digest. -/
def position : DigestState C K → Option (C × ArchivePc)
  | .missed c uri => some (c, .missed uri)
  | .stored c uri => some (c, .stored uri)
  | .inserted (.own c) row => some (c, .inserted row)
  | _ => none

/-- The end of a transaction, by a commit. -/
def commit [DecidableEq C] [DecidableEq K] (σ : ArchiveSession C K) :
    DigestState C K → DigestState C K
  | .inserted τ row => if τ = σ then .committed row else .inserted τ row
  | x => x

/-- The end of a transaction, by a rollback. -/
def rollback [DecidableEq C] [DecidableEq K] (σ : ArchiveSession C K) :
    DigestState C K → DigestState C K
  | .inserted τ row => if τ = σ then .idle else .inserted τ row
  | x => x

variable {x : DigestState C K} {σ : ArchiveSession C K} {c : C} {uri : ArchiveCoord}
  {row : RawFetchObject}

theorem eq_missed (h : x.position = some (c, .missed uri)) : x = .missed c uri := by
  cases x with
  | missed => cases h; rfl
  | inserted τ => cases τ <;> cases h
  | _ => cases h

theorem eq_stored (h : x.position = some (c, .stored uri)) : x = .stored c uri := by
  cases x with
  | stored => cases h; rfl
  | inserted τ => cases τ <;> cases h
  | _ => cases h

theorem eq_inserted (h : x.position = some (c, .inserted row)) : x = .inserted (.own c) row := by
  cases x with
  | inserted τ =>
    cases τ with
    | own => cases h; rfl
    | shared => cases h
  | _ => cases h

variable [DecidableEq C] [DecidableEq K]

theorem cell_commit : x.cell.commit σ = (x.commit σ).cell := by
  cases x with
  | inserted τ row =>
    by_cases h : τ = σ <;> simp [cell, commit, Cell.commit, h]
  | _ => rfl

theorem cell_rollback : x.cell.rollback σ = (x.rollback σ).cell := by
  cases x with
  | inserted τ row =>
    by_cases h : τ = σ <;> simp [cell, rollback, Cell.rollback, h]
  | _ => rfl

/-- The row that a session sees. -/
theorem view_cell : x.cell.view σ = some row ↔ x = .committed row ∨ x = .inserted σ row := by
  cases x with
  | inserted τ row' =>
    by_cases h : τ = σ <;> simp [cell, Cell.view, h]
  | committed => simp [cell, Cell.view]
  | _ => simp [cell, Cell.view]

theorem position_commit {k : K} : (x.commit (.shared k)).position = x.position := by
  cases x with
  | inserted τ row =>
    cases τ with
    | own => rfl
    | shared k' => by_cases h : k' = k <;> simp [commit, position, h]
  | _ => rfl

/-- A rollback moves no call but that of its session. -/
theorem position_rollback (h : ∀ c row, x.position = some (c, .inserted row) → σ ≠ .own c) :
    (x.rollback σ).position = x.position := by
  cases x with
  | inserted τ row =>
    cases τ with
    | own c => simp [rollback, (h c row rfl).symm]
    | shared k => by_cases h : .shared k = σ <;> simp [rollback, position, h]
  | _ => rfl

/-- Nobody sees a row, and nobody holds one. -/
theorem cell_eq_empty (hview : x.cell.view σ = none) (hfree : x.cell.FreeFor σ) :
    x.cell = ⟨none, none⟩ := by
  cases x with
  | inserted τ row =>
    obtain rfl : τ = σ := hfree _ rfl
    simp [cell, Cell.view] at hview
  | committed => cases hview
  | _ => rfl

end DigestState

/-- The events that end a transaction without a commit. -/
def ArchiveEvent.Loses (e : ArchiveEvent C K) (σ : ArchiveSession C K) : Prop :=
  e = .crash σ ∨ ∃ k, σ = .shared k ∧ e = .callerRollback k

/-- A step in the life of a digest. -/
inductive DigestStep : DigestState C K → ArchiveEvent C K → DigestState C K → Prop where
  | stay {x : DigestState C K} {e : ArchiveEvent C K} : DigestStep x e x
  | lookup {c : C} {uri : ArchiveCoord} : DigestStep .idle (.lookup c) (.missed c uri)
  | put {c : C} {uri : ArchiveCoord} : DigestStep (.missed c uri) (.put c) (.stored c uri)
  | insert {c : C} {uri : ArchiveCoord} {σ : ArchiveSession C K} {row : RawFetchObject} :
      DigestStep (.stored c uri) (.insert c) (.inserted σ row)
  | commit {σ : ArchiveSession C K} {row : RawFetchObject} {e : ArchiveEvent C K} :
      DigestStep (.inserted σ row) e (.committed row)
  | lose {σ : ArchiveSession C K} {row : RawFetchObject} {e : ArchiveEvent C K} (h : e.Loses σ) :
      DigestStep (.inserted σ row) e .idle
  | crash {x : DigestState C K} {σ : ArchiveSession C K} (h : x.cell = ⟨none, none⟩) :
      DigestStep x (.crash σ) .idle

/-- Digest `d` of an archive is where `x` says. -/
structure Archive.Shows (E : ArchiveEnv) (P : ArchiveCalls C K) (s : Archive C K) (d : String)
    (x : DigestState C K) : Prop where
  cell : s.rows d = x.cell
  call : ∀ c pc, x.position = some (c, pc) → P.digest E c = d ∧ s.call c = pc
  only : ∀ c, P.digest E c = d → (s.call c).active = true → ∃ pc, x.position = some (c, pc)

/-- A call that finds no row has the digest to itself. -/
structure Archive.Alone [DecidableEq C] [DecidableEq K] (E : ArchiveEnv) (P : ArchiveCalls C K)
    (s : Archive C K) (c : C) : Prop where
  uri : ∃ uri, (P.args c).uri E = .ok uri ∧ ∀ uri' content, s.objects uri' = some content →
    E.sha256 content = P.digest E c → uri' = uri
  calls : ∀ c', P.digest E c' = P.digest E c → (s.call c').active = false
  row : (s.rows (P.digest E c)).FreeFor (P.session c)

/-- What a call that finds no row brings is taken: its content by the object store, and its row by
the database. -/
structure Archive.Takes (E : ArchiveEnv) (P : ArchiveCalls C K) (s : Archive C K) (c : C) :
    Prop where
  put : ∀ uri, (P.args c).uri E = .ok uri → P.put E c uri = .ok ()
  row : s.TakesRow P c

/-- The call of an event passes its checks; if it finds no row, what it brings is taken and it has
the digest to itself. -/
def ArchiveEvent.Undisturbed [DecidableEq C] [DecidableEq K] (E : ArchiveEnv)
    (P : ArchiveCalls C K) (s : Archive C K) : ArchiveEvent C K → Prop
  | .lookup c =>
    (P.args c).Checked ∧ (s.findExisting E P c = none → s.Takes E P c ∧ s.Alone E P c)
  | _ => True

/-- What the calls under way bring is taken. -/
structure Archive.Ready (E : ArchiveEnv) (P : ArchiveCalls C K) (s : Archive C K) : Prop where
  put : ∀ c uri, s.call c = .missed uri → P.put E c uri = .ok ()
  row : ∀ c uri, s.call c = .missed uri ∨ s.call c = .stored uri → s.TakesRow P c

section Life

variable {E : ArchiveEnv} {P : ArchiveCalls C K} {s s' : Archive C K} {e : ArchiveEvent C K}
  {c : C} {pc : ArchivePc} {uri : ArchiveCoord} {row : RawFetchObject} {d : String}
  {x : DigestState C K}

theorem Archive.shows_empty (d : String) : (Archive.empty C K).Shows E P d .idle :=
  ⟨rfl, nofun, nofun⟩

/-- The lookup of a call that is undisturbed finds a row, or has the digest to itself. -/
theorem Archive.lookup_undisturbed [DecidableEq C] [DecidableEq K]
    (hopen : s.aborted (P.session c) = false) (hgood : (ArchiveEvent.lookup c).Undisturbed E P s) :
    (∃ row, s.findExisting E P c = some row ∧
        s.lookup E P c = .returned ((P.args c).existing row)) ∨
      (s.Takes E P c ∧ s.findExisting E P c = none ∧ s.Alone E P c ∧
        ∃ uri, (P.args c).uri E = .ok uri ∧ s.lookup E P c = .missed uri) := by
  obtain ⟨hchecked, hnone⟩ := hgood
  rw [Archive.lookup_eq hchecked hopen]
  cases hfound : s.findExisting E P c with
  | some row => exact Or.inl ⟨row, rfl, rfl⟩
  | none =>
    obtain ⟨htakes, halone⟩ := hnone hfound
    obtain ⟨uri, huri, -⟩ := halone.uri
    refine Or.inr ⟨htakes, rfl, halone, uri, huri, ?_⟩
    rw [huri]

/-- A call that has just found no row. -/
theorem ArchiveStep.misses [DecidableEq C] [DecidableEq K] (h : ArchiveStep E P s (.lookup c) s')
    (hopen : s.aborted (P.session c) = false) (hgood : (ArchiveEvent.lookup c).Undisturbed E P s)
    (hc : s'.call c = .missed uri) :
    s.Takes E P c ∧ s.Alone E P c ∧ (P.args c).uri E = .ok uri := by
  cases h with
  | lookup =>
    rw [show (s.goOn c (s.lookup E P c)).call c = s.lookup E P c from Function.update_self ..] at hc
    rcases Archive.lookup_undisturbed hopen hgood with
      ⟨row, -, heq⟩ | ⟨htakes, -, halone, uri', huri, heq⟩
    · rw [heq] at hc
      cases hc
    · rw [heq] at hc
      cases hc
      exact ⟨htakes, halone, huri⟩

theorem Archive.ready_empty : (Archive.empty C K).Ready E P := by
  refine ⟨nofun, ?_⟩
  rintro c uri (h | h) <;> cases h

/-- **An undisturbed step** leaves the calls with what is taken. -/
theorem Archive.Ready.step [DecidableEq C] [DecidableEq K] (hs : s.Ready E P)
    (hopen : ∀ σ, s.aborted σ = false) (h : ArchiveStep E P s e s') (hgood : e.Undisturbed E P s) :
    s'.Ready E P where
  put c uri hc := by
    have hcall := h.call c
    rw [hc] at hcall
    generalize hx : s.call c = x at hcall
    cases hcall with
    | stay => exact hs.put c uri hx
    | ends hended => cases hended
    | misses huri => exact (h.misses (hopen _) hgood hc).1.put uri huri
  row c uri hc := by
    have hcall := h.call c
    generalize hx : s.call c = x at hcall
    rcases hc with hc | hc
    · rw [hc] at hcall
      cases hcall with
      | stay => exact (hs.row c uri (Or.inl hx)).step h
      | ends hended => cases hended
      | misses => exact (h.misses (hopen _) hgood hc).1.row.step h
    · rw [hc] at hcall
      cases hcall with
      | stay => exact (hs.row c uri (Or.inr hx)).step h
      | ends hended => cases hended
      | stores => exact (hs.row c uri (Or.inl hx)).step h

theorem Archive.Ready.not_refuse [DecidableEq C] [DecidableEq K] (hs : s.Ready E P) :
    ¬ArchiveStep E P s (.refuse c) s' := by
  intro hstep
  cases hstep with
  | refuse h =>
    generalize hc : s.call c = pc at h
    cases h with
    | put hput =>
      rw [hs.put c _ hc] at hput
      cases hput
    | texts htexts =>
      rw [(hs.row c _ (Or.inr hc)).1] at htexts
      cases htexts

namespace Archive.Shows

/-- A call that has not ended is the one at its digest. -/
theorem position_eq (hx : s.Shows E P d x) (hd : P.digest E c = d) (hc : s.call c = pc)
    (hactive : pc.active = true) : x.position = some (c, pc) := by
  obtain ⟨pc', hpos⟩ := hx.only c hd (hc ▸ hactive)
  obtain ⟨-, hc'⟩ := hx.call c pc' hpos
  rw [hpos, ← hc', hc]

/-- A digest whose row nobody sees and nobody holds, and that no call is at, is idle. -/
theorem eq_idle [DecidableEq C] [DecidableEq K] {σ : ArchiveSession C K} (hx : s.Shows E P d x)
    (hview : (s.rows d).view σ = none) (hfree : (s.rows d).FreeFor σ)
    (hcalls : ∀ c, P.digest E c = d → (s.call c).active = false) : x = .idle := by
  have hnone : ∀ c pc, pc.active = true → x.position ≠ some (c, pc) := by
    intro c pc hactive hpos
    obtain ⟨hd, hc⟩ := hx.call c pc hpos
    rw [← hc, hcalls c hd] at hactive
    cases hactive
  have hcell : x.cell = ⟨none, none⟩ := by
    rw [hx.cell] at hview hfree
    exact DigestState.cell_eq_empty hview hfree
  cases x with
  | idle => rfl
  | missed c uri => exact absurd rfl (hnone c (.missed uri) rfl)
  | stored c uri => exact absurd rfl (hnone c (.stored uri) rfl)
  | inserted => cases hcell
  | committed => cases hcell

/-- Nothing happens to the calls. -/
theorem ends {y : DigestState C K} (hx : s.Shows E P d x) (hcell : s'.rows d = y.cell)
    (hpos : y.position = x.position) (hcall : ∀ c, P.digest E c = d → s'.call c = s.call c) :
    s'.Shows E P d y where
  cell := hcell
  call c pc hy := by
    obtain ⟨hd, hc⟩ := hx.call c pc (hpos ▸ hy)
    exact ⟨hd, (hcall c hd).trans hc⟩
  only c hd hactive := by
    rw [hpos]
    exact hx.only c hd (by rwa [← hcall c hd])

/-- Nothing happens to the digest. -/
theorem frame (hx : s.Shows E P d x) (hrows : s'.rows d = s.rows d)
    (hcall : ∀ c, P.digest E c = d → s'.call c = s.call c) : s'.Shows E P d x :=
  hx.ends (hrows.trans hx.cell) rfl hcall

/-- A call of another digest goes on. -/
theorem frame_goOn [DecidableEq C] (hx : s.Shows E P d x) (hd : P.digest E c ≠ d)
    (hrows : s'.rows d = s.rows d) (hcall : s'.call = Function.update s.call c pc) :
    s'.Shows E P d x := by
  refine hx.frame hrows fun c' hd' => ?_
  have hne : c' ≠ c := by
    rintro rfl
    exact hd hd'
  rw [hcall, Function.update_of_ne hne]

/-- The only call at the digest, if any, goes on. -/
theorem goOn [DecidableEq C] (hd : P.digest E c = d)
    (hothers : ∀ c', c' ≠ c → P.digest E c' = d → (s.call c').active = false)
    (hcall : s'.call = Function.update s.call c pc) (hcell : s'.rows d = x.cell)
    (hpos : x.position = if pc.active = true then some (c, pc) else none) : s'.Shows E P d x where
  cell := hcell
  call c' pc' hpos' := by
    rw [hpos] at hpos'
    split at hpos'
    · cases hpos'
      exact ⟨hd, by rw [hcall, Function.update_self]⟩
    · cases hpos'
  only c' hd' hactive := by
    by_cases hc : c' = c
    · subst hc
      rw [hcall, Function.update_self] at hactive
      exact ⟨pc, by rw [hpos, if_pos hactive]⟩
    · rw [hcall, Function.update_of_ne hc, hothers c' hc hd'] at hactive
      cases hactive

/-- The others at the digest of the call that is at it. -/
theorem others (hx : s.Shows E P d x) (hpos : x.position = some (c, pc)) :
    ∀ c', c' ≠ c → P.digest E c' = d → (s.call c').active = false := by
  intro c' hne hd
  by_contra hactive
  obtain ⟨pc', hpos'⟩ := hx.only c' hd (by simpa using hactive)
  rw [hpos] at hpos'
  cases hpos'
  exact hne rfl

variable [DecidableEq C] [DecidableEq K]

theorem lookup (hx : s.Shows E P d x) (hopen : s.aborted (P.session c) = false)
    (h : s.call c = .idle) (hgood : (ArchiveEvent.lookup c).Undisturbed E P s) :
    ∃ y, DigestStep x (.lookup c) y ∧ (s.goOn c (s.lookup E P c)).Shows E P d y := by
  by_cases hd : P.digest E c = d
  swap
  · exact ⟨x, .stay, hx.frame_goOn hd rfl rfl⟩
  subst hd
  rcases Archive.lookup_undisturbed hopen hgood with
    ⟨row, hfound, hlookup⟩ | ⟨-, hfound, ⟨-, hcalls, hfree⟩, uri, -, hlookup⟩
  · -- a call on its own connection that has not begun has no row pending
    rw [Archive.findExisting, hx.cell, DigestState.view_cell] at hfound
    have hpos : x.position = none := by
      obtain rfl | rfl := hfound
      · rfl
      · cases hσ : P.session c with
        | own c' =>
          obtain rfl := (ArchiveCalls.session_eq_own.1 hσ).1
          have hc := (hx.call c' (.inserted row) (by rw [hσ]; rfl)).2
          rw [h] at hc
          cases hc
        | shared k => rfl
    refine ⟨x, .stay, goOn rfl (fun c' _ hd' => ?_) rfl hx.cell ?_⟩
    · by_contra hactive
      obtain ⟨pc, hpos'⟩ := hx.only c' hd' (by simpa using hactive)
      rw [hpos] at hpos'
      cases hpos'
    · rw [hlookup, hpos]
      rfl
  · obtain rfl := hx.eq_idle hfound hfree hcalls
    refine ⟨.missed c uri, .lookup, goOn rfl (fun c' _ hd' => hcalls c' hd') rfl hx.cell ?_⟩
    rw [hlookup]
    rfl

omit [DecidableEq K] in
theorem put (hx : s.Shows E P d x) (h : s.call c = .missed uri)
    {objects : ArchiveCoord → Option (List UInt8)} :
    ∃ y, DigestStep x (.put c) y ∧ Archive.Shows E P { s.goOn c (.stored uri) with objects } d y := by
  by_cases hd : P.digest E c = d
  swap
  · exact ⟨x, .stay, hx.frame_goOn hd rfl rfl⟩
  have hpos := hx.position_eq hd h rfl
  obtain rfl := DigestState.eq_missed hpos
  exact ⟨.stored c uri, .put, goOn hd (hx.others hpos) rfl hx.cell rfl⟩

omit [DecidableEq K] in
theorem insert (hx : s.Shows E P d x) (h : s.call c = .stored uri) :
    ∃ y, DigestStep x (.insert c) y ∧ Archive.Shows E P { s.goOn c (P.afterInsert E c uri) with
      rows := s.rows.insert (P.session c) (P.digest E c) (P.row E c uri) } d y := by
  by_cases hd : P.digest E c = d
  swap
  · exact ⟨x, .stay, hx.frame_goOn hd (Table.insert_of_ne (Ne.symm hd) _) rfl⟩
  have hpos := hx.position_eq hd h rfl
  obtain rfl := DigestState.eq_stored hpos
  refine ⟨.inserted (P.session c) (P.row E c uri), .insert,
    goOn hd (hx.others hpos) rfl ?_ ?_⟩
  · subst hd
    change s.rows.insert _ _ _ _ = _
    rw [Table.insert_self, hx.cell]
    rfl
  · unfold ArchiveCalls.session ArchiveCalls.afterInsert
    cases P.conn c <;> rfl

theorem commit (hx : s.Shows E P d x) (hown : P.session c = .own c)
    (h : s.call c = .inserted row) :
    ∃ y, DigestStep x (.commit c) y ∧ Archive.Shows E P
      { s.goOn c (.returned row.record) with rows := s.rows.commit (P.session c) } d y := by
  rw [hown]
  by_cases hd : P.digest E c = d
  · have hpos := hx.position_eq hd h rfl
    obtain rfl := DigestState.eq_inserted hpos
    refine ⟨.committed row, .commit, goOn hd (hx.others hpos) rfl ?_ rfl⟩
    change (s.rows d).commit _ = _
    rw [hx.cell]
    exact Cell.commit_own
  · refine ⟨x, .stay, hx.frame_goOn hd ?_ rfl⟩
    refine Cell.commit_of_ne fun v hv hvc => ?_
    rw [hx.cell] at hv
    -- the session holds the row of its own digest only
    cases x with
    | inserted τ row' =>
      cases hv
      cases hvc
      exact hd (hx.call c _ rfl).1
    | _ => cases hv

theorem callerCommit (hx : s.Shows E P d x) (k : K) :
    ∃ y, DigestStep x (.callerCommit k) y ∧
      (s.endTransaction (.shared k) (s.rows.commit (.shared k))).Shows E P d y := by
  refine ⟨x.commit (.shared k), ?_, hx.ends ?_ DigestState.position_commit fun _ _ => rfl⟩
  · cases x with
    | inserted τ row =>
      by_cases hτ : τ = .shared k
      · rw [DigestState.commit, if_pos hτ]
        exact .commit
      · rw [DigestState.commit, if_neg hτ]
        exact .stay
    | _ => exact .stay
  · rw [← DigestState.cell_commit, ← hx.cell]
    rfl

/-- A transaction is lost, and no call of the digest with it. -/
theorem lose {σ : ArchiveSession C K} (hx : s.Shows E P d x) (he : e.Loses σ)
    (hrows : s'.rows = s.rows.rollback σ) (hcall : ∀ c, P.digest E c = d → s'.call c = s.call c)
    (hown : ∀ c row, x.position = some (c, .inserted row) → σ ≠ .own c) :
    ∃ y, DigestStep x e y ∧ s'.Shows E P d y := by
  refine ⟨x.rollback σ, ?_, hx.ends ?_ (DigestState.position_rollback hown) hcall⟩
  · cases x with
    | inserted τ row =>
      by_cases hτ : τ = σ
      · subst hτ
        rw [DigestState.rollback, if_pos rfl]
        exact .lose he
      · rw [DigestState.rollback, if_neg hτ]
        exact .stay
    | _ => exact .stay
  · rw [← DigestState.cell_rollback, ← hx.cell, hrows]
    rfl

theorem crash {σ : ArchiveSession C K} (hx : s.Shows E P d x)
    (hown : ∀ c row, s.call c = .inserted row → P.session c = .own c) :
    ∃ y, DigestStep x (.crash σ) y ∧ Archive.Shows E P
      { s.endTransaction σ (s.rows.rollback σ) with
        call := fun c =>
          if P.session c = σ ∧ (s.call c).active = true then .crashed else s.call c } d y := by
  by_cases hat : ∃ c pc, x.position = some (c, pc) ∧ P.session c = σ
  · -- the call at the digest dies
    obtain ⟨c, pc, hpos, rfl⟩ := hat
    have hstep : DigestStep x (.crash (P.session c)) .idle ∧
        (s.rows d).rollback (P.session c) = ⟨none, none⟩ := by
      rw [hx.cell]
      cases x with
      | missed => exact ⟨.crash rfl, rfl⟩
      | stored => exact ⟨.crash rfl, rfl⟩
      | inserted τ row =>
        cases τ with
        | own c' =>
          cases hpos
          rw [hown c row (hx.call c _ rfl).2]
          exact ⟨.lose (Or.inl rfl), Cell.rollback_own (some row)⟩
        | shared => cases hpos
      | idle => cases hpos
      | committed => cases hpos
    refine ⟨.idle, hstep.1, hstep.2, nofun, fun c' hd hactive => ?_⟩
    change (if P.session c' = _ ∧ (s.call c').active = true then ArchivePc.crashed
      else s.call c').active = true at hactive
    split at hactive
    · cases hactive
    · rename_i hout
      obtain ⟨pc', hpos'⟩ := hx.only c' hd hactive
      rw [hpos] at hpos'
      cases hpos'
      exact absurd ⟨rfl, hactive⟩ hout
  · refine hx.lose (Or.inl rfl) rfl (fun c hd => if_neg ?_) ?_
    · rintro ⟨hσ, hactive⟩
      obtain ⟨pc, hpos⟩ := hx.only c hd hactive
      exact hat ⟨c, pc, hpos, hσ⟩
    · rintro c row hpos rfl
      exact hat ⟨c, _, hpos, hown c row (hx.call c _ hpos).2⟩

/-- No insert fails. -/
theorem not_fails (hx : s.Shows E P (P.digest E c) x) (h : s.call c = .stored uri) :
    s.findExisting E P c = none := by
  have hpos := hx.position_eq rfl h rfl
  obtain rfl := DigestState.eq_stored hpos
  rw [Archive.findExisting, hx.cell]
  rfl

theorem not_violate (hx : s.Shows E P (P.digest E c) x) (hready : s.Ready E P)
    (hopen : s.aborted (P.session c) = false) : ¬ArchiveStep E P s (.violate c) s' := by
  intro hstep
  cases hstep with
  | @violate _ uri h _ hfails =>
    rcases hfails with haborted | ⟨-, hfound | hrun⟩
    · rw [hopen] at haborted
      cases haborted
    · exact hfound (hx.not_fails h)
    · rw [(hready.row c uri (Or.inr h)).2] at hrun
      cases hrun

/-- **An undisturbed step of the archive** is one in the life of each digest. -/
theorem step (hs : s.Sound E P) (hready : s.Ready E P) (hopen : ∀ σ, s.aborted σ = false)
    (hall : ∀ d, ∃ x, s.Shows E P d x) (h : ArchiveStep E P s e s') (hgood : e.Undisturbed E P s)
    (hx : s.Shows E P d x) : ∃ y, DigestStep x e y ∧ s'.Shows E P d y := by
  have hown : ∀ c row, s.call c = .inserted row → P.session c = .own c := by
    intro c row hc
    exact ArchiveCalls.session_eq_own.2 ⟨rfl, hs.inserted c row hc⟩
  cases h with
  | openRun => exact ⟨x, .stay, hx.frame rfl fun _ _ => rfl⟩
  | lookup h => exact hx.lookup (hopen _) h hgood
  | put h => exact hx.put h
  | refuse h => exact absurd (.refuse h) hready.not_refuse
  | insert h => exact hx.insert h
  | @violate c _ h htexts hfails =>
    obtain ⟨x', hx'⟩ := hall (P.digest E c)
    exact absurd (.violate h htexts hfails) (hx'.not_violate hready (hopen _))
  | commit h => exact hx.commit (hown _ _ h) h
  | callerCommit k =>
    rw [hopen]
    exact hx.callerCommit k
  | callerRollback k =>
    refine hx.lose (Or.inr ⟨k, rfl, rfl⟩) rfl (fun _ _ => rfl) nofun
  | crash σ => exact hx.crash hown

end Archive.Shows

end Life

end CivicProof
