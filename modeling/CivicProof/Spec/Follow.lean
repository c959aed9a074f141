import CivicProof.Paging.Walk
import CivicProof.Spec.Effects
import CivicProof.Spec.IngestRun

/-!
# Loops that follow links

A loop that gets the page at an address, works on it, and goes on to the address that the page
leads to.

* `Eff.follow_walk`: along a walk the loop does the work on its pages, one after the other.
* `Eff.follow_ok`: a loop that ends normally, and that nothing has stopped, has been along a walk.
* `Eff.follow_reported_iff`: the two, for a loop that reports to its ingest run.
-/

namespace CivicProof.Eff

open Paging

variable {σ U P β : Type}

/-- One turn of the loop: the work on the page at `u`, and the address that it leads to. When
`stop` holds after the work, there is none. -/
def turn (F : Feed U P PyError) (work : β → U × P → Eff σ β) (stop : β → Bool) (u : U) (b : β) :
    Eff σ (β × Option U) := do
  let page ← lift (F.page u)
  let b ← work b (u, page)
  if stop b then return (b, none) else return (b, ← lift (F.next u page))

/-- The loop, for at most `fuel` turns; `none` when they do not suffice. -/
def follow (F : Feed U P PyError) (work : β → U × P → Eff σ β) (stop : β → Bool) :
    ℕ → U → β → σ → Option (Except PyError β × σ)
  | 0, _, _, _ => none
  | fuel + 1, u, b, s =>
    match turn F work stop u b s with
    | (.error e, s') => some (.error e, s')
    | (.ok (b', none), s') => some (.ok b', s')
    | (.ok (b', some v), s') => follow F work stop fuel v b' s'

variable {F : Feed U P PyError} {work : β → U × P → Eff σ β} {u : U} {l : List (U × P)}

theorem forList_error {b : β} {e : U × P} {s s' : σ} {x : PyError}
    (h : work b e s = (.error x, s')) (l : List (U × P)) :
    forList work b (e :: l) s = (.error x, s') := by
  rw [forList, bind_apply, h]

theorem forList_ok {b b' : β} {e : U × P} {s s' : σ} (h : work b e s = (.ok b', s'))
    (l : List (U × P)) : forList work b (e :: l) s = forList work b' l s' :=
  bind_of_ok h

/-- What a turn that ends normally has done. -/
theorem turn_ok {b b' : β} {next : Option U} {s s' : σ} :
    turn F work (fun _ => false) u b s = (.ok (b', next), s') ↔ ∃ page, F.page u = .ok page ∧
      F.next u page = .ok next ∧ work b (u, page) s = (.ok b', s') := by
  unfold turn
  rw [bind_ok]
  constructor
  · rintro ⟨page, s₁, hpage, h⟩
    obtain ⟨hp, rfl⟩ := Prod.mk.inj hpage
    obtain ⟨b₁, s₂, hb, h⟩ := bind_ok.1 h
    obtain ⟨next₁, s₃, hnext, h⟩ := bind_ok.1 h
    obtain ⟨hn, rfl⟩ := Prod.mk.inj hnext
    obtain ⟨⟨rfl, rfl⟩, rfl⟩ : (b₁ = b' ∧ next₁ = next) ∧ s₂ = s' := by
      simpa [pure_apply] using h
    exact ⟨page, hp, hn, hb⟩
  · rintro ⟨page, hp, hn, hb⟩
    refine ⟨page, s, by rw [lift, hp], bind_ok.2 ⟨b', s', hb, ?_⟩⟩
    exact bind_ok.2 ⟨next, s', by rw [lift, hn], rfl⟩

/-- A turn that raises. -/
theorem follow_error {page : P} (hp : F.page u = .ok page) {b : β} {s s' : σ} {x : PyError}
    (hb : work b (u, page) s = (.error x, s')) (fuel : ℕ) :
    follow F work (fun _ => false) (fuel + 1) u b s = some (.error x, s') := by
  have hturn : turn F work (fun _ => false) u b s = (.error x, s') := by
    unfold turn
    rw [hp, bind_of_ok (x := lift (.ok page)) rfl, bind_apply, hb]
  rw [follow, hturn]

/-- **One turn.** -/
theorem follow_turn {page : P} {next : Option U} (hp : F.page u = .ok page)
    (hn : F.next u page = .ok next) {b b' : β} {s s' : σ}
    (hb : work b (u, page) s = (.ok b', s')) (fuel : ℕ) :
    follow F work (fun _ => false) (fuel + 1) u b s =
      next.elim (some (.ok b', s')) fun v => follow F work (fun _ => false) fuel v b' s' := by
  have hturn := turn_ok.2 ⟨page, hp, hn, hb⟩
  rw [follow, hturn]
  cases next <;> rfl

/-- **Along a walk** the loop does the work on its pages, one after the other. -/
theorem follow_walk (h : F.Walk u l) {fuel : ℕ} (hfuel : l.length ≤ fuel) (b : β) (s : σ) :
    follow F work (fun _ => false) fuel u b s = some (forList work b l s) := by
  induction h generalizing fuel b s with
  | @last u page hp hn =>
    obtain ⟨fuel, rfl⟩ := Nat.exists_eq_add_of_le' hfuel
    rw [List.length_singleton]
    rcases hb : work b (u, page) s with ⟨x | b', s'⟩
    · rw [follow_error hp hb, forList_error hb]
    · rw [follow_turn hp hn hb, forList_ok hb]
      rfl
  | @more u page v l hp hn _ ih =>
    obtain ⟨fuel, rfl⟩ := Nat.exists_eq_add_of_le' hfuel
    rw [List.length_cons, ← Nat.add_assoc]
    rcases hb : work b (u, page) s with ⟨x | b', s'⟩
    · rw [follow_error hp hb, forList_error hb]
    · rw [follow_turn hp hn hb, forList_ok hb]
      exact ih (Nat.le_add_left _ _) b' s'

/-- **A loop that ends normally** has been along a walk. -/
theorem follow_ok {fuel : ℕ} {b b' : β} {s s' : σ}
    (h : follow F work (fun _ => false) fuel u b s = some (.ok b', s')) :
    ∃ l, F.Walk u l ∧ forList work b l s = (.ok b', s') := by
  induction fuel generalizing u b s with
  | zero => simp [follow] at h
  | succ fuel ih =>
    rw [follow] at h
    rcases hturn : turn F work (fun _ => false) u b s with ⟨x | ⟨b₁, next⟩, s₁⟩
    · simp [hturn] at h
    · obtain ⟨page, hp, hn, hb⟩ := turn_ok.1 hturn
      rw [hturn] at h
      cases next with
      | none =>
        obtain ⟨rfl, rfl⟩ : b₁ = b' ∧ s₁ = s' := by simpa using h
        refine ⟨_, .last hp hn, ?_⟩
        rw [forList_ok hb]
        rfl
      | some v =>
        obtain ⟨l, hwalk, hl⟩ := ih h
        refine ⟨_, .more hp hn hwalk, ?_⟩
        rw [forList_ok hb]
        exact hl

variable {report : β → Dict Json} {stats stats' : Dict Json}

/-- **When a loop that reports to its ingest run ends normally**, and what it has done then. -/
theorem follow_reported_iff {b b' : β} {s s' : σ} :
    (∃ n, ∀ fuel ≥ n, (follow F work (fun _ => false) fuel u b s).map (reported stats report) =
        some (.ok b', s', stats')) ↔
      ∃ l, F.Walk u l ∧ forList work b l s = (.ok b', s') ∧
        stats' = addStats stats (report b') := by
  constructor
  · rintro ⟨n, h⟩
    obtain ⟨x, hfollow, hx⟩ := Option.map_eq_some_iff.1 (h n le_rfl)
    obtain ⟨rfl, hstats⟩ := reported_ok.1 hx
    obtain ⟨l, hwalk, hl⟩ := follow_ok hfollow
    exact ⟨l, hwalk, hl, hstats⟩
  · rintro ⟨l, hwalk, hl, rfl⟩
    exact ⟨l.length, fun fuel hfuel => by rw [follow_walk hwalk hfuel, hl]; rfl⟩

end CivicProof.Eff
