import Mathlib.Data.Fintype.Card
import Mathlib.Data.List.Nodup
import Mathlib.Data.Set.Finite.Basic
import Mathlib.Logic.Relation

/-!
# Walks along links

A feed gives a page for an address and an address for a page, and either may fail. `Walk F u l`:
the pages from `u` on, to one without a link.

* `Walk.unique`, `Walk.nodup`, `Walk.mem_iff`: there is one walk, it meets no address twice, and
  it meets those that can be reached.
* `exists_walk_iff`: among finitely many pages there is a walk unless a link fails or leads back.
-/

namespace CivicProof.Paging

open Relation

/-- What is at an address, and where the page there leads. -/
structure Feed (U P E : Type) where
  page : U → Except E P
  next : U → P → Except E (Option U)

namespace Feed

variable {U P E : Type} (F : Feed U P E)

/-- The page at `u` links to `v`. -/
def Leads (u v : U) : Prop := ∃ p, F.page u = .ok p ∧ F.next u p = .ok (some v)

/-- The links lead from `u` to `v`. -/
def Reaches : U → U → Prop := ReflTransGen F.Leads

/-- The page at `u` is there, and its link does not fail. -/
def Sound (u : U) : Prop := ∃ p v, F.page u = .ok p ∧ F.next u p = .ok v

/-- The pages from an address on, to one without a link. -/
inductive Walk : U → List (U × P) → Prop where
  | last {u p} : F.page u = .ok p → F.next u p = .ok none → Walk u [(u, p)]
  | more {u p v l} : F.page u = .ok p → F.next u p = .ok (some v) → Walk v l → Walk u ((u, p) :: l)

variable {F} {u v w : U} {l l' : List (U × P)}

theorem Leads.unique (hv : F.Leads u v) (hw : F.Leads u w) : v = w := by
  obtain ⟨p, hp, hn⟩ := hv
  obtain ⟨q, hq, hm⟩ := hw
  have hpq : p = q := Except.ok.inj (hp.symm.trans hq)
  subst hpq
  exact Option.some.inj (Except.ok.inj (hn.symm.trans hm))

namespace Walk

/-- **There is one walk.** -/
theorem unique (h : F.Walk u l) (h' : F.Walk u l') : l = l' := by
  induction h generalizing l' with
  | last hp hn =>
    cases h' with
    | last hp' hn' => rw [Except.ok.inj (hp.symm.trans hp')]
    | more hp' hn' h' =>
      obtain rfl := Except.ok.inj (hp.symm.trans hp')
      simp [hn] at hn'
  | more hp hn h ih =>
    cases h' with
    | last hp' hn' =>
      obtain rfl := Except.ok.inj (hp.symm.trans hp')
      simp [hn] at hn'
    | more hp' hn' h' =>
      obtain rfl := Except.ok.inj (hp.symm.trans hp')
      obtain rfl := Option.some.inj (Except.ok.inj (hn.symm.trans hn'))
      rw [ih h']

theorem leads (h : F.Walk u l) (hv : F.Leads u v) :
    ∃ p l', l = (u, p) :: l' ∧ F.Walk v l' := by
  obtain ⟨q, hq, hm⟩ := hv
  cases h with
  | last hp hn =>
    obtain rfl := Except.ok.inj (hp.symm.trans hq)
    simp [hn] at hm
  | more hp hn h =>
    obtain rfl := Except.ok.inj (hp.symm.trans hq)
    obtain rfl := Option.some.inj (Except.ok.inj (hn.symm.trans hm))
    exact ⟨_, _, rfl, h⟩

/-- What can be reached has a walk of its own, the end of this one. -/
theorem of_reaches (h : F.Walk u l) (hv : F.Reaches u v) : ∃ l', l' <:+ l ∧ F.Walk v l' := by
  induction hv with
  | refl => exact ⟨l, List.suffix_rfl, h⟩
  | tail _ hlead ih =>
    obtain ⟨l₁, hsuf, hwalk⟩ := ih
    obtain ⟨p, l₂, rfl, hwalk₂⟩ := hwalk.leads hlead
    exact ⟨l₂, (List.suffix_cons _ _).trans hsuf, hwalk₂⟩

theorem head_mem (h : F.Walk u l) : u ∈ l.map Prod.fst := by
  cases h <;> simp

theorem sound (h : F.Walk u l) : F.Sound u := by
  cases h with
  | last hp hn => exact ⟨_, _, hp, hn⟩
  | more hp hn _ => exact ⟨_, _, hp, hn⟩

theorem page_of_mem (h : F.Walk u l) {e : U × P} (he : e ∈ l) : F.page e.1 = .ok e.2 := by
  induction h with
  | last hp _ => rwa [List.mem_singleton.1 he]
  | more hp _ _ ih =>
    rcases List.mem_cons.1 he with rfl | he
    · exact hp
    · exact ih he

/-- **A walk meets what can be reached.** -/
theorem mem_iff (h : F.Walk u l) : v ∈ l.map Prod.fst ↔ F.Reaches u v := by
  constructor
  · intro hv
    induction h with
    | last _ _ =>
      simp only [List.map_cons, List.map_nil, List.mem_singleton] at hv
      exact hv ▸ .refl
    | more hp hn _ ih =>
      rcases List.mem_cons.1 hv with rfl | hv
      · exact .refl
      · exact .head ⟨_, hp, hn⟩ (ih hv)
  · intro hv
    obtain ⟨l', hsuf, hwalk⟩ := h.of_reaches hv
    exact (hsuf.map Prod.fst).subset hwalk.head_mem

/-- A page with a walk does not lead back to itself. -/
theorem not_cycle (h : F.Walk u l) : ¬TransGen F.Leads u u := by
  intro hcycle
  obtain ⟨v, hlead, hback⟩ := TransGen.head'_iff.1 hcycle
  obtain ⟨p, l', rfl, hwalk⟩ := h.leads hlead
  obtain ⟨l'', hsuf, hwalk'⟩ := hwalk.of_reaches hback
  -- the walk from `u` would be its own proper end
  rw [← h.unique hwalk'] at hsuf
  have hlen := hsuf.length_le
  rw [List.length_cons] at hlen
  omega

/-- **A walk meets no address twice.** -/
theorem nodup (h : F.Walk u l) : (l.map Prod.fst).Nodup := by
  induction h with
  | last _ _ => simp
  | more hp hn h ih =>
    rw [List.map_cons, List.nodup_cons]
    refine ⟨fun hmem => ?_, ih⟩
    exact (Walk.more hp hn h).not_cycle (.head' ⟨_, hp, hn⟩ (h.mem_iff.1 hmem))

end Walk

/-- **When there is a walk.** -/
theorem exists_walk_iff (hfin : {u | ∃ p, F.page u = .ok p}.Finite) :
    (∃ l, F.Walk u l) ↔
      ∀ v, F.Reaches u v → F.Sound v ∧ ¬TransGen F.Leads v v := by
  constructor
  · rintro ⟨l, h⟩ v hv
    obtain ⟨l', -, h'⟩ := h.of_reaches hv
    exact ⟨h'.sound, h'.not_cycle⟩
  · intro h
    let R := {v // F.Reaches u v}
    have : Finite R := by
      refine (hfin.subset fun v (hv : F.Reaches u v) => ?_).to_subtype
      obtain ⟨p, _, hp, _⟩ := (h v hv).1
      exact ⟨p, hp⟩
    -- among finitely many addresses, none of which leads back, every chain of links ends
    let later : R → R → Prop := fun a b => TransGen F.Leads b.1 a.1
    have : IsTrans R later := ⟨fun _ _ _ hab hbc => hbc.trans hab⟩
    have : Std.Irrefl later := ⟨fun a => (h a.1 a.2).2⟩
    have hwf : WellFounded later := Finite.wellFounded_of_trans_of_irrefl later
    have key : ∀ a : R, ∃ l, F.Walk a.1 l := by
      intro a
      induction a using hwf.induction with
      | h a ih =>
        obtain ⟨p, v, hp, hn⟩ := (h a.1 a.2).1
        cases v with
        | none => exact ⟨_, .last hp hn⟩
        | some v =>
          have hlead : F.Leads a.1 v := ⟨p, hp, hn⟩
          obtain ⟨l, hl⟩ := ih ⟨v, a.2.tail hlead⟩ (.single hlead)
          exact ⟨_, .more hp hn hl⟩
    exact key ⟨u, .refl⟩

end Feed

end CivicProof.Paging
