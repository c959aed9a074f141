import CivicProof.Spec.Ontology

/-!
# Calls to the outside world

A call to a collaborator (a session, a cursor, a retriever) may change the world `σ` and
may raise. `Eff σ α` is such a call; the world survives an exception.

* `Eff.bind_ok`: peels a sequence of calls that ended normally.
* `Eff.forList`: a `for` loop over a list, with its accumulator.
* `Eff.collect`: a loop that collects one result for each element, and the worlds of its turns.
* `Eff.Keeps`, `Eff.Still`: calls that leave a part of the world alone, or all of it, and what is
  made of such calls (`Eff.Closed`).
-/

namespace CivicProof

/-- A call that ends with a value or an exception, and leaves the world changed. -/
def Eff (σ α : Type) : Type := σ → Except PyError α × σ

namespace Eff

variable {σ α β : Type}

/-- `x`, then `f` on its value unless `x` raised. -/
def andThen (x : Eff σ α) (f : α → Eff σ β) : Eff σ β := fun s =>
  match x s with
  | (.ok a, s') => f a s'
  | (.error e, s') => (.error e, s')

instance : Monad (Eff σ) where
  pure a := fun s => (.ok a, s)
  bind := andThen

/-- `raise e`. -/
def raise (e : PyError) : Eff σ α := fun s => (.error e, s)

/-- A result computed without effects. -/
def lift (r : Except PyError α) : Eff σ α := fun s => (r, s)

/-- `try: x except Exception: h`. -/
def orElse (x : Eff σ α) (h : Eff σ α) : Eff σ α := fun s =>
  match x s with
  | (.ok a, s') => (.ok a, s')
  | (.error _, s') => h s'

/-- `with ctx: body`, for a context entered by `enter` and left by `leave`. It is left after
an exception too, and an exception on leaving replaces the result. -/
def within (enter leave : Eff σ Unit) (body : Eff σ α) : Eff σ α := fun s =>
  match enter s with
  | (.error e, s₁) => (.error e, s₁)
  | (.ok (), s₁) =>
    match leave (body s₁).2 with
    | (.error e, s₂) => (.error e, s₂)
    | (.ok (), s₂) => ((body s₁).1, s₂)

/-- A `for` loop over a list with an accumulator. -/
def forList (f : β → α → Eff σ β) : β → List α → Eff σ β
  | b, [] => pure b
  | b, a :: l => f b a >>= fun b' => forList f b' l

theorem pure_apply (a : α) (s : σ) : (pure a : Eff σ α) s = (.ok a, s) := rfl

theorem bind_apply (x : Eff σ α) (f : α → Eff σ β) (s : σ) :
    (x >>= f) s = match x s with
      | (.ok a, s') => f a s'
      | (.error e, s') => (.error e, s') := rfl

/-- **A sequence ends normally** iff its first call does and the rest does from there. -/
theorem bind_ok {x : Eff σ α} {f : α → Eff σ β} {s s'' : σ} {b : β} :
    (x >>= f) s = (.ok b, s'') ↔ ∃ a s', x s = (.ok a, s') ∧ f a s' = (.ok b, s'') := by
  rw [bind_apply]
  rcases hx : x s with ⟨_ | a, s'⟩
  · simp
  · simp

theorem bind_of_ok {x : Eff σ α} {f : α → Eff σ β} {s s' : σ} {a : α} (h : x s = (.ok a, s')) :
    (x >>= f) s = f a s' := by
  rw [bind_apply, h]

/-- A call that is known to end normally, from something read off its value. -/
theorem ok_of_map {γ : Type} {x : Eff σ α} {s : σ} {f : α → γ} {c : γ}
    (h : (x s).1.toOption.map f = some c) : ∃ a s', x s = (.ok a, s') ∧ f a = c := by
  rcases hx : x s with ⟨e | a, s'⟩
  · rw [hx] at h
    cases h
  · rw [hx] at h
    exact ⟨a, s', rfl, Option.some.inj h⟩

/-- A context that ends normally was entered and left, and its body ended normally. -/
theorem within_ok {enter leave : Eff σ Unit} {body : Eff σ α} {s s' : σ} {a : α}
    (h : within enter leave body s = (.ok a, s')) :
    ∃ s₁ s₂, enter s = (.ok (), s₁) ∧ body s₁ = (.ok a, s₂) := by
  unfold within at h
  split at h
  · cases h
  · rename_i s₁ hin
    split at h
    · cases h
    · have hbody : (body s₁).1 = .ok a := (Prod.mk.inj h).1
      exact ⟨s₁, (body s₁).2, hin, Prod.ext hbody rfl⟩

theorem within_apply {enter leave : Eff σ Unit} {body : Eff σ α} {s s₁ s₂ s₃ : σ}
    {r : Except PyError α} (hin : enter s = (.ok (), s₁)) (hbody : body s₁ = (r, s₂))
    (hout : leave s₂ = (.ok (), s₃)) : within enter leave body s = (r, s₃) := by
  unfold within
  rw [hin]
  dsimp only
  rw [hbody]
  dsimp only
  rw [hout]

/-- **The invariant of a loop that ends normally.** -/
theorem forList_inv {f : β → α → Eff σ β} (P : List α → β → Prop)
    {l : List α} (hstep : ∀ done a, ∀ b b' : β, ∀ s s', P done b → a ∈ l →
      f b a s = (.ok b', s') → P (done ++ [a]) b') :
    ∀ {b b' : β} {s s' : σ}, P [] b → forList f b l s = (.ok b', s') → P l b' := by
  have key : ∀ (rest done : List α), (∀ a ∈ rest, a ∈ l) → ∀ {b b' : β} {s s' : σ}, P done b →
      forList f b rest s = (.ok b', s') → P (done ++ rest) b' := by
    intro rest
    induction rest with
    | nil =>
      intro done _ b b' s s' hb h
      rw [forList, pure_apply] at h
      cases h
      rwa [List.append_nil]
    | cons a rest ih =>
      intro done hsub b b' s s' hb h
      rw [forList, bind_ok] at h
      obtain ⟨b₁, s₁, h1, h2⟩ := h
      have hb1 := hstep done a b b₁ s s₁ hb (hsub a List.mem_cons_self) h1
      have := ih (done ++ [a]) (fun x hx => hsub x (List.mem_cons_of_mem _ hx)) hb1 h2
      rwa [List.append_assoc] at this
  intro b b' s s' hb h
  exact key l [] (fun _ h => h) hb h

/-- A loop that ends normally has run every round normally. -/
theorem forList_mem {f : β → α → Eff σ β} {l : List α} {b b' : β} {s s' : σ} {a : α}
    (h : forList f b l s = (.ok b', s')) (ha : a ∈ l) :
    ∃ c c' t t', f c a t = (.ok c', t') := by
  have hall := forList_inv (fun done (_ : β) => ∀ a ∈ done, ∃ c c' t t', f c a t = (.ok c', t'))
    (fun done a b b' s s' hdone _ hround x hx => ?_) (fun _ hx => absurd hx List.not_mem_nil) h
  · exact hall a ha
  · rcases List.mem_append.1 hx with hx | hx
    · exact hdone x hx
    · rw [List.mem_singleton.1 hx]
      exact ⟨b, b', s, s', hround⟩

/-! ## Loops that collect -/

/-- A loop that calls `f` on every element and collects the results in order. -/
def collect (f : α → Eff σ β) : List β → List α → Eff σ (List β) :=
  forList fun bs a => do return bs ++ [← f a]

/-- The elements of a loop, each with the world in which its turn comes if no call before it
ends the loop. -/
def turns (f : α → Eff σ β) : List α → σ → List (α × σ)
  | [], _ => []
  | a :: l, s => (a, s) :: turns f l (f a s).2

/-- A call ends normally. -/
def Ends (f : α → Eff σ β) (t : α × σ) : Prop := ∃ b s', f t.1 t.2 = (.ok b, s')

theorem collect_cons {f : α → Eff σ β} {bs : List β} {a : α} {l : List α} {s s' : σ} {b : β}
    (h : f a s = (.ok b, s')) : collect f bs (a :: l) s = collect f (bs ++ [b]) l s' := by
  unfold collect
  rw [forList]
  exact bind_of_ok (by rw [bind_of_ok h]; rfl)

/-- **A loop ends normally** iff the call of every turn does. -/
theorem collect_ok_iff {f : α → Eff σ β} {l : List α} {bs : List β} {s : σ} :
    (∃ bs' s', collect f bs l s = (.ok bs', s')) ↔ ∀ t ∈ turns f l s, Ends f t := by
  induction l generalizing bs s with
  | nil => exact ⟨fun _ _ ht => absurd ht List.not_mem_nil, fun _ => ⟨bs, s, rfl⟩⟩
  | cons a l ih =>
    rw [turns, List.forall_mem_cons]
    constructor
    · rintro ⟨bs', s', h⟩
      have hround := h
      unfold collect at hround
      rw [forList, bind_ok] at hround
      obtain ⟨b₁, s₁, hround, -⟩ := hround
      rw [bind_ok] at hround
      obtain ⟨b, s₂, hb, -⟩ := hround
      rw [collect_cons hb] at h
      refine ⟨⟨b, s₂, hb⟩, ?_⟩
      rw [hb]
      exact ih.1 ⟨bs', s', h⟩
    · rintro ⟨⟨b, s₁, hb⟩, hrest⟩
      dsimp only at hb
      rw [hb] at hrest
      rw [collect_cons hb]
      exact ih.2 hrest

/-- **What a loop collects**: for each turn, in their order, the result of its call. -/
theorem collect_forall₂ {f : α → Eff σ β} {l : List α} {bs bs' : List β} {s s' : σ}
    (h : collect f bs l s = (.ok bs', s')) : ∃ new, bs' = bs ++ new ∧
      List.Forall₂ (fun t b => ∃ w, f t.1 t.2 = (.ok b, w)) (turns f l s) new := by
  induction l generalizing bs s with
  | nil =>
    cases h
    exact ⟨[], (List.append_nil _).symm, .nil⟩
  | cons a l ih =>
    obtain ⟨b, s₁, hb⟩ := collect_ok_iff.1 ⟨bs', s', h⟩ (a, s) List.mem_cons_self
    rw [collect_cons hb] at h
    obtain ⟨new, rfl, hnew⟩ := ih h
    refine ⟨b :: new, List.append_assoc .., ?_⟩
    rw [turns, hb]
    exact .cons ⟨s₁, hb⟩ hnew

/-- **A loop raises** in the call of one turn, after those of the turns before it have ended
normally. -/
theorem collect_raises {f : α → Eff σ β} {l : List α} {bs : List β} {s s' : σ} {e : PyError}
    (h : collect f bs l s = (.error e, s')) : ∃ before t after,
      turns f l s = before ++ t :: after ∧ (∀ x ∈ before, Ends f x) ∧ f t.1 t.2 = (.error e, s') := by
  induction l generalizing bs s with
  | nil => cases h
  | cons a l ih =>
    rcases hb : f a s with ⟨e' | b, s₁⟩
    · unfold collect at h
      rw [forList, bind_apply, bind_apply, hb] at h
      cases h
      exact ⟨[], (a, s), _, rfl, nofun, hb⟩
    · rw [collect_cons hb] at h
      obtain ⟨before, t, after, hturns, hends, ht⟩ := ih h
      refine ⟨(a, s) :: before, t, after, ?_, List.forall_mem_cons.2 ⟨⟨b, s₁, hb⟩, hends⟩, ht⟩
      rw [turns, hb, hturns]
      rfl

/-- What a loop collects, for any way to read the results that the calls determine. -/
theorem collect_map {γ : Type} {f : α → Eff σ β} {g : β → γ} {d : α × σ → γ}
    (hg : ∀ a s b s', f a s = (.ok b, s') → g b = d (a, s)) {l : List α} {bs bs' : List β}
    {s s' : σ} (h : collect f bs l s = (.ok bs', s')) :
    bs'.map g = bs.map g ++ (turns f l s).map d := by
  induction l generalizing bs s with
  | nil =>
    cases h
    rw [turns, List.map_nil, List.append_nil]
  | cons a l ih =>
    obtain ⟨b, s₁, hb⟩ := collect_ok_iff.1 ⟨bs', s', h⟩ (a, s) List.mem_cons_self
    rw [collect_cons hb] at h
    rw [ih h, turns, List.map_cons, hb, List.map_append, List.append_assoc, List.map_singleton,
      hg a s b s₁ hb, List.singleton_append]

theorem turns_fst {f : α → Eff σ β} {l : List α} {s : σ} : (turns f l s).map Prod.fst = l := by
  induction l generalizing s with
  | nil => rfl
  | cons a l ih => rw [turns, List.map_cons, ih]

/-- Loops whose calls agree on every turn agree. -/
theorem collect_congr {f g : α → Eff σ β} {l : List α} {bs : List β} {s : σ}
    (h : ∀ t ∈ turns f l s, f t.1 t.2 = g t.1 t.2) : collect f bs l s = collect g bs l s := by
  induction l generalizing bs s with
  | nil => rfl
  | cons a l ih =>
    rw [turns, List.forall_mem_cons] at h
    rcases hf : f a s with ⟨e | b, s'⟩
    · have hg : g a s = (.error e, s') := h.1.symm.trans hf
      unfold collect
      rw [forList, forList, bind_apply, bind_apply, bind_apply, bind_apply, hf, hg]
    · have hg : g a s = (.ok b, s') := h.1.symm.trans hf
      rw [collect_cons hf, collect_cons hg]
      rw [hf] at h
      exact ih h.2

/-- Two calls that leave the world alike have the same turns. -/
theorem turns_congr {f g : α → Eff σ β} {l : List α} {s : σ}
    (h : ∀ t ∈ turns f l s, (f t.1 t.2).2 = (g t.1 t.2).2) : turns f l s = turns g l s := by
  induction l generalizing s with
  | nil => rfl
  | cons a l ih =>
    rw [turns, List.forall_mem_cons] at h
    rw [turns, turns, ih h.2, h.1]

/-! ## Calls that leave the world alone -/

/-- A call leaves the part `part` of the world alone, also when it raises. -/
def Keeps {γ : Type} (part : σ → γ) (x : Eff σ α) : Prop := ∀ s, part (x s).2 = part s

/-- A call that reads: its answer does not depend on the world, and it changes nothing. -/
def Still (x : Eff σ α) : Prop := ∃ r, ∀ s, x s = (r, s)

/-- A property of calls that what is made of such calls has too. -/
structure Closed (P : (α : Type) → Eff σ α → Prop) : Prop where
  pure : ∀ {α : Type} (a : α), P α (pure a)
  raise : ∀ {α : Type} (e : PyError), P α (raise e)
  bind : ∀ {α β : Type} {x : Eff σ α} {f : α → Eff σ β}, P α x → (∀ a, P β (f a)) → P β (x >>= f)

theorem Closed.forList {P : (α : Type) → Eff σ α → Prop} (h : Closed P) {g : β → α → Eff σ β}
    (hg : ∀ b a, P β (g b a)) (b : β) (l : List α) : P β (forList g b l) := by
  induction l generalizing b with
  | nil => exact h.pure b
  | cons a l ih => exact h.bind (hg b a) ih

theorem keeps_closed {γ : Type} (part : σ → γ) : Closed fun _ => Keeps part where
  pure _ _ := rfl
  raise _ _ := rfl
  bind := by
    intro α β x f hx hf s
    have hfirst := hx s
    rw [bind_apply]
    rcases h : x s with ⟨_ | a, s'⟩
    · rwa [h] at hfirst
    · rw [h] at hfirst
      exact (hf a s').trans hfirst

theorem still_closed : Closed fun _ => Still (σ := σ) where
  pure a := ⟨.ok a, fun _ => rfl⟩
  raise e := ⟨.error e, fun _ => rfl⟩
  bind := by
    rintro α β x f ⟨e | a, hr⟩ hf
    · exact ⟨.error e, fun s => by rw [bind_apply, hr]⟩
    · obtain ⟨r, hr'⟩ := hf a
      exact ⟨r, fun s => by rw [bind_apply, hr]; exact hr' s⟩

/-- A call that reads answers alike in every world. -/
theorem Still.eq {x : Eff σ α} (h : Still x) {s t : σ} {r : Except PyError α} {s' : σ} (hs : x s = (r, s')) :
    s' = s ∧ x t = (r, t) := by
  obtain ⟨r', hr⟩ := h
  rw [hr] at hs
  cases hs
  exact ⟨rfl, hr t⟩

end Eff

end CivicProof
