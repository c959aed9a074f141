import CivicProof.Proof.TimeKept

/-!
# Time suffixes behind names

A name of a statement's own, with any characters of the suffix, is the shortest one that the end of
the statement allows.

* `NameFront`: the front of a template, where a word marks the place of the name.
* `NameFront.no_heads`, `NameFront.no_before`: no earlier start of the name takes the suffix in.
* `name_kept_iff`: a later one does exactly if the name begins with white space that it can lose
  (`NameApart`).
-/

namespace CivicProof

open Regex Re

/-! ## A word that marks a place -/

/-- The first `x` of a text stands no later than that of an end of it. -/
theorem landmark {A B q A' B' q' u : List Char} {x : Char} (hlen : B.length = B'.length) (hA : x ∉ A)
    (h : A ++ x :: B ++ q = u ++ (A' ++ x :: B' ++ q')) : q'.length ≤ q.length := by
  by_contra hlt
  have hlens := congrArg List.length h
  simp only [List.length_append, List.length_cons] at hlens
  have heq : A ++ (x :: B ++ q) = (u ++ A') ++ (x :: B' ++ q') := by
    rw [← List.append_assoc, h]
    simp
  rcases List.append_eq_append_iff.1 heq with ⟨c, hc, -⟩ | ⟨c, rfl, hc⟩
  · have := congrArg List.length hc
    rw [List.length_append, List.length_append] at this
    omega
  · cases c with
    | nil =>
      simp only [List.length_append, List.length_nil] at hlens
      omega
    | cons d c =>
      obtain ⟨rfl, -⟩ := List.cons_eq_cons.1 hc
      exact hA (by simp)

/-- Every text of the expression has a first `x`, with `k` characters behind it. -/
def Re.Marks (x : Char) (k : ℕ) (r : Pattern) : Prop :=
  ∀ {g pre w post g'}, r.Matches g pre w post g' → ∃ A B, w = A ++ x :: B ∧ x ∉ A ∧ B.length = k

theorem Marks_append {x : Char} {k : ℕ} (l l' : List Pattern) (hl : ∀ r ∈ l, r.Within (· ≠ x))
    (hl' : Re.Marks x k (cat l')) : Re.Marks x k (cat (l ++ l')) := by
  intro g pre w post g' h
  obtain ⟨u, v, g₁, rfl, hu, hv⟩ := Matches_append.1 h
  obtain ⟨A, B, rfl, hA, hB⟩ := hl' hv
  refine ⟨u ++ A, B, (List.append_assoc ..).symm, fun hmem => ?_, hB⟩
  exact (List.mem_append.1 hmem).elim (fun h => (Within_cat.2 hl).forall_mem hu x h rfl) hA

theorem Marks_he {x : Char} {word : String} {A B : List Char} (hword : word.toList = A ++ x :: B)
    (hA : x ∉ A) : Re.Marks x B.length (he word) := by
  intro g pre w post g' h
  obtain rfl := ((plain_he word ..).1 h).1
  exact ⟨A, B, hword, hA, rfl⟩

theorem Marks_any {x : Char} {k : ℕ} {l : List Pattern} (h : ∀ r ∈ l, Re.Marks x k r) :
    Re.Marks x k (any l) := by
  intro g pre w post g' hm
  obtain ⟨r, hr, hm⟩ := Matches_any.1 hm
  exact h r hr hm

/-- What stands between the subject and a name: it ends in a word that marks the place. -/
structure NameFront (mid : List Pattern) (x : Char) (k : ℕ) : Prop where
  free : (cat mid).avoids .subject = true
  marks : Re.Marks x k (cat mid)

/-- White space and a name of a statement's own, as short as it can be. -/
def nameEnd (n : GroupName) (hi : ℕ) : List Pattern := [sp, .group n (.rep isHeTitle 2 (some hi) false)]

section

variable {n : GroupName} {hi k : ℕ} {x : Char} {mid : List Pattern} {g g' : Caps GroupName}
  {pre w post : List Char}

theorem nameEnd_iff : (cat (nameEnd n hi)).Matches g pre w post g' ↔ ∃ a b, w = a ++ b ∧
    Run isSpace 1 none a ∧ Run isHeTitle 2 (some hi) b ∧ g' = Function.update g n (some b) := by
  constructor
  · intro h
    obtain ⟨a, b, rfl, ha, g₁, hb, rfl⟩ := plain_sp.cat_iff.1 h
    obtain ⟨hrun, rfl⟩ := (Plain_rep ..).1 hb
    exact ⟨a, b, rfl, ha, hrun, rfl⟩
  · rintro ⟨a, b, rfl, ha, hb, rfl⟩
    exact plain_sp.cat_iff.2 ⟨a, b, rfl, ha, g, ⟨hb, rfl⟩, rfl⟩

theorem subject_iff : (cat (heSubject :: mid)).Matches g pre w post g' ↔ ∃ a b, w = a ++ b ∧
    Run isHeName 2 (some 40) a ∧
      (cat mid).Matches (Function.update g .subject (some a)) (a.reverse ++ pre) b post g' :=
  Plain_rep.group_iff

theorem isHeTitle_of_space {c : Char} (h : isSpace c = true) : isHeTitle c = true := by
  simp [isHeTitle, isEnTitle, isEnCommittee, h]

/-- A name that goes on into the suffix can stop before it, if there are characters enough. -/
theorem name_cut {q y a b : List Char} (hhi : 2 ≤ hi) (hq : 3 ≤ q.length) (ha : Run isSpace 1 none a)
    (hb : Run isHeTitle 2 (some hi) b) (heq : q ++ y = a ++ b) :
    ∃ a' b', q = a' ++ b' ∧ Run isSpace 1 none a' ∧ Run isHeTitle 2 (some hi) b' := by
  have hin : ∀ c ∈ q, isHeTitle c = true := fun c hc =>
    forall_append (P := fun c => isHeTitle c = true) (fun c hc => isHeTitle_of_space (ha.1 c hc)) hb.1 c
      (heq ▸ List.mem_append_left y hc)
  have hpos := ha.2.1
  have hmax : b.length ≤ hi := hb.2.2 hi rfl
  have hlens := congrArg List.length heq
  rw [List.length_append, List.length_append] at hlens
  obtain ⟨i, hi₁, hi₂, hi₃⟩ : ∃ i, 1 ≤ i ∧ i ≤ a.length ∧ i + 2 ≤ q.length ∧ q.length - i ≤ hi := by
    by_cases hlong : a.length + 2 ≤ q.length
    · exact ⟨a.length, hpos, le_refl _, hlong, by omega⟩
    · exact ⟨q.length - 2, by omega, by omega, by omega, by omega⟩
  have htake : q.take i = a.take i := by
    have := congrArg (List.take i) heq
    rwa [List.take_append_of_le_length (by omega), List.take_append_of_le_length hi₂] at this
  refine ⟨q.take i, q.drop i, (List.take_append_drop i q).symm, ⟨fun c hc => ?_, ?_, by simp⟩,
    fun c hc => hin c (List.mem_of_mem_drop hc), ?_, ?_⟩
  · rw [htake] at hc
    exact ha.1 c (List.mem_of_mem_take hc)
  · rw [List.length_take]
    omega
  · rw [List.length_drop]
    omega
  · intro m hm
    obtain rfl := Option.mem_some_iff.1 hm
    rw [List.length_drop]
    exact hi₃.2

end

/-! ## No earlier way takes the suffix in -/

section

variable {n : GroupName} {hi k : ℕ} {x : Char} {mid : List Pattern} {T : Pattern} {y t s : List Char}
  {m : Match GroupName} (N : NameFront mid x k)

include N

/-- A way through the front: the subject, and what stands up to the name. -/
theorem NameFront.parts {pre post : List Char} {h : FrontWay}
    (hh : h ∈ (cat (heSubject :: mid)).ways Place.part (fun _ => none) pre post) :
    ∃ a A B, post = a ++ (A ++ x :: B ++ h.post) ∧ x ∉ A ∧ B.length = k ∧ h.text .subject = a ∧
      Run isHeName 2 (some 40) a ∧ ∃ g, (cat mid).Matches (Function.update (fun _ => none) .subject (some a))
        (a.reverse ++ pre) (A ++ x :: B) h.post g := by
  obtain ⟨w, hpost, -, hm⟩ := ways_matches hh
  obtain ⟨a, b, rfl, ha, hmid⟩ := subject_iff.1 hm
  obtain ⟨A, B, rfl, hA, hB⟩ := N.marks hmid
  refine ⟨a, A, B, by rw [hpost]; simp, hA, hB, ?_, ha, _, hmid⟩
  rw [Way.text, groups_of_avoids N.free hmid, Function.update_self, Option.getD_some]

/-- A way that is tried before leaves at least as much text. -/
theorem NameFront.head_post {l' : List Pattern} {pre post : List Char} {L : Lead (heSubject :: mid) l' pre post}
    (K : L.Longer y) {h : FrontWay} (hh : h ∈ K.heads) : (L.head.post ++ y).length ≤ h.post.length := by
  have hmem : h ∈ (cat (heSubject :: mid)).ways Place.part (fun _ => none) pre (post ++ y) := by
    rw [K.head_eq]
    exact List.mem_append_left _ hh
  have hmem' : L.head.ahead y ∈ (cat (heSubject :: mid)).ways Place.part (fun _ => none) pre (post ++ y) := by
    rw [K.head_eq]
    exact List.mem_append_right _ List.mem_cons_self
  obtain ⟨a, A, B, hpost, hA, hB, htext, -⟩ := N.parts hmem
  obtain ⟨a', A', B', hpost', -, hB', htext', -⟩ := N.parts hmem'
  have horder : a.length ≤ a'.length := by
    have hpair : ((cat (heSubject :: mid)).ways Place.part (fun _ => none) pre (post ++ y)).Pairwise
        fun x z => (x.text .subject).length ≤ (z.text .subject).length := ways_cat_lazy_pairwise N.free
    rw [K.head_eq] at hpair
    rw [← htext, ← htext']
    exact (List.pairwise_append.1 hpair).2.2 h hh _ List.mem_cons_self
  rw [hpost] at hpost'
  rcases List.append_eq_append_iff.1 hpost' with ⟨u, rfl, hu⟩ | ⟨u, rfl, hu⟩
  · exact landmark (hB.trans hB'.symm) hA hu
  · obtain rfl : u = [] := by
      rw [List.length_append] at horder
      exact List.length_eq_zero_iff.1 (by omega)
    exact landmark (u := []) (hB.trans hB'.symm) hA hu.symm

end

section

variable {n : GroupName} {hi k : ℕ} {x : Char} {mid l : List Pattern} {T : Pattern} {y t s : List Char}
  {m : Match GroupName}

/-- The name of a match, and what stands around it. -/
theorem Located.name (P : Located l (nameEnd n hi) T s m) : ∃ a b,
    P.lead.head.post = a ++ (b ++ P.lead.last.post) ∧ Run isSpace 1 none a ∧
      Run isHeTitle 2 (some hi) b ∧ P.lead.last.text n = b ∧ m.groups n = some b := by
  have hmem : P.lead.last ∈ waysFrom (nameEnd n hi) P.lead.head := by
    rw [P.lead.rest_eq]
    exact List.mem_append_right _ List.mem_cons_self
  obtain ⟨w, hpost, -, hm⟩ := ways_matches hmem
  obtain ⟨a, b, rfl, ha, hb, hg⟩ := nameEnd_iff.1 hm
  refine ⟨a, b, by rw [hpost, List.append_assoc], ha, hb, ?_, ?_⟩
  · rw [Way.text, hg, Function.update_self, Option.getD_some]
  · rw [P.groups, hg, Function.update_self]

theorem Located.name_length (P : Located l (nameEnd n hi) T s m) : 3 ≤ P.lead.head.post.length := by
  obtain ⟨a, b, hpost, ha, hb, -⟩ := P.name
  have hpos := ha.2.1
  have hpos' := hb.2.1
  rw [hpost, List.length_append, List.length_append]
  omega

/-- A name may follow. -/
theorem nameEnd_of {a b : List Char} (ha : Run isSpace 1 none a) (hb : Run isHeTitle 2 (some hi) b)
    (g : Caps GroupName) (pre post : List Char) :
    (cat (nameEnd n hi)).Matches g pre (a ++ b) post (Function.update g n (some b)) :=
  nameEnd_iff.2 ⟨a, b, rfl, ha, hb, rfl⟩

variable (N : NameFront mid x k) (hhi : 2 ≤ hi)

include N hhi

/-- From no way tried before does a name take the suffix in. -/
theorem NameFront.no_heads (P : Located (heSubject :: mid) (nameEnd n hi) T s m) (K : P.lead.Longer y) :
    ¬∃ h ∈ K.heads, ∃ z ∈ waysFrom (nameEnd n hi) h, z.post = [] := by
  rintro ⟨h, hh, z, hz, hnil⟩
  have hlen := N.head_post K hh
  have hpos := P.name_length
  rw [List.length_append] at hlen
  rcases K.old_head h hh with ⟨h₀, hh₀, rfl⟩ | hlt
  · obtain ⟨w, hpost, -, hm⟩ := ways_matches hz
    obtain ⟨a, b, rfl, ha, hb, -⟩ := nameEnd_iff.1 hm
    rw [hnil, List.append_nil] at hpost
    have hlen₀ : 3 ≤ h₀.post.length := by
      have : (h₀.ahead y).post.length = h₀.post.length + y.length := List.length_append
      omega
    obtain ⟨a', b', hq, ha', hb'⟩ := name_cut hhi hlen₀ ha hb hpost
    exact P.lead.no_clean hh₀ (hq.trans (List.append_nil _).symm) (fun c hc => absurd hc List.not_mem_nil)
      (nameEnd_of ha' hb' _ _ _)
  · omega

/-- Nor does one from an earlier part of the statement. -/
theorem NameFront.no_before (hT : ReadBack T y t) (hF : Untimed (heSubject :: mid) (nameEnd n hi))
    (P : Located (heSubject :: mid) (nameEnd n hi) T s m) {u v : List Char} {g : Caps GroupName}
    (hs : s = u ++ v) (hlt : u.length < P.before.length) :
    ¬(cat (heSubject :: mid ++ nameEnd n hi)).Matches (fun _ => none) u.reverse (v ++ y) [] g := by
  intro hm
  obtain ⟨w, e, g₁, hv, hw, hend⟩ := Matches_append.1 hm
  obtain ⟨a, ω, rfl, ha, hmid⟩ := subject_iff.1 hw
  obtain ⟨A, B, rfl, hA, hB⟩ := N.marks hmid
  obtain ⟨b, c, rfl, hb, hc, -⟩ := nameEnd_iff.1 hend
  -- the lead, in the same text
  have hlead : P.lead.head ∈ (cat (heSubject :: mid)).ways Place.part (fun _ => none) P.before.reverse
      P.text := by
    rw [P.lead.head_eq]
    exact List.mem_append_right _ List.mem_cons_self
  obtain ⟨a₀, A₀, B₀, htext, -, hB₀, -, ha₀, g₀, hmid₀⟩ := N.parts hlead
  obtain ⟨d, hbefore, hvd⟩ : ∃ d, P.before = u ++ d ∧ v = d ++ P.text := by
    rcases List.append_eq_append_iff.1 (hs.symm.trans P.eq) with ⟨d, hd, hv⟩ | ⟨d, hd, -⟩
    · exact ⟨d, hd, hv⟩
    · rw [hd, List.length_append] at hlt
      omega
  have hvtext : v = (d ++ a₀) ++ (A₀ ++ x :: B₀ ++ P.lead.head.post) :=
    hvd.trans ((congrArg (d ++ ·) htext).trans (List.append_assoc ..).symm)
  have hboth : a ++ (A ++ x :: B ++ (b ++ c)) =
      (d ++ a₀) ++ (A₀ ++ x :: B₀ ++ (P.lead.head.post ++ y)) := by
    rw [← List.append_assoc a, ← hv, hvtext]
    simp
  have hblind : (cat mid).blind = true := by
    have hall := hF.blind
    rw [blind_cat, List.all_cons, Bool.and_eq_true] at hall
    rw [blind_cat]
    exact hall.2
  rcases Nat.lt_or_ge (d ++ a₀).length a.length with hlong | hshort
  · -- the subject can stop where that of the match does
    rcases List.append_eq_append_iff.1 hboth with ⟨e, he, -⟩ | ⟨e, rfl, -⟩
    · rw [he, List.length_append] at hlong
      omega
    have hda : Run isHeName 2 (some 40) (d ++ a₀) := by
      refine ⟨fun z hz => ha.1 z (List.mem_append_left e hz), ?_, fun z hz => ?_⟩
      · rw [List.length_append]
        exact Nat.le_trans ha₀.2.1 (Nat.le_add_left ..)
      · exact Nat.le_trans (Nat.le_of_lt hlong) (ha.2.2 z hz)
    obtain ⟨b₀, c₀, hpost, hb₀, hc₀, -⟩ := P.name
    obtain ⟨g₂, hmid₂⟩ := hmid₀.regroup (Function.update (fun _ => none) .subject (some (d ++ a₀)))
    refine P.no_earlier hT (q := (d ++ a₀) ++ (A₀ ++ x :: B₀) ++ (b₀ ++ c₀)) (r := P.lead.last.post) ?_ hlt
      P.lead.clean (Matches_append.2 ⟨_, _, g₂, rfl, subject_iff.2 ⟨_, _, rfl, hda, ?_⟩,
        nameEnd_of hb₀ hc₀ _ _ _⟩)
    · refine hs.trans (congrArg (u ++ ·) (hvtext.trans ?_))
      rw [hpost]
      simp
    · exact hmid₂.around hblind _ _
  · -- the name can stop before the suffix
    have hlen : (P.lead.head.post ++ y).length ≤ (b ++ c).length := by
      rcases List.append_eq_append_iff.1 hboth with ⟨e, -, hrest⟩ | ⟨e, ha', hrest⟩
      · exact landmark (hB.trans hB₀.symm) hA (by simpa using hrest)
      · obtain rfl : e = [] := by
          rw [ha'] at hshort
          simp only [List.length_append] at hshort
          exact List.length_eq_zero_iff.1 (by omega)
        exact landmark (u := []) (hB.trans hB₀.symm) hA (by simpa using hrest.symm)
    have hname := P.name_length
    rcases List.append_eq_append_iff.1 hv with ⟨q, -, hq⟩ | ⟨q, hq, hqy⟩
    · have := congrArg List.length hq
      simp only [List.length_append] at this hlen
      omega
    · have hqlen : 3 ≤ q.length := by
        have := congrArg List.length hqy
        simp only [List.length_append] at this hlen
        omega
      obtain ⟨b', c', rfl, hb', hc'⟩ := name_cut hhi hqlen hb hc hqy.symm
      refine P.no_earlier hT (q := a ++ (A ++ x :: B) ++ (b' ++ c')) (r := []) ?_ hlt
        (fun z hz => absurd hz List.not_mem_nil) (Matches_append.2 ⟨_, _, g₁, rfl, hw.around hF.blind _ _,
          nameEnd_of hb' hc' _ _ _⟩)
      rw [hs, hq, List.append_nil]

end

/-! ## The white space before a name -/

/-- `z` is tried before `z'`: its name begins later, or as late and ends earlier. -/
def Sooner (n : GroupName) (z z' : FrontWay) : Prop :=
  (z.text n ++ z.post).length < (z'.text n ++ z'.post).length ∨
    (z.text n ++ z.post = z'.text n ++ z'.post ∧ (z.text n).length < (z'.text n).length)

/-- A suffix cannot be taken in by a later start of the name. -/
def NameApart (hi : ℕ) (name y : List Char) : Prop :=
  ¬((∃ c ∈ name.head?, isSpace c = true) ∧ Run isHeTitle 2 (some hi) ((name ++ y).dropWhile isSpace))

section

variable {n : GroupName} {hi : ℕ} {l : List Pattern} {T : Pattern} {y t s : List Char}
  {m : Match GroupName} {z : FrontWay}

theorem nameEnd_order (n : GroupName) (hi : ℕ) (h : FrontWay) : (waysFrom (nameEnd n hi) h).Pairwise (Sooner n) :=
  ways_rep_lazy_pairwise

/-- A way that is tried before the last one stands before it. -/
theorem mem_rests {h last : FrontWay} {rests rests' : List FrontWay}
    (heq : waysFrom (nameEnd n hi) h = rests ++ last :: rests') (hz : z ∈ waysFrom (nameEnd n hi) h)
    (hsooner : Sooner n z last) : z ∈ rests := by
  have hpair := nameEnd_order n hi h
  rw [heq] at hpair hz
  rcases List.mem_append.1 hz with hz | hz
  · exact hz
  exfalso
  rcases List.mem_cons.1 hz with rfl | hz
  · rcases hsooner with hlt | ⟨-, hlt⟩ <;> exact absurd hlt (Nat.lt_irrefl _)
  · have hlater := (List.pairwise_cons.1 (List.pairwise_append.1 hpair).2.1).1 z hz
    rcases hsooner with hlt | ⟨heq, hlt⟩ <;> rcases hlater with hlt' | ⟨heq', hlt'⟩
    · omega
    · rw [heq'] at hlt
      exact absurd hlt (Nat.lt_irrefl _)
    · rw [heq] at hlt'
      exact absurd hlt' (Nat.lt_irrefl _)
    · omega

theorem sooner_of_mem {h last : FrontWay} {rests rests' : List FrontWay}
    (heq : waysFrom (nameEnd n hi) h = rests ++ last :: rests') (hz : z ∈ rests) : Sooner n z last := by
  have hpair := nameEnd_order n hi h
  rw [heq] at hpair
  exact (List.pairwise_append.1 hpair).2.2 z hz last List.mem_cons_self

/-- Behind a name that begins with white space there is nothing. -/
theorem Located.nothing_behind (P : Located l (nameEnd n hi) T s m) {c : Char} {b : List Char}
    (hname : m.groups n = some (c :: b)) (hc : isSpace c = true) : P.lead.last.post = [] := by
  obtain ⟨a, b₀, hpost, ha, hb, htext, hgroup⟩ := P.name
  obtain rfl : c :: b = b₀ := Option.some.inj (hname.symm.trans hgroup)
  cases hlast : P.lead.last.post with
  | nil => rfl
  | cons d r =>
    exfalso
    have hclean : ∀ x ∈ d :: r, isSpace x = true := hlast ▸ P.lead.clean
    have ha' : Run isSpace 1 none (a ++ [c]) :=
      ⟨forall_append ha.1 (List.forall_mem_singleton.2 hc), by simp, by simp⟩
    have hb' : Run isHeTitle 2 (some hi) (b ++ [d]) := by
      refine ⟨forall_append (fun x hx => hb.1 x (List.mem_cons_of_mem _ hx)) (List.forall_mem_singleton.2
        (isHeTitle_of_space (hclean d List.mem_cons_self))), ?_, fun k hk => ?_⟩
      · have := hb.2.1
        rwa [List.length_append, List.length_singleton, ← List.length_cons (a := c)]
      · have := hb.2.2 k hk
        rwa [List.length_append, List.length_singleton, ← List.length_cons (a := c)]
    have hmem := mem_ways (nameEnd_of (n := n) ha' hb' P.lead.head.groups P.lead.head.pre r)
    have hsame : a ++ [c] ++ (b ++ [d]) ++ r = P.lead.head.post := by
      rw [hpost, hlast]
      simp
    rw [hsame] at hmem
    refine P.lead.no_rest _ (mem_rests P.lead.rest_eq hmem (Or.inl ?_))
      fun x hx => hclean x (List.mem_cons_of_mem _ hx)
    rw [htext, hlast]
    simp [Way.text]

theorem two_le_stripped {b : List Char} {d : Char} (hd : isSpace d = false) (ht : t ≠ []) :
    2 ≤ ((b ++ ' ' :: d :: t).dropWhile isSpace).length := by
  have hpos := List.length_pos_of_ne_nil ht
  have hend : (' ' :: d :: t).dropWhile isSpace = d :: t := by
    rw [List.dropWhile_cons_of_pos (by decide), List.dropWhile_cons_of_neg (by simp [hd])]
  rw [List.dropWhile_append, hend]
  split
  · rw [List.length_cons]
    omega
  · rw [List.length_append, List.length_cons, List.length_cons]
    omega

/-- **When a name takes the suffix in.** -/
theorem Located.name_absorbs_iff (P : Located l (nameEnd n hi) T s m) {name : List Char}
    (hname : m.groups n = some name) {d : Char} (hy : y = ' ' :: d :: t) (hd : isSpace d = false)
    (ht : t ≠ []) (K : P.lead.Longer y) :
    (∃ z ∈ K.rests, z.post = []) ↔ ¬NameApart hi name y := by
  obtain ⟨a, b₀, hpost, ha, hb, htext, hgroup⟩ := P.name
  obtain rfl : name = b₀ := Option.some.inj (hname.symm.trans hgroup)
  have hne : name ≠ [] := List.ne_nil_of_length_pos (Nat.lt_of_lt_of_le (by decide) hb.2.1)
  obtain ⟨c, b, rfl⟩ := List.exists_cons_of_ne_nil hne
  have hahead : (P.lead.head.ahead y).post = a ++ (c :: b ++ (P.lead.last.post ++ y)) := by
    rw [Way.ahead, hpost]
    simp
  have hlast : (P.lead.last.ahead y).text n = c :: b := htext
  rw [NameApart, not_not]
  constructor
  · rintro ⟨z, hz, hnil⟩
    have hmem : z ∈ waysFrom (nameEnd n hi) (P.lead.head.ahead y) := by
      rw [K.rest_eq]
      exact List.mem_append_left _ hz
    obtain ⟨w, hw, -, hm⟩ := ways_matches hmem
    obtain ⟨a', b', rfl, ha', hb', hg⟩ := nameEnd_iff.1 hm
    have hztext : z.text n = b' := by rw [Way.text, hg, Function.update_self, Option.getD_some]
    rw [hnil, List.append_nil, hahead] at hw
    have hsooner := sooner_of_mem K.rest_eq hz
    rw [Sooner, hztext, hnil, hlast, List.append_nil] at hsooner
    have hlt : b'.length < (c :: b ++ (P.lead.last.post ++ y)).length := by
      rcases hsooner with hlt | ⟨heq, hlt⟩
      · exact hlt
      · rw [heq, List.length_append] at hlt
        omega
    rcases List.append_eq_append_iff.1 hw with ⟨e, rfl, he⟩ | ⟨e, -, he⟩
    · have hspace : ∀ x ∈ e, isSpace x = true := fun x hx => ha'.1 x (List.mem_append_right a hx)
      cases e with
      | nil =>
        rw [he] at hlt
        exact absurd hlt (Nat.lt_irrefl _)
      | cons c' e =>
        obtain ⟨rfl, -⟩ := List.cons_eq_cons.1 he
        have hc := hspace c List.mem_cons_self
        rw [P.nothing_behind hname hc, List.nil_append] at he
        have hsuffix : (c :: b ++ y).dropWhile isSpace <:+ b' := by
          rw [he, List.dropWhile_append_of_pos hspace]
          exact List.dropWhile_suffix _
        refine ⟨⟨c, rfl, hc⟩, fun x hx => hb'.1 x (hsuffix.subset hx), ?_, fun k hk => ?_⟩
        · rw [hy]
          exact two_le_stripped hd ht
        · exact Nat.le_trans hsuffix.length_le (hb'.2.2 k hk)
    · rw [he, List.length_append] at hlt
      omega
  · rintro ⟨⟨c', hc', hspace⟩, hrun⟩
    obtain rfl := Option.some.inj hc'
    rw [P.nothing_behind hname hspace, List.nil_append] at hahead
    have ha' : Run isSpace 1 none (a ++ (c :: b ++ y).takeWhile isSpace) := by
      refine ⟨forall_append ha.1 fun x hx => List.mem_takeWhile_imp hx, ?_, by simp⟩
      exact Nat.le_trans ha.2.1 (by rw [List.length_append]; exact Nat.le_add_right ..)
    have hmem := mem_ways (nameEnd_of (n := n) ha' hrun (P.lead.head.ahead y).groups
      (P.lead.head.ahead y).pre [])
    have hsame : a ++ (c :: b ++ y).takeWhile isSpace ++ (c :: b ++ y).dropWhile isSpace ++ [] =
        (P.lead.head.ahead y).post := by
      rw [hahead, List.append_nil, List.append_assoc, List.takeWhile_append_dropWhile]
    rw [hsame] at hmem
    refine ⟨_, mem_rests K.rest_eq hmem (Or.inl ?_), rfl⟩
    have hshort : ((c :: b ++ y).dropWhile isSpace).length ≤ (b ++ y).length := by
      rw [List.cons_append, List.dropWhile_cons_of_pos hspace]
      exact (List.dropWhile_suffix _).length_le
    have hlastpost : (P.lead.last.ahead y).post = y :=
      congrArg (· ++ y) (P.nothing_behind hname hspace)
    rw [hlast, hlastpost]
    simp only [Way.text, Function.update_self, Option.getD_some, List.append_nil,
      List.length_append, List.length_cons] at hshort ⊢
    omega

end

/-! ## The law -/

section

variable {tmpl : RuleTemplate} {n : GroupName} {hi k : ℕ} {x : Char} {mid : List Pattern} {T : Pattern}
  {s t : List Char} {m : Match GroupName}

/-- **The law for a template with a name** of the statement's own at its end. -/
theorem name_kept_iff (ht : tmpl ∈ ruleTemplates) (hphrase : TimePhrase tmpl t)
    (hpattern : tmpl.pattern = cat (heSubject :: mid ++ nameEnd n hi ++ [T, sentenceEnd]))
    (hF : Untimed (heSubject :: mid) (nameEnd n hi)) (hT : ReadBack T (timeSuffix tmpl.language t) t)
    (hm : tmpl.pattern.search s = some m) (htime : m.groups .time = none) (hmark : NoMark s)
    (N : NameFront mid x k) (hhi : 2 ≤ hi) (hlang : tmpl.language = .he) (hne : t ≠ []) :
    TimeKept tmpl s t (ofMatch tmpl m) ↔
      ∃ name, m.groups n = some name ∧ NameApart hi name (timeSuffix tmpl.language t) := by
  refine kept_iff ht hphrase hpattern hF hT hm htime hmark fun P K => ?_
  have hy : timeSuffix tmpl.language t = ' ' :: 'ב' :: t := by rw [hlang]; rfl
  obtain ⟨-, name, -, -, -, -, hname⟩ := P.name
  have habs := P.name_absorbs_iff hname hy (by decide) hne K
  constructor
  · rintro ⟨name', hname', hapart⟩
    obtain rfl : name = name' := Option.some.inj (hname.symm.trans hname')
    refine ⟨fun h => h.elim (N.no_heads hhi P K) fun h => habs.1 h hapart, fun u v hs hlt g => ?_⟩
    exact N.no_before hhi hT hF P hs hlt
  · intro hno
    exact Or.inr (habs.2 fun hapart => hno ⟨name, hname, hapart⟩)

end

end CivicProof
