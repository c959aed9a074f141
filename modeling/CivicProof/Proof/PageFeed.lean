import CivicProof.Spec.PageFeed

/-!
# Two walkers, one feed

`run_adapter` and `iter_odata_pages` on the pages of a server.

* `iterFeed_walk`, `iterFeed_links`: `iter_odata_pages` needs absolute links.
* `runAdapter_ok_iff`: `run_adapter` ends normally along a walk, and only there.
* `walkers_agree_iff`: when the two end and agree.
-/

namespace CivicProof

open Paging Relation

/-! ## `iter_odata_pages` -/

section Iter

variable {E : FeedEnv} {site : FeedSite E}

/-- A link that needs no page to be read: none, or an absolute one. -/
def FeedEnv.LinkOK (E : FeedEnv) (link : Json) : Prop :=
  link = .null ∨ ∃ url, link = .str url ∧ E.Absolute url

/-- An absolute link is followed as it is. -/
theorem FeedEnv.LinkOK.nextUrl {link : Json} (h : E.LinkOK link) (url : String) :
    (link = .null ∧ E.nextUrl url link = .ok none) ∨
      ∃ v, link = .str v ∧ E.nextUrl url link = .ok (some v) := by
  obtain rfl | ⟨v, rfl, scheme, hscheme, hne⟩ := h
  · exact .inl ⟨rfl, rfl⟩
  · refine .inr ⟨v, rfl, ?_⟩
    simp only [FeedEnv.nextUrl, hscheme]
    exact if_neg hne

theorem FeedSite.fetch_absolute {url : String} {fetched : FetchResult}
    (h : site.fetch url = .ok fetched) : E.Absolute url := by
  unfold fetch at h
  cases hl : site.pages.lookup url with
  | none => simp [hl] at h
  | some f =>
    obtain ⟨l₁, l₂, hpages, -⟩ := List.lookup_eq_some_iff.1 hl
    exact site.absolute (url, f) (by simp [hpages])

variable {σ R N : Type} {A : PageAdapter σ R N}

/-- What the fetch of a page gives. -/
theorem fetchPage_ok {url : String} {page : FetchResult × FeedPage} :
    (A.on site).fetchPage url = .ok page ↔
      site.fetch url = .ok page.1 ∧ E.parsePage page.1.content = .ok page.2 := by
  have heq : (A.on site).fetchPage url = site.fetch url >>= fun fetched =>
      E.parsePage fetched.content >>= fun page => pure (fetched, page) := rfl
  rw [heq]
  obtain ⟨fetched, page⟩ := page
  cases hf : site.fetch url with
  | error x => simp [bind, Except.bind]
  | ok f =>
    by_cases hfe : f = fetched
    · subst hfe
      cases hp : E.parsePage f.content <;> simp [hp, bind, Except.bind, pure, Except.pure]
    · cases hp : E.parsePage f.content <;> simp [hp, hfe, bind, Except.bind, pure, Except.pure]

theorem iterFeed_step {url : String} {fetched : FetchResult} {page : FeedPage}
    (hfetch : site.fetch url = .ok fetched) (hparse : E.parsePage fetched.content = .ok page)
    (fuel k : ℕ) : iterFeed E site.fetch none (fuel + 1) k (.str url) =
      ((url, fetched, page) :: (iterFeed E site.fetch none fuel (k + 1) page.nextLink).1,
        (iterFeed E site.fetch none fuel (k + 1) page.nextLink).2) := by
  simp [iterFeed, hfetch, hparse]

/-- **Along a walk of absolute links** the iterator yields what there is, and ends. -/
theorem iterFeed_walk {url : String} {l : List (String × FetchResult × FeedPage)}
    (h : ((A.on site).feed E).Walk url l) (hlinks : ∀ e ∈ l, E.LinkOK e.2.2.nextLink) {fuel : ℕ}
    (hfuel : l.length ≤ fuel) (k : ℕ) : iterFeed E site.fetch none fuel k (.str url) = (l, none) := by
  induction h generalizing fuel k with
  | @last url page hp hn =>
    obtain ⟨fuel, rfl⟩ := Nat.exists_eq_add_of_le' hfuel
    obtain ⟨hfetch, hparse⟩ := fetchPage_ok.1 hp
    rw [List.length_singleton, iterFeed_step hfetch hparse]
    obtain ⟨hnull, -⟩ | ⟨v, -, hv⟩ := (hlinks _ List.mem_cons_self).nextUrl url
    · rw [hnull]
      cases fuel <;> rfl
    · simp [PageAdapter.feed, hv] at hn
  | @more url page v l hp hn _ ih =>
    obtain ⟨fuel, rfl⟩ := Nat.exists_eq_add_of_le' hfuel
    obtain ⟨hfetch, hparse⟩ := fetchPage_ok.1 hp
    rw [List.length_cons, ← Nat.add_assoc, iterFeed_step hfetch hparse]
    obtain ⟨-, hnone⟩ | ⟨v', hlink, hv'⟩ := (hlinks _ List.mem_cons_self).nextUrl url
    · simp [PageAdapter.feed, hnone] at hn
    · obtain rfl : v' = v := by
        simpa [PageAdapter.feed, hv', eq_comm] using hn
      rw [hlink, ih (fun e he => hlinks e (List.mem_cons_of_mem _ he)) (Nat.le_add_left _ _)]

/-- **An iterator that ends** has met pages with absolute links only. -/
theorem iterFeed_links {fuel k : ℕ} {link : Json} {l : List (String × FetchResult × FeedPage)}
    (h : iterFeed E site.fetch none fuel k link = (l, none)) (hfuel : l.length < fuel) :
    E.LinkOK link ∧
      ∀ e ∈ l, (A.on site).fetchPage e.1 = .ok e.2 ∧ E.LinkOK e.2.2.nextLink := by
  induction fuel generalizing k link l with
  | zero => omega
  | succ fuel ih =>
    cases link with
    | null =>
      obtain ⟨rfl, -⟩ := Prod.mk.inj h
      exact ⟨.inl rfl, by simp⟩
    | str url =>
      cases hfetch : site.fetch url with
      | error x => simp [iterFeed, hfetch] at h
      | ok fetched =>
        cases hparse : E.parsePage fetched.content with
        | error x => simp [iterFeed, hfetch, hparse] at h
        | ok page =>
          rw [iterFeed_step hfetch hparse] at h
          obtain ⟨rfl, hrest⟩ := Prod.mk.inj h
          obtain ⟨hnext, hlinks⟩ := ih (Prod.ext rfl hrest) (Nat.lt_of_succ_lt_succ hfuel)
          exact ⟨.inr ⟨url, rfl, FeedSite.fetch_absolute hfetch⟩,
            List.forall_mem_cons.2 ⟨⟨fetchPage_ok.2 ⟨hfetch, hparse⟩, hnext⟩, hlinks⟩⟩
    | _ => simp [iterFeed] at h

/-- The iterator over the vote feed, with pages read as `votes` reads them, is this one. -/
theorem iterOdataPages_eq {fetch : String → Except PyError FetchResult} {pages : PageFetch}
    {votes : FeedPage → ODataPage}
    (hpages : ∀ url, pages url = fetch url >>= fun fetched => votes <$> E.parsePage fetched.content)
    (hlink : ∀ url fetched page, fetch url = .ok fetched → E.parsePage fetched.content = .ok page →
      page.nextLink = (votes page).nextLink.elim .null .str)
    (maxPages : Option ℕ) (fuel k : ℕ) (link : Option String) :
    iterOdataPages pages maxPages fuel k link =
      ((iterFeed E fetch maxPages fuel k (link.elim .null .str)).1.map
          fun e => (e.1, votes e.2.2),
        (iterFeed E fetch maxPages fuel k (link.elim .null .str)).2) := by
  induction fuel generalizing k link with
  | zero => rfl
  | succ fuel ih =>
    cases link with
    | none => rfl
    | some url =>
      have hpage := hpages url
      cases hfetch : fetch url with
      | error x =>
        rw [hfetch] at hpage
        simp [iterOdataPages, iterFeed, hfetch, hpage, bind, Except.bind]
      | ok fetched =>
        cases hparse : E.parsePage fetched.content with
        | error x =>
          have hpage : pages url = .error x := by rw [hpage, hfetch]; simp [bind, Except.bind, hparse]
          simp [iterOdataPages, iterFeed, hfetch, hparse, hpage]
        | ok page =>
          have hpage : pages url = .ok (votes page) := by
            rw [hpage, hfetch]; simp [bind, Except.bind, hparse]
          by_cases hmax : maxPages.any (· ≤ k + 1)
          · simp [iterOdataPages, iterFeed, hfetch, hparse, hpage, hmax]
          · simp [iterOdataPages, iterFeed, hfetch, hparse, hpage, hmax, ih,
              hlink url fetched page hfetch hparse]

end Iter

/-! ## Both -/

section Agree

variable {σ R N : Type} (E : FeedEnv) (site : FeedSite E) (A : PageAdapter σ R N)
  (adapter : Option String) (start : String) (s : σ) (stats : Dict Json)

/-- **The walkers agree**: they end, and meet each page that the links reach once, in one order.
The adapter has done to these pages what its callbacks do. -/
def WalkersAgree : Prop :=
  ∃ l : List (String × FetchResult × FeedPage),
    (l.map Prod.fst).Nodup ∧
    (∀ url, url ∈ l.map Prod.fst ↔ ((A.on site).feed E).Reaches start url) ∧
    (∃ r s', A.processPages {} l s = (.ok r, s') ∧ ∃ n, ∀ fuel ≥ n,
      runAdapter E (A.on site) adapter none fuel start s stats =
        some (.ok r, s', addStats stats (r.stats adapter))) ∧
    ∃ n, ∀ fuel ≥ n, iterFeed E site.fetch none fuel 0 (.str start) = (l, none)

theorem feed_finite : {url | ∃ page, ((A.on site).feed E).page url = .ok page}.Finite := by
  refine (List.finite_toSet (site.pages.map Prod.fst)).subset ?_
  rintro url ⟨page, hp⟩
  have hfetch := (fetchPage_ok.1 hp).1
  unfold FeedSite.fetch at hfetch
  cases hl : site.pages.lookup url with
  | none => simp [hl] at hfetch
  | some fetched =>
    obtain ⟨l₁, l₂, hpages, -⟩ := List.lookup_eq_some_iff.1 hl
    simp [hpages]

/-- **`run_adapter` ends normally** when it has been along the walk, and only then. -/
theorem runAdapter_ok_iff {r : AdapterResult} {s' : σ} {stats' : Dict Json} :
    (∃ n, ∀ fuel ≥ n, runAdapter E A adapter none fuel start s stats = some (.ok r, s', stats')) ↔
      ∃ l, (A.feed E).Walk start l ∧ A.processPages {} l s = (.ok r, s') ∧
        stats' = addStats stats (r.stats adapter) :=
  Eff.follow_reported_iff

/-- **When the walkers agree**: every URL that the links reach is that of a page without a link or
with an absolute one, no page leads back to itself, and the callbacks end normally on the pages. -/
theorem walkers_agree_iff : WalkersAgree E site A adapter start s stats ↔
    (∀ url, ((A.on site).feed E).Reaches start url →
      (∃ page, (A.on site).fetchPage url = .ok page ∧ E.LinkOK page.2.nextLink) ∧
        ¬TransGen ((A.on site).feed E).Leads url url) ∧
    ∀ l, ((A.on site).feed E).Walk start l → ∃ r s', A.processPages {} l s = (.ok r, s') := by
  constructor
  · rintro ⟨l, -, hreach, ⟨r, s', -, hrun⟩, n, hiter⟩
    obtain ⟨l', hwalk, hl', -⟩ := (runAdapter_ok_iff ..).1 hrun
    have hlinks := (iterFeed_links (A := A) (hiter (max n (l.length + 1)) (le_max_left ..))
      (lt_of_lt_of_le (Nat.lt_succ_self _) (le_max_right ..))).2
    refine ⟨fun url hurl => ⟨?_, ?_⟩, fun l₁ hwalk₁ => ?_⟩
    · obtain ⟨⟨url, page⟩, he, rfl⟩ := List.mem_map.1 ((hreach url).2 hurl)
      exact ⟨page, hlinks _ he⟩
    · obtain ⟨l₁, -, hwalk₁⟩ := hwalk.of_reaches hurl
      exact hwalk₁.not_cycle
    · rw [hwalk₁.unique hwalk]
      exact ⟨r, s', hl'⟩
  · rintro ⟨hpages, hcalls⟩
    have hsound : ∀ url, ((A.on site).feed E).Reaches start url →
        ((A.on site).feed E).Sound url ∧ ¬TransGen ((A.on site).feed E).Leads url url := by
      intro url hurl
      obtain ⟨⟨page, hp, hlink⟩, hcycle⟩ := hpages url hurl
      obtain ⟨-, hn⟩ | ⟨v, -, hn⟩ := hlink.nextUrl url
      · exact ⟨⟨page, none, hp, hn⟩, hcycle⟩
      · exact ⟨⟨page, some v, hp, hn⟩, hcycle⟩
    obtain ⟨l, hwalk⟩ := (Feed.exists_walk_iff (feed_finite E site A)).2 hsound
    obtain ⟨r, s', hl⟩ := hcalls l hwalk
    have hlinks : ∀ e ∈ l, E.LinkOK e.2.2.nextLink := by
      intro e he
      obtain ⟨⟨page, hp, hlink⟩, -⟩ := hpages e.1 (hwalk.mem_iff.1 (List.mem_map_of_mem he))
      obtain rfl : page = e.2 := Except.ok.inj (hp.symm.trans (hwalk.page_of_mem he))
      exact hlink
    refine ⟨l, hwalk.nodup, fun _ => hwalk.mem_iff, ⟨r, s', hl, ?_⟩, l.length, ?_⟩
    · exact (runAdapter_ok_iff ..).2 ⟨l, hwalk, hl, rfl⟩
    · exact fun fuel hfuel => iterFeed_walk hwalk hlinks hfuel 0

end Agree

/-! ### A relative link -/

/-- The first two pages of a feed, and what `urllib.parse` makes of their URLs. -/
def demoFeedEnv : FeedEnv where
  loads
    | [1] => .ok (.obj [("value", .list []), ("odata.nextLink", .str "KNS_Person?$skip=100")])
    | [2] => .ok (.obj [("value", .list [])])
    | _ => .error .valueError
  scheme link := .ok (if "https://".toList.isPrefixOf link.toList then "https" else "")
  urljoin base link :=
    .ok (String.ofList (base.toList.reverse.dropWhile (· ≠ '/')).reverse ++ link)

/-- The server of these pages. -/
def demoFeedSite : FeedSite demoFeedEnv where
  pages := [("https://knesset.gov.il/Odata/KNS_Person", ⟨[1], "application/json", none⟩),
    ("https://knesset.gov.il/Odata/KNS_Person?$skip=100", ⟨[2], "application/json", none⟩)]
  absolute e he := by
    refine ⟨"https", congrArg Except.ok (if_pos ?_), by decide⟩
    simp only [List.mem_cons, List.not_mem_nil, or_false] at he
    rcases he with rfl | rfl <;> decide

/-- An adapter that does nothing with its pages. -/
def demoPageAdapter : PageAdapter Unit Unit Unit where
  fetch _ := .error .external
  pageParser _ := .error .valueError
  archive := none
  parse _ := ([], none)
  normalize _ := ([], none)
  upsert _ := pure ()

/-- On a relative link `run_adapter` goes on, and the iterator raises. -/
theorem relative_link_raises :
    (∃ r stats, runAdapter demoFeedEnv (demoPageAdapter.on demoFeedSite) none none 2
        "https://knesset.gov.il/Odata/KNS_Person" () ∅ = some (.ok r, (), stats) ∧ r.pages = 2) ∧
      ¬WalkersAgree demoFeedEnv demoFeedSite demoPageAdapter none
        "https://knesset.gov.il/Odata/KNS_Person" () ∅ := by
  constructor
  · exact ⟨_, _, rfl, rfl⟩
  · rintro ⟨l, -, -, -, n, hiter⟩
    have hfetch : demoFeedSite.fetch "https://knesset.gov.il/Odata/KNS_Person" =
      .ok ⟨[1], "application/json", none⟩ := rfl
    have hparse : demoFeedEnv.parsePage [1] = .ok ⟨[], .str "KNS_Person?$skip=100", .null⟩ := rfl
    have hraise : iterFeed demoFeedEnv demoFeedSite.fetch none (n + 1) 1
        (.str "KNS_Person?$skip=100") = ([], some .external) := rfl
    have h := hiter (n + 2) (by omega)
    rw [iterFeed_step hfetch hparse, hraise] at h
    exact Option.some_ne_none _ (congrArg Prod.snd h)

end CivicProof
