import CivicProof.Spec.Archive
import CivicProof.Spec.Follow
import CivicProof.Spec.IngestRun
import CivicProof.Spec.VoteFeed

/-!
# Paged feeds

The two loops that follow the `nextLink` of OData pages: `run_adapter`, which archives, parses,
normalizes and upserts what it fetches, and `iter_odata_pages`. They share `parse_odata_page`.
-/

namespace CivicProof

/-! ## Pages -/

/-- `bool(x)`. -/
def Json.truthy : Json → Bool
  | .null => false
  | .bool b => b
  | .int n => n ≠ 0
  | .num q => q ≠ 0
  | .str s => s ≠ ""
  | .list l => !l.isEmpty
  | .obj fields => !fields.isEmpty

/-- `x or y`. -/
def Json.or (x y : Json) : Json := if x.truthy then x else y

/-- `ODataPage`. Its link and its count are what the payload holds, of any type. -/
structure FeedPage where
  value : List Json
  nextLink : Json
  totalCount : Json

/-- `parse_odata_page`, on what `json.loads` has made of the payload. -/
def feedPage : Json → Except PyError FeedPage
  | .obj data =>
    let get := fun key => (data.lookup key).getD .null
    if data.lookup "value" = none then .error .valueError
    else match (get "value").or (.list []) with
      | .list value => .ok
        ⟨value, (get "@odata.nextLink").or (get "odata.nextLink"),
          (get "@odata.count").or (get "odata.count")⟩
      | _ => .error .valueError
  | _ => .error .valueError

/-- What the walkers read from their surroundings: `json.loads`, and of `urllib.parse` the scheme
of a link and the link joined to the URL of a page. Each may raise. -/
structure FeedEnv where
  loads : List UInt8 → Except PyError Json
  scheme : String → Except PyError String
  urljoin : String → String → Except PyError String

namespace FeedEnv

variable (E : FeedEnv)

/-- `parse_odata_page`. -/
def parsePage (payload : List UInt8) : Except PyError FeedPage := E.loads payload >>= feedPage

/-- A link with a scheme. -/
def Absolute (link : String) : Prop := ∃ s, E.scheme link = .ok s ∧ s ≠ ""

/-- How `run_adapter` reads the link of the page at `url`. -/
def nextUrl (url : String) : Json → Except PyError (Option String)
  | .null => .ok none
  | .str link => do
    let scheme ← E.scheme link
    if scheme = "" then some <$> E.urljoin url link else .ok (some link)
  | link =>
    -- `urlparse` reads what is false as the empty link and takes nothing else
    if link.truthy then .error .typeError else .ok (some url)

end FeedEnv

/-- The pages of a server, each under an absolute URL. -/
structure FeedSite (E : FeedEnv) where
  pages : List (String × FetchResult)
  absolute : ∀ e ∈ pages, E.Absolute e.1

/-- A fetch from the server; a URL without a page has an error status, which raises. -/
def FeedSite.fetch {E : FeedEnv} (site : FeedSite E) (url : String) : Except PyError FetchResult :=
  (site.pages.lookup url).elim (.error .external) .ok

/-! ## `run_adapter` -/

/-- `AdapterResult`. -/
structure AdapterResult where
  pages : ℕ := 0
  rowsParsed : ℕ := 0
  rowsUpserted : ℕ := 0
  archiveUris : List ArchiveCoord := []

/-- The callbacks of an adapter. `parse` and `normalize` may be generators. -/
structure PageAdapter (σ R N : Type) where
  fetch : String → Except PyError FetchResult
  pageParser : List UInt8 → Except PyError FeedPage
  archive : Option (FetchResult → Eff σ (Option ArchiveRecord))
  parse : FeedPage → Yielded R
  normalize : R → Yielded N
  upsert : N → Eff σ Unit

/-- A `for` loop over a generator. -/
def Eff.forYielded {σ α β : Type} (f : β → α → Eff σ β) (b : β) (y : Yielded α) : Eff σ β := do
  let b ← Eff.forList f b y.1
  match y.2 with
  | none => return b
  | some e => Eff.raise e

namespace PageAdapter

variable {σ R N : Type} (A : PageAdapter σ R N)

/-- The archival of a page. -/
def archived (result : AdapterResult) (fetched : FetchResult) : Eff σ AdapterResult :=
  match A.archive with
  | none => return result
  | some archive => do
    match ← archive fetched with
    | none => return result
    | some record => return { result with archiveUris := result.archiveUris ++ [record.archiveUri] }

/-- The rows of a page: each is normalized, and what that gives is upserted. -/
def rows (result : AdapterResult) (page : FeedPage) : Eff σ AdapterResult :=
  Eff.forYielded (fun result row =>
    Eff.forYielded (fun result record => do
        A.upsert record
        return { result with rowsUpserted := result.rowsUpserted + 1 })
      { result with rowsParsed := result.rowsParsed + 1 } (A.normalize row))
    result (A.parse page)

/-- What is done with one page. -/
def processPage (result : AdapterResult) (page : String × FetchResult × FeedPage) :
    Eff σ AdapterResult := do
  let result ← A.archived result page.2.1
  let result ← A.rows result page.2.2
  return { result with pages := result.pages + 1 }

/-- The content at a URL, fetched and parsed. -/
def fetchPage (url : String) : Except PyError (FetchResult × FeedPage) := do
  let fetched ← A.fetch url
  return (fetched, ← A.pageParser fetched.content)

/-- The pages of `l`, one after the other. -/
def processPages (result : AdapterResult) (l : List (String × FetchResult × FeedPage)) :
    Eff σ AdapterResult :=
  Eff.forList A.processPage result l

/-- What the loop follows. -/
def feed (E : FeedEnv) : Paging.Feed String (FetchResult × FeedPage) PyError where
  page := A.fetchPage
  next url page := E.nextUrl url page.2.nextLink

/-- The adapter with the OData parser, on the pages of a server. -/
def on {E : FeedEnv} (site : FeedSite E) : PageAdapter σ R N :=
  { A with fetch := site.fetch, pageParser := E.parsePage }

end PageAdapter

/-- What an adapter reports of its run. -/
def AdapterResult.stats (result : AdapterResult) (adapter : Option String) : Dict Json :=
  Dict.ofList ([("pages", Json.int result.pages), ("rows_parsed", .int result.rowsParsed),
      ("rows_upserted", .int result.rowsUpserted),
      ("archive_uri_count", .int result.archiveUris.length)] ++
    (adapter.map fun name => ("adapter", Json.str name)).toList)

/-- `run_adapter`, for at most `fuel` pages, with the stats of the ingest run before and after. -/
def runAdapter {σ R N : Type} (E : FeedEnv) (A : PageAdapter σ R N) (adapter : Option String)
    (maxPages : Option ℕ) (fuel : ℕ) (sourceUrl : String) (s : σ) (stats : Dict Json) :
    Option (Except PyError AdapterResult × σ × Dict Json) :=
  -- the local `pages` is `result.pages`
  (Eff.follow (A.feed E) A.processPage (fun result => maxPages.any (· ≤ result.pages)) fuel
      sourceUrl {} s).map (reported stats fun result => result.stats adapter)

/-! ## `iter_odata_pages` -/

/-- `iter_odata_pages`, for at most `fuel` pages: what it yields, and what it raises. -/
def iterFeed (E : FeedEnv) (fetch : String → Except PyError FetchResult) (maxPages : Option ℕ) :
    ℕ → ℕ → Json → Yielded (String × FetchResult × FeedPage)
  | 0, _, _ => ([], none)
  | _ + 1, _, .null => ([], none)
  | fuel + 1, pages, .str url =>
    match fetch url with
    | .error e => ([], some e)
    | .ok fetched =>
      match E.parsePage fetched.content with
      | .error e => ([], some e)
      | .ok page =>
        let rest :=
          if maxPages.any (· ≤ pages + 1) then ([], none)
          else iterFeed E fetch maxPages fuel (pages + 1) page.nextLink
        ((url, fetched, page) :: rest.1, rest.2)
  -- the HTTP client takes a text only
  | _ + 1, _, _ => ([], some .typeError)

end CivicProof
