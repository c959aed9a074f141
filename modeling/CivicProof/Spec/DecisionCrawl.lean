import CivicProof.Paging.Offset
import CivicProof.Spec.Adapters
import CivicProof.Spec.Follow
import CivicProof.Spec.IngestRun

/-!
# The crawl of the government decisions

`python -m civic_ingest_gov_decisions run`: pages of search results by offset, of which
`parse_response` keeps the formal decisions.
-/

namespace CivicProof

open Paging

/-! ## Search results -/

/-- The `source` of a search result; a field that is missing or null is `none`. -/
structure BudgetKeySource where
  id : Option String := none
  procedureNumberStr : Option String := none
  government : Option String := none
  publishDate : Option String := none
  title : Option String := none
  text : Option String := none
  office : Option String := none
  policyType : Option String := none

/-- `_is_formal_decision`. -/
def isFormalDecision (source : BudgetKeySource) : Bool :=
  decide ("החלטות".toList <:+: ((orNone source.policyType).getD "").toList)

/-- `_source_to_row`. -/
def sourceToRow (source : BudgetKeySource) : Option BudgetKeyDecisionRow := do
  let budgetkeyId ← orNone source.id
  let title ← orNone (some (strip ((orNone source.title).getD "")))
  return { budgetkeyId
           procedureNumberStr := orNone source.procedureNumberStr
           governmentRaw := orNone source.government
           publishDate := orNone source.publishDate
           title
           text := orNone source.text
           office := orNone source.office }

/-- What `parse_response` makes of one search result, which may lack a source. -/
def parseHit (hit : Option BudgetKeySource) : Option BudgetKeyDecisionRow :=
  let source := hit.getD {}
  if isFormalDecision source then sourceToRow source else none

/-- `parse_response`, on the `search_results`. -/
def parseResponse (results : List (Option BudgetKeySource)) : List BudgetKeyDecisionRow :=
  results.filterMap parseHit

/-! ## The crawl -/

/-- `_BASE_URL`. -/
def decisionBaseUrl : String := "https://next.obudget.org/search/gov_decisions"

/-- `_QUERY`. -/
def decisionQuery : String := "החלטה+מספר"

/-- `_PAGE_SIZE`. -/
def decisionPageSize : ℕ := 50

/-- The URL of the page at an offset. -/
def decisionUrl (offset : ℕ) : String :=
  decisionBaseUrl ++ "?q=" ++ decisionQuery ++ "&size=" ++ toString decisionPageSize ++ "&from=" ++
    toString offset

/-- What the crawl follows: the offsets of the result list of the server, to the first page of
which `parse_response` keeps fewer than `_PAGE_SIZE` rows. -/
def decisionFeed (results : List (Option BudgetKeySource)) :
    Feed ℕ (List (Option BudgetKeySource)) PyError :=
  offsetFeed PyError parseHit decisionPageSize results

/-- The stores that the crawl writes to: `archive_payload` with the URL and the results of a page,
and `upsert_government_decision`. -/
structure DecisionStores (σ : Type) where
  archive : String → List (Option BudgetKeySource) → Eff σ Unit
  upsert : NormalizedGovernmentDecision → Eff σ Unit

/-- The counts of the crawl. Of `rows_upserted` it keeps what has been handed to `upsert_fn`. -/
structure DecisionCrawl where
  pagesFetched : ℕ := 0
  rowsParsed : ℕ := 0
  upserted : List NormalizedGovernmentDecision := []

section Crawl

variable {σ : Type} (E : IngestEnv) (S : DecisionStores σ) (dryRun : Bool)

/-- What a dry run leaves out. -/
def unlessDry (x : Eff σ Unit) : Eff σ Unit := if dryRun then pure () else x

/-- One decision is handed to `upsert_fn`. -/
def upsertDecision (crawl : DecisionCrawl) (d : NormalizedGovernmentDecision) :
    Eff σ DecisionCrawl := do
  unlessDry dryRun (S.upsert d)
  return { crawl with upserted := crawl.upserted ++ [d] }

/-- What is done with one page. -/
def crawlPage (crawl : DecisionCrawl) (page : ℕ × List (Option BudgetKeySource)) :
    Eff σ DecisionCrawl := do
  unlessDry dryRun (S.archive (decisionUrl page.1) page.2)
  let rows := parseResponse page.2
  Eff.forList (upsertDecision S dryRun)
    { crawl with
      pagesFetched := crawl.pagesFetched + 1
      rowsParsed := crawl.rowsParsed + rows.length }
    (rows.map (normalizeDecision E))

/-- What the crawl reports. -/
def DecisionCrawl.stats (crawl : DecisionCrawl) (adapter : String) : Dict Json :=
  Dict.ofList [("adapter", Json.str adapter), ("pages", .int crawl.pagesFetched),
    ("rows_parsed", .int crawl.rowsParsed), ("rows_upserted", .int crawl.upserted.length)]

/-- `_run` within its ingest run, for at most `fuel` pages. -/
def crawlDecisions (adapter : String) (maxPages : Option ℕ)
    (results : List (Option BudgetKeySource)) (fuel : ℕ) (s : σ) (stats : Dict Json) :
    Option (Except PyError DecisionCrawl × σ × Dict Json) :=
  -- `max_pages` is looked at before each page, which is before the first and after each
  let body := if maxPages.any (· ≤ 0) then some (.ok {}, s)
    else Eff.follow (decisionFeed results) (crawlPage E S dryRun)
      (fun crawl => maxPages.any (· ≤ crawl.pagesFetched)) fuel 0 {} s
  body.map (reported stats fun crawl => crawl.stats adapter)

end Crawl

end CivicProof
