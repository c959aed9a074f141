import CivicProof.Spec.Schema

/-!
# The enrichment of vote events

`scripts/enrich_vote_bills.py`: it pages through the `KNS_Vote` feed and links each vote event to
its bill. It imports the page iterator from a package that does not bind it, and calls it with
arguments that do not fit: calls bind theirs to a signature as Python does (`Signature.bind`).

`Built`: the graphs that the adapters and the script write, crashes included.

* `enrichVoteBills_eq`: the script raises before it fetches a page.
* `Built.linksOK`: what no such graph links.
-/

namespace CivicProof

open PropGraph Cypher

/-! ## Calls -/

/-- A Python signature: the parameters passed by position or by name, those passed by name
only, and those without a default. -/
structure Signature where
  positional : List String
  keywordOnly : List String
  required : List String

/-- The arguments of a call, by parameter. Too many positional arguments, an unknown or a
repeated name, or a missing parameter raise `TypeError`. -/
def Signature.bind {α : Type} (sig : Signature) (args : List α) (kwargs : List (String × α)) :
    Except PyError (List (String × α)) :=
  let bound := sig.positional.zip args ++ kwargs
  let names := bound.map (·.1)
  if args.length ≤ sig.positional.length ∧ names ⊆ sig.positional ++ sig.keywordOnly ∧
      names.Nodup ∧ sig.required ⊆ names then
    .ok bound
  else .error .typeError

/-! ## The page iterator -/

/-- A row of `KNS_Vote`. -/
structure KnsVoteRow where
  voteId : Option ℤ
  billId : Option ℤ
  startDate : Option String := none
  voteType : Option String := none

/-- `ODataPage`. -/
structure ODataPage where
  value : List KnsVoteRow
  nextLink : Option String

/-- What fetching a URL and parsing its content gives. -/
abbrev PageFetch := String → Except PyError ODataPage

/-- What a generator yields, and what it raises in the end. -/
abbrev Yielded (α : Type) := List α × Option PyError

/-- The arguments of `iter_odata_pages`. -/
inductive PageArg where
  | url (s : String)
  | fetch (f : PageFetch)
  | maxPages (n : ℕ)

/-- `iter_odata_pages(start_url, *, fetch, max_pages=None)`. -/
def iterOdataPagesSignature : Signature where
  positional := ["start_url"]
  keywordOnly := ["fetch", "max_pages"]
  required := ["start_url", "fetch"]

/-- The body of `iter_odata_pages`, for at most `fuel` pages. -/
def iterOdataPages (fetch : PageFetch) (maxPages : Option ℕ) :
    ℕ → ℕ → Option String → Yielded (String × ODataPage)
  | 0, _, _ => ([], none)
  | _ + 1, _, none => ([], none)
  | fuel + 1, pages, some url =>
    match fetch url with
    | .error e => ([], some e)
    | .ok page =>
      let rest :=
        if maxPages.any (· ≤ pages + 1) then ([], none)
        else iterOdataPages fetch maxPages fuel (pages + 1) page.nextLink
      ((url, page) :: rest.1, rest.2)

/-- A call of `iter_odata_pages`: the arguments are bound before anything is iterated. -/
def callIterOdataPages (fuel : ℕ) (args : List PageArg) (kwargs : List (String × PageArg)) :
    Except PyError (Yielded (String × ODataPage)) := do
  let bound ← iterOdataPagesSignature.bind args kwargs
  match bound.lookup "start_url", bound.lookup "fetch", bound.lookup "max_pages" with
  | some (.url url), some (.fetch fetch), none =>
    return iterOdataPages fetch none fuel 0 (some url)
  | some (.url url), some (.fetch fetch), some (.maxPages n) =>
    return iterOdataPages fetch (some n) fuel 0 (some url)
  -- an argument of another type raises when it is used
  | _, _, _ => return ([], some .typeError)

/-- What a caller may hand to `parse_odata_page`. -/
inductive PagePayload where
  | content (parsed : Except PyError ODataPage)
  | tuple (url : String) (page : ODataPage)

/-- `parse_odata_page`. -/
def parseOdataPage : PagePayload → Except PyError ODataPage
  | .content parsed => parsed
  -- `json.loads` takes neither a tuple
  | .tuple _ _ => .error .typeError

/-! ## The script -/

/-- The names that `civic_ingest/__init__.py` binds. -/
def civicIngestNames : List String :=
  ["AdapterResult", "run_adapter", "parse_csv_page", "SourceManifest", "load_manifest",
    "load_all_manifests", "LookupUnresolved", "MkIndividualLookup", "load_mk_individual_lookup",
    "ODataPage", "parse_odata_page", "IngestRun", "Job", "claim_one", "enqueue", "mark_done",
    "mark_failed"]

/-- Its modules, which an import finds too. -/
def civicIngestModules : List String :=
  ["adapter", "csv_page", "handlers", "manifest", "mk_individual_lookup", "odata", "orchestrator",
    "queue"]

/-- `from civic_ingest import ...`. -/
def importCivicIngest (names : List String) : Except PyError Unit :=
  if names ⊆ civicIngestNames ++ civicIngestModules then .ok () else .error .importError

/-- The loop of `_parse_odata_pages` over what the iterator yields. -/
def parseYielded (maxPages : Option ℕ) : ℕ → List (String × ODataPage) → Yielded KnsVoteRow
  | _, [] => ([], none)
  | pageNum, (url, page) :: rest =>
    match parseOdataPage (.tuple url page) with
    | .error e => ([], some e)
    | .ok parsed =>
      let tail :=
        if maxPages.any fun m => m ≠ 0 ∧ m ≤ pageNum then ([], none)
        else parseYielded maxPages (pageNum + 1) rest
      (parsed.value ++ tail.1, tail.2)

/-- `_parse_odata_pages`. -/
def parseOdataPages (fuel : ℕ) (fetch : PageFetch) (url : String) (maxPages : Option ℕ) :
    Yielded KnsVoteRow :=
  match importCivicIngest ["iter_odata_pages", "parse_odata_page"] with
  | .error e => ([], some e)
  | .ok () =>
    -- both arguments are passed by position
    match callIterOdataPages fuel [.fetch fetch, .url url] [] with
    | .error e => ([], some e)
    | .ok yielded =>
      let rows := parseYielded maxPages 1 yielded.1
      (rows.1, rows.2.or yielded.2)

/-- `KNS_VOTE_URL`. -/
def knsVoteUrl : String :=
  "https://knesset.gov.il/OdataV4/ParliamentInfo.svc/KNS_Vote" ++
    "?$select=VoteID,BillID,StartDate,VoteType" ++ "&$orderby=VoteID desc"

/-- An id that is neither null nor zero. -/
def presentId (n : Option ℤ) : Option ℤ := n.filter (· ≠ 0)

/-- The statement the script runs for a row. -/
def voteBillStatement (T : CypherTime) (E : IngestEnv) (row : KnsVoteRow) : Option CivicStmt := do
  let voteId ← presentId row.voteId
  let billId ← presentId row.billId
  return voteEventAboutBill T (extUuid E "knesset_vote" (toString voteId))
    (extUuid E "knesset_bill" (toString billId)) row.startDate row.voteType

/-- `main` of the script, for at most `fuel` pages: the graph it leaves and what it raises. -/
def enrichVoteBills (T : CypherTime) (E : IngestEnv) (fuel : ℕ) (fetch : PageFetch)
    (maxPages : Option ℕ) (dryRun : Bool) (now : ℕ → ℤ) (g : CivicGraph) :
    CivicGraph × Option PyError :=
  let rows := parseOdataPages fuel fetch knsVoteUrl maxPages
  (if dryRun then g else run now (rows.1.filterMap (voteBillStatement T E)) g, rows.2)

variable {T : CypherTime} {E : IngestEnv}

/-- **The script raises before it fetches a page**: the package does not bind the iterator that it
imports. -/
theorem enrichVoteBills_eq (fuel : ℕ) (fetch : PageFetch) (maxPages : Option ℕ) (dryRun : Bool)
    (now : ℕ → ℤ) (g : CivicGraph) :
    enrichVoteBills T E fuel fetch maxPages dryRun now g = (g, some .importError) := by
  have himport : importCivicIngest ["iter_odata_pages", "parse_odata_page"] =
      .error .importError := if_neg (by decide)
  unfold enrichVoteBills parseOdataPages
  rw [himport]
  cases dryRun <;> rfl

/-! ## The graphs of the ingestion -/

/-- The graphs that the adapters and the script build, from none. A crash may cut a record's
statements short. -/
inductive Built (T : CypherTime) (E : IngestEnv) : CivicGraph → Prop where
  | empty : Built T E ∅
  | upsert {g : CivicGraph} (h : Built T E g) {r : IngestRecord} (hr : r.Normalized E)
      (iso : String) (now : ℕ → ℤ) {p : List CivicStmt} (hp : p <+: r.statements T iso) :
      Built T E (run now p g)
  | enrich {g : CivicGraph} (h : Built T E g) (fuel : ℕ) (fetch : PageFetch)
      (maxPages : Option ℕ) (dryRun : Bool) (now : ℕ → ℤ) :
      Built T E (enrichVoteBills T E fuel fetch maxPages dryRun now g).1

/-- Every relationship joins the labels of its type, and none ties a vote event to a bill. -/
def LinksOK (g : CivicGraph) : Prop :=
  ∀ k ∈ g.rels, k.1.ends = some (k.2.1.1, k.2.2.1) ∧ k.1 ≠ .aboutBill

theorem LinksOK.after {g : CivicGraph} (hg : LinksOK g) {u : List CivicStmt} (hu : SelfContained u)
    (hlinks : ∀ s ∈ u, ∀ k, s.Links k → k.1.ends = some (k.2.1.1, k.2.2.1) ∧ k.1 ≠ .aboutBill)
    (now : ℕ → ℤ) : LinksOK (run now u g) := by
  intro k hk
  rcases mem_run_ingest hu hk with hk | ⟨s, hs, hl⟩
  · exact hg k hk
  · exact hlinks s hs k hl

theorem aboutBill_notMem_linkTypes (r : IngestRecord) : RelType.aboutBill ∉ r.linkTypes := by
  cases r <;> simp [IngestRecord.linkTypes]

theorem IngestRecord.Normalized.linksOK {r : IngestRecord} (h : r.Normalized E) {iso : String}
    {s : CivicStmt} (hs : s ∈ r.statements T iso) {k : RelKey} (hk : s.Links k) :
    k.1.ends = some (k.2.1.1, k.2.2.1) ∧ k.1 ≠ .aboutBill := by
  obtain ⟨htype, hends⟩ := h.links hs hk
  exact ⟨hends, fun he => aboutBill_notMem_linkTypes r (he ▸ htype)⟩

/-- **No graph of the ingestion links a vote event to a bill.** -/
theorem Built.linksOK {g : CivicGraph} (h : Built T E g) : LinksOK g := by
  induction h with
  | empty => exact fun _ hk => absurd hk Finmap.notMem_empty
  | @upsert g h r hr iso now p hp ih =>
    obtain ⟨v, hv⟩ := hp
    have hself : SelfContained (p ++ v) := hv ▸ hr.selfContained iso
    refine ih.after ⟨hself.closed.of_append, fun s hs => ?_⟩ (fun s hs k hk => ?_) now
    · exact hself.regular s (List.mem_append_left v hs)
    · exact hr.linksOK (hv ▸ List.mem_append_left v hs) hk
  | enrich h fuel fetch maxPages dryRun now ih =>
    rw [enrichVoteBills_eq]
    exact ih

end CivicProof
