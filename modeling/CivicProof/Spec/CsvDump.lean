import CivicProof.Csv.Reader
import CivicProof.Spec.Evidence
import CivicProof.Spec.Normalize

/-!
# CSV dumps

The feeds that come as one CSV file: its bytes are decoded, its first row names the columns, and
each further row is a mapping from them. Over these, the parser of the committee membership dump,
and the lookup of MK ids, which is a dump as well.
-/

namespace CivicProof

open Csv

/-! ## Decoding -/

/-- What reading a dump raises: `UnicodeDecodeError`, or `csv.Error`. -/
inductive DumpError where
  | unicode
  | csv (e : CsvError)
  deriving DecidableEq, Repr

/-- A dump as it is passed on. -/
inductive DumpPayload where
  | bytes (content : List UInt8)
  | str (text : List Char)

/-- `codecs.BOM_UTF8`. -/
def bomUtf8 : List UInt8 := [0xEF, 0xBB, 0xBF]

/-- `bytes.decode('utf-8')`. -/
def decodeUtf8Strict (bytes : List UInt8) : Except DumpError (List Char) :=
  match bytes.toByteArray.utf8Decode? with
  | some chars => .ok chars.toList
  | none => .error .unicode

/-- `bytes.decode('utf-8-sig')`. -/
def decodeUtf8Sig (bytes : List UInt8) : Except DumpError (List Char) :=
  decodeUtf8Strict (if bomUtf8 <+: bytes then bytes.drop bomUtf8.length else bytes)

/-- The text of a payload. -/
def DumpPayload.decode : DumpPayload → Except DumpError (List Char)
  | .bytes content => decodeUtf8Sig content
  | .str text => .ok text

/-! ## `csv.DictReader` -/

/-- A row of a `DictReader`: its cells by column, `None` where the row is short, and what stands
under the key `None`, where it is long. -/
structure DictRow where
  cells : Dict (Option String)
  rest : Option (List String) := none

/-- `row.get(key)`. -/
def DictRow.get (row : DictRow) (key : String) : Option String := (row.cells.lookup key).join

/-- `dict(items)`, onto a mapping that is there: of two items with one key the later stays. -/
def Dict.updated {α : Type} (d : Dict α) (items : List (String × α)) : Dict α :=
  items.foldl (fun d item => d.insert item.1 item.2) d

/-- `DictReader.__next__`, on a row that is not blank. -/
def dictRow (fieldnames row : List String) : DictRow where
  cells := (Dict.updated ∅ (fieldnames.zip (row.map some))).updated
    ((fieldnames.drop row.length).map fun key => (key, none))
  rest := if fieldnames.length < row.length then some (row.drop fieldnames.length) else none

/-- The rows of a `DictReader`. Blank lines are skipped, except that the first line names the
columns even if it is blank. -/
def dictRows : List (List String) → List DictRow
  | [] => []
  | fieldnames :: rows => (rows.filter (· ≠ [])).map (dictRow fieldnames)

/-- `list(csv.DictReader(io.StringIO(text)))`. -/
def readDicts (text : List Char) : Except DumpError (List DictRow) :=
  match read excel text with
  | .ok rows => .ok (dictRows (rows.map fun row => row.map String.ofList))
  | .error e => .error (.csv e)

/-- `ODataPage` of a dump: it has no next link. -/
structure DumpPage where
  value : List DictRow
  totalCount : ℕ

/-- `parse_csv_page`. -/
def parseCsvPage (payload : DumpPayload) : Except DumpError DumpPage := do
  let value ← readDicts (← payload.decode)
  return { value, totalCount := value.length }

/-! ## The MK lookup -/

/-- `(row.get(key) or "").strip()`. -/
def DictRow.stripped (row : DictRow) (key : String) : String := strip ((row.get key).getD "")

/-- One turn of `_parse_csv`. -/
def addMkIndividual (out : Dict String) (row : DictRow) : Dict String :=
  let mkId := row.stripped "mk_individual_id"
  let personId := row.stripped "PersonID"
  if mkId = "" ∨ personId = "" then out else out.insert mkId personId

/-- `_parse_csv`, over the rows: of two rows with one id the later stays. -/
def mkIndividuals (rows : List DictRow) : Dict String := rows.foldl addMkIndividual ∅

/-- `load_mk_individual_lookup`, on a payload. -/
def loadMkIndividualLookup (payload : DumpPayload) : Except DumpError (Dict String) := do
  return mkIndividuals (← readDicts (← payload.decode))

/-! ## Committee memberships -/

/-- A row as `parse_committee_memberships` yields it, with the fields the normalizer does not use
for what is upserted. -/
structure MembershipDumpRow extends MembershipRow where
  positionId : Option String := none
  positionName : Option String := none
  knesset : Option String := none

/-- `(row.get(key) or "").strip() or None`. -/
def DictRow.strippedOrNone (row : DictRow) (key : String) : Option String :=
  orNone (some (row.stripped key))

/-- `parse_committee_memberships`, for one row. -/
def parseCommitteeMembership (row : DictRow) : Option MembershipDumpRow :=
  let mkId := row.stripped "mk_individual_id"
  let committeeId := row.stripped "committee_id"
  if mkId = "" ∨ committeeId = "" then none
  else some
    { mkIndividualId := mkId
      committeeIdExternal := committeeId
      committeeName := row.strippedOrNone "committee_name"
      startDate := row.strippedOrNone "start_date"
      finishDate := row.strippedOrNone "finish_date"
      positionId := orNone (row.get "position_id")
      positionName := row.strippedOrNone "position_name"
      knesset := orNone (row.get "knesset") }

/-- `parse_committee_memberships`. -/
def parseCommitteeMemberships (page : DumpPage) : List MembershipDumpRow :=
  page.value.filterMap parseCommitteeMembership

/-- What the committee membership CLI upserts: the lookup dump is loaded first, then the one page
of the feed is parsed and its rows are normalized. -/
def committeeMembershipRecords (E : IngestEnv) (lookupPayload payload : DumpPayload) :
    Except DumpError (List NormalizedCommitteeMembership) := do
  let lookup ← loadMkIndividualLookup lookupPayload
  let page ← parseCsvPage payload
  return (parseCommitteeMemberships page).flatMap fun row =>
    normalizeCommitteeMembership { E with lookup := fun mkId => lookup.lookup mkId } row.toMembershipRow

end CivicProof
