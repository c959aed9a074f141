import CivicProof.Spec.Normalize
import Mathlib.Data.List.Infix
import Mathlib.Data.Rat.Floor

/-!
# Election results pages

The parser of the committee's results page and the normalizer over all its rows. The totals are
read by their positions in the summary table, the lists from the body of the results table.
-/

namespace CivicProof

open Regex Re

/-! ## The patterns -/

/-- A literal of a page. -/
def markup (s : String) : Re Unit := lit (charEq false) s

/-- `.*?`, over lines. -/
def anyText : Re Unit := .rep (fun _ => true) 0 none false

/-- `\s*`. -/
def blanks : Re Unit := .rep isSpace 0 none true

/-- `[^>]*`. -/
def attributes : Re Unit := .rep (· != '>') 0 none true

/-- `_SUMMARY_TABLE`. -/
def summaryTable : Re Unit :=
  cat [markup "class=\"ResultsSummaryTable\"", anyText, markup "<tr>", blanks, markup "<th", anyText,
    markup "</tr>", blanks, markup "<tr>", .group () anyText, markup "</tr>"]

/-- `[\d,\.%]`. -/
def isNumberMark (c : Char) : Bool := isDigit c || c == ',' || c == '.' || c == '%'

/-- `_CELL_NUMBERS`. -/
def cellNumbers : Re Unit :=
  cat [markup "<td", attributes, markup ">", blanks, .group () (.rep isNumberMark 1 none true), blanks,
    markup "</td>"]

/-- `_TBODY`. -/
def tbodyPattern : Re Unit := cat [markup "<tbody>", .group () anyText, markup "</tbody>"]

/-- `_TR_SPLIT`. -/
def trSplit : Re Unit := markup "<tr>"

/-- `_ALL_TD`. -/
def allTd : Re Unit :=
  cat [markup "<td", attributes, markup ">", .group () anyText, markup "</td>"]

/-- `[\d,]`. -/
def isVotesMark (c : Char) : Bool := isDigit c || c == ','

/-- `_FLOAT_DIR`. -/
def floatDir : Re Unit :=
  cat [markup "class=\"FloatDir\">", blanks, .group () (.rep isVotesMark 1 none true), blanks, markup "<"]

/-- `_TAG_STRIP`. -/
def tagStrip : Re Unit := cat [markup "<", .rep (· != '>') 1 none true, markup ">"]

/-! ## The parser -/

/-- `_strip_tags`. -/
def stripTags (html : List Char) : String := strip (String.ofList (tagStrip.erase html))

/-- `text.replace(mark, '')` for each of the marks. -/
def dropMarks (marks text : List Char) : String := String.ofList (text.filter (· ∉ marks))

/-- The totals of a page. -/
structure SummaryTotals where
  eligibleVoters : ℤ := 0
  votesCast : ℤ := 0
  validVotes : ℤ := 0
  invalidVotes : ℤ := 0

/-- `int(nums[i]) if len(nums) > i else 0`; `none` where it raises `ValueError`. -/
def numberAt (nums : List String) (i : ℕ) : Option ℤ := (nums[i]?).elim (some 0) parseIntLimited

/-- The columns: eligible, cast, turnout, valid, invalid. From the first one that is no number, the
totals keep their zeros. -/
def readTotals (nums : List String) : SummaryTotals :=
  match numberAt nums 0 with
  | none => {}
  | some eligibleVoters =>
    match numberAt nums 1 with
    | none => { eligibleVoters }
    | some votesCast =>
      match numberAt nums 3 with
      | none => { eligibleVoters, votesCast }
      | some validVotes =>
        match numberAt nums 4 with
        | none => { eligibleVoters, votesCast, validVotes }
        | some invalidVotes => { eligibleVoters, votesCast, validVotes, invalidVotes }

/-- The numbers in the cells of the summary row. -/
def summaryNumbers (row : List Char) : List String :=
  (cellNumbers.findall () row).map (dropMarks [',', '%'])

/-- The summary totals of a page. -/
def summaryTotals (content : List Char) : SummaryTotals :=
  match summaryTable.search content with
  | some m => readTotals (summaryNumbers (m.text ()))
  | none => {}

/-- The votes in the last cell of a list; `none` where `int` raises `ValueError`. -/
def cellVotes (cell : List Char) : Option ℤ :=
  match floatDir.search cell with
  | some m => parseIntLimited (dropMarks [','] (m.text ()))
  | none => some 0

/-- One `<tr>` of the results table: its row, or nothing where it is skipped; `none` where `int`
raises `ValueError`. -/
def parseChunk (chunk : List Char) : Option (Option ParsedElectionRow) :=
  if ¬"scope=\"row\"".toList <:+: chunk then some none
  else
    match allTd.findall () chunk with
    | nameCell :: lettersCell :: seatsCell :: shareCell :: more =>
      let listName := stripTags nameCell
      if listName = "" then some none
      else
        match parseIntLimited (stripTags seatsCell) with
        | none => some none
        | some seatsWon =>
          (cellVotes (more.getLastD shareCell)).map fun votes =>
            some { listName, ballotLetters := stripTags lettersCell, seatsWon,
                   voteSharePct := stripTags shareCell, votes }
    | _ => some none

/-- `_parse_tbody`. -/
def parseTbody (tbodyHtml : List Char) : Option (List ParsedElectionRow) :=
  ((trSplit.split tbodyHtml).mapM parseChunk).map List.reduceOption

/-- The rows of a page: those of its first table body. -/
def pageRows (content : List Char) : Option (List ParsedElectionRow) :=
  match tbodyPattern.search content with
  | some m => parseTbody (m.text ())
  | none => some []

/-- `ParsedElectionPage`, with its other totals and its rows. -/
structure ParsedResultsPage extends ParsedElectionPage where
  totalVotesCast : ℤ
  totalInvalidVotes : ℤ
  eligibleVoters : ℤ
  rows : List ParsedElectionRow

/-- `parse_election_page`; `none` where it raises `ValueError`. -/
def parseElectionPage (htmlBytes : List UInt8) (knessetNumber : ℕ) (electionDate : String) :
    Option ParsedResultsPage :=
  let content := decodeUtf8 htmlBytes
  let totals := summaryTotals content
  (pageRows content).map fun rows =>
    { knessetNumber, electionDate
      totalValidVotes := totals.validVotes
      totalVotesCast := totals.votesCast
      totalInvalidVotes := totals.invalidVotes
      eligibleVoters := totals.eligibleVoters
      rows }

/-! ## The normalizer over a page -/

/-- `normalize_page`; `none` where it raises `KeyError`. -/
def normalizePage (E : IngestEnv) (page : ParsedResultsPage) :
    Option (List NormalizedElectionResult) :=
  (page.rows.mapM fun row => normalizeElectionResult E row page.toParsedElectionPage).map List.flatten

/-- The environment with the threshold rule 3.25% exact. -/
def IngestEnv.exactThreshold (E : IngestEnv) : IngestEnv :=
  { E with thresholdVotes := fun total => ⌈(total : ℚ) * (325 / 10000)⌉ }

end CivicProof
