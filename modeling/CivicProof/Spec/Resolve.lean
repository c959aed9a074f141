import CivicProof.Spec.Decompose
import CivicProof.Spec.Effects
import CivicProof.Spec.Temporal

/-!
# Entity resolution

The six-step ladder of the entity resolver (`resolve`), and `LiveEntityResolver`, which
runs it on every entity slot of a claim and falls back to a substring search. The graph,
the alias table and the similarity functions are parameters; any call to them may raise.
-/

namespace CivicProof

/-! ## Names and ids -/

/-- `normalize_hebrew`: niqqud and cantillation marks dropped, NFC, whitespace collapsed. -/
def normalizeHebrew (U : Unicode) (text : String) : String :=
  if text = "" then "" else
  let stripped := text.toList.filter fun ch => !(0x591 ≤ ch.toNat && ch.toNat ≤ 0x5C7)
  let words := (U.nfc (String.ofList stripped)).toList.splitOnP isSpace
  joinWith " " ((words.filter (· ≠ [])).map String.ofList)

/-- `_HEBREW_TO_LATIN`. -/
def hebrewToLatin : List (Char × String) :=
  [('א', "a"), ('ב', "b"), ('ג', "g"), ('ד', "d"), ('ה', "h"), ('ו', "v"), ('ז', "z"),
    ('ח', "ch"), ('ט', "t"), ('י', "y"), ('כ', "k"), ('ך', "k"), ('ל', "l"), ('מ', "m"),
    ('ם', "m"), ('נ', "n"), ('ן', "n"), ('ס', "s"), ('ע', "a"), ('פ', "p"), ('ף', "f"),
    ('צ', "tz"), ('ץ', "tz"), ('ק', "k"), ('ר', "r"), ('ש', "sh"), ('ת', "t")]

/-- `transliterate_hebrew`. -/
def transliterateHebrew (U : Unicode) (text : String) : String :=
  U.lower (strip (String.join ((normalizeHebrew U text).toList.map fun ch =>
    (hebrewToLatin.lookup ch).getD (String.singleton ch))))

/-- A lower-case hexadecimal digit. -/
def isHexDigit (c : Char) : Bool := c.isDigit || (decide ('a' ≤ c) && decide (c ≤ 'f'))

/-- A UUID, as its 32 lower-case hexadecimal digits. -/
structure Uuid where
  hex : List Char
  wf : hex.length = 32 ∧ hex.all isHexDigit = true
  deriving DecidableEq

/-- `text.replace(needle, '')`; `skip` characters are left of an occurrence. -/
def eraseAll (needle : List Char) : ℕ → List Char → List Char
  | _, [] => []
  | skip + 1, _ :: cs => eraseAll needle skip cs
  | 0, c :: cs =>
    if needle.isPrefixOf (c :: cs) then eraseAll needle (needle.length - 1) cs
    else c :: eraseAll needle 0 cs

/-- A digit of `int(·, 16)`, in lower-case ASCII. -/
def hexDigit (c : Char) : Option Char :=
  match digitValue c with
  | some d => some (Char.ofNat (0x30 + d))
  | none => if isHexDigit c.toLower then some c.toLower else none

/-- The digits of an `int` literal in base 16, as `digitsToNat` takes them. -/
def hexDigits : Bool → List Char → Option (List Char)
  | prev, [] => if prev then some [] else none
  | prev, c :: cs =>
    if c = '_' then (if prev then hexDigits false cs else none)
    else match hexDigit c with
      | some d => (hexDigits true cs).map (d :: ·)
      | none => none

/-- White space to `int`: the separators of ASCII are none. -/
def isIntSpace (c : Char) : Bool := isSpace c && !(0x1C ≤ c.toNat && c.toNat ≤ 0x1F)

/-- A literal without its `+`. -/
def dropSign : List Char → List Char
  | '+' :: cs => cs
  | cs => cs

/-- A literal in base 16 without its `0x`, which an underscore may follow. -/
def dropRadix : List Char → List Char
  | zero :: x :: cs =>
    if digitValue zero = some 0 ∧ x.toLower = 'x' then
      if cs.head? = some '_' then cs.tail else cs
    else zero :: x :: cs
  | cs => cs

/-- The digits that `int(text, 16)` reads in a text without `-`; `none` where it raises
`ValueError`. -/
def hexLiteral (text : List Char) : Option (List Char) :=
  hexDigits false (dropRadix (dropSign ((text.dropWhile isIntSpace).rdropWhile isIntSpace)))

/-- `uuid.UUID(s)`: the prefixes of a URN, braces and hyphens go, and what is left is a literal of
32 characters; `none` where it raises `ValueError`. -/
def Uuid.parse (s : String) : Option Uuid :=
  let bare := eraseAll "uuid:".toList 0 (eraseAll "urn:".toList 0 s.toList)
  let inner := (bare.dropWhile ("{}".toList.contains ·)).rdropWhile ("{}".toList.contains ·)
  let hex := inner.filter (· ≠ '-')
  if hex.length = 32 then
    (hexLiteral hex).bind fun digits =>
      let padded := List.replicate (32 - digits.length) '0' ++ digits
      if hw : padded.length = 32 ∧ padded.all isHexDigit = true then some ⟨padded, hw⟩ else none
  else none

/-- `str(uuid)`. -/
def Uuid.str (u : Uuid) : String :=
  let part (a n : ℕ) := String.ofList ((u.hex.drop a).take n)
  joinWith "-" [part 0 8, part 8 4, part 12 4, part 16 4, part 20 12]

/-- The entity kinds of the slot table. The ladder knows all but the last. -/
inductive EntityKind where
  | person
  | party
  | office
  | committee
  | bill
  | governmentDecision
  deriving DecidableEq, Repr

/-- `_LABEL_BY_KIND`: the kinds the ladder resolves. -/
def labelByKind : EntityKind → Option (String × String)
  | .person => some ("Person", "person_id")
  | .party => some ("Party", "party_id")
  | .office => some ("Office", "office_id")
  | .committee => some ("Committee", "committee_id")
  | .bill => some ("Bill", "bill_id")
  | .governmentDecision => none

/-! ## The stores -/

/-- The Cypher queries of the resolver. -/
inductive NameQuery where
  /-- Nodes whose `external_ids` text contains the needle, `LIMIT 1`. -/
  | externalIds (label : String) (needle : String)
  /-- Nodes with exactly this Hebrew name, `LIMIT 2`. -/
  | hebrewExact (label : String) (name : String)
  /-- The first 500 nodes of the label. -/
  | allNodes (label : String)
  /-- Nodes one of whose name fields contains the text, ignoring case, `LIMIT 2`. -/
  | contains (label : String) (fields : List String) (text : String)

/-- A row of those queries. Every node is merged on its id, so the id is never null. -/
structure NodeRow where
  id : String
  he : Option String := none
  cn : Option String := none
  en : Option String := none

/-- `Candidate`. -/
structure Candidate where
  entityId : Uuid
  matchStep : ℕ
  matchReason : String
  score : ℚ

/-- The Postgres side of the resolver: the alias lookup (`_lookup_alias`) and the insert of
an ambiguous candidate. -/
structure PgConn (σ : Type) where
  aliases : EntityKind → (text locale : String) → Eff σ (List (Uuid × ℤ))
  insertCandidate : EntityKind → (mention : String) → Candidate → Eff σ Unit

/-- A session of the graph driver: what `session.run` does with each query. -/
abbrev Session (σ : Type) := NameQuery → Eff σ (List NodeRow)

/-- The similarity functions of `rapidfuzz`. -/
structure RapidFuzz where
  ratio : String → String → ℚ
  partialRatio : String → String → ℚ

/-- `FUZZY_RESOLVE_THRESHOLD`. -/
def fuzzyResolveThreshold : ℚ := 88

/-- `FUZZY_MARGIN`. -/
def fuzzyMargin : ℚ := 7

/-! ## The lookups -/

/-- Four lower-case hexadecimal digits. -/
def hex4 (n : ℕ) : String :=
  String.ofList ([n / 4096 % 16, n / 256 % 16, n / 16 % 16, n % 16].map fun d =>
    if d < 10 then Char.ofNat (48 + d) else Char.ofNat (87 + d))

/-- One character of a JSON string, as `json.dumps` escapes it (ASCII only). -/
def jsonChar (c : Char) : String :=
  let n := c.toNat
  if c = '"' then "\\\"" else if c = '\\' then "\\\\" else if n = 8 then "\\b"
  else if n = 12 then "\\f" else if c = '\n' then "\\n" else if c = '\r' then "\\r"
  else if c = '\t' then "\\t" else if 0x20 ≤ n ∧ n ≤ 0x7E then String.singleton c
  else if n < 0x10000 then "\\u" ++ hex4 n
  else "\\u" ++ hex4 (0xD800 + (n - 0x10000) / 0x400) ++ "\\u" ++ hex4 (0xDC00 + (n - 0x10000) % 0x400)

/-- A JSON string literal. -/
def jsonString (s : String) : String := "\"" ++ String.join (s.toList.map jsonChar) ++ "\""

/-- `json.dumps({scheme: value})[1:-1]`. -/
def externalIdNeedle (scheme value : String) : String := jsonString scheme ++ ": " ++ jsonString value

variable {σ : Type}

/-- `uuid.UUID(text)` inside a call. -/
def uuidOrRaise (s : String) : Eff σ Uuid :=
  match Uuid.parse s with
  | some u => pure u
  | none => Eff.raise .valueError

/-- `_lookup_external_ids`: the first row for the first scheme that has one. -/
def lookupExternalIds (session : Session σ) (label : String) :
    List (String × String) → Eff σ (Option Uuid)
  | [] => pure none
  | (scheme, value) :: rest => do
    let rows ← session (.externalIds label (externalIdNeedle scheme value))
    match rows with
    -- the first scheme with a row ends the search, also when its id is malformed
    | row :: _ => return some (← uuidOrRaise row.id)
    | [] => lookupExternalIds session label rest

/-- `_lookup_hebrew_exact`. -/
def lookupHebrewExact (session : Session σ) (label hebrew : String) : Eff σ (Option Uuid) := do
  let rows ← session (.hebrewExact label hebrew)
  match rows with
  | [row] => return some (← uuidOrRaise row.id)
  -- two nodes with one name resolve to neither
  | _ => pure none

/-- The score and the reason `_lookup_fuzzy` gives a node; `none` below the floor of 60. -/
def fuzzyScore (U : Unicode) (fuzz : RapidFuzz) (normalizedHe normalizedEn : String)
    (row : NodeRow) : Option (ℚ × String) :=
  let nodeHe := normalizeHebrew U (row.he.getD "")
  let nodeCn := U.lower (strip (row.cn.getD ""))
  let nodeEn := U.lower (strip (row.en.getD ""))
  let scoreHe := if normalizedHe ≠ "" ∧ nodeHe ≠ "" then fuzz.ratio normalizedHe nodeHe else 0
  let scoreCn := if normalizedEn ≠ "" ∧ nodeCn ≠ "" then fuzz.ratio normalizedEn nodeCn else 0
  let scoreEn := if normalizedEn ≠ "" ∧ nodeEn ≠ "" then fuzz.ratio normalizedEn nodeEn else 0
  let partialHe :=
    if normalizedHe ≠ "" ∧ nodeHe ≠ "" then fuzz.partialRatio normalizedHe nodeHe else 0
  let bestExact := max scoreHe (max scoreCn scoreEn)
  -- `int` truncates; scores are not negative
  let best := max bestExact (((partialHe * (92 / 100)).floor : ℤ) : ℚ)
  let reason :=
    if bestExact < partialHe * (92 / 100) then "fuzzy_partial_he"
    else if scoreHe ≤ scoreEn ∧ scoreCn ≤ scoreEn then "fuzzy_en"
    else if scoreHe < scoreCn then "fuzzy_cn" else "fuzzy_he"
  if best < 60 then none else some (best, reason)

/-- `_lookup_fuzzy`: the five best scored nodes, best first; nothing when `rapidfuzz` is
not installed. -/
def lookupFuzzy (U : Unicode) (fuzz : Option RapidFuzz) (session : Session σ) (label : String)
    (hebrewName englishName : Option String) : Eff σ (List Candidate) :=
  match fuzz with
  | none => pure []
  | some fuzz => do
    let normalizedHe := normalizeHebrew U (hebrewName.getD "")
    let normalizedEn := U.lower (strip (englishName.getD ""))
    let rows ← session (.allNodes label)
    let scored ← Eff.forList (fun (acc : List Candidate) row =>
      match fuzzyScore U fuzz normalizedHe normalizedEn row with
      | none => pure acc
      | some (best, reason) => do
        let id ← uuidOrRaise row.id
        return acc ++ [⟨id, 5, reason, best⟩]) [] rows
    return (scored.insertionSort fun a b => b.score ≤ a.score).take 5

/-! ## The ladder -/

/-- `Status`, with the fields of a `ResolveResult`. -/
inductive LadderStatus where
  | resolved
  | ambiguous
  | unresolved
  deriving DecidableEq, Repr

/-- `ResolveResult`. -/
structure ResolveResult where
  status : LadderStatus
  entityId : Option Uuid
  candidates : List Candidate := []

/-- `LLMEntityTiebreaker.pick`. -/
abbrev Tiebreaker (σ : Type) :=
  EntityKind → Option String → Option String → List Candidate → Eff σ (Option Uuid)

/-- The arguments of `resolve`. An absent `external_ids` is the empty list. -/
structure ResolveArgs (σ : Type) where
  externalIds : List (String × String) := []
  hebrewName : Option String := none
  englishName : Option String := none
  pgConn : Option (PgConn σ) := none
  session : Option (Session σ) := none
  recordAmbiguous : Bool := false
  llmTiebreaker : Option (Tiebreaker σ) := none

/-- The hits of an alias lookup as candidates of one step. -/
def aliasCandidates (step : ℕ) (reason : String) (penalty : ℤ) (hits : List (Uuid × ℤ)) :
    List Candidate :=
  hits.map fun (id, confidence) =>
    ⟨id, step, reason, if penalty = 0 then confidence else max (confidence - penalty) 0⟩

/-- A step of the ladder: it runs only while there are no candidates. -/
def ladderStep (candidates : List Candidate) (step : Eff σ (List Candidate)) :
    Eff σ (List Candidate) :=
  match candidates with
  | [] => step
  | _ => pure candidates

/-- Steps 1 to 5: the candidates of the first step that finds any. -/
def ladderCandidates (U : Unicode) (fuzz : Option RapidFuzz) (kind : EntityKind) (label : String)
    (args : ResolveArgs σ) : Eff σ (List Candidate) := do
  let he := orNone args.hebrewName
  let en := orNone args.englishName
  let single (step : ℕ) (reason : String) (score : ℚ) (hit : Option Uuid) : List Candidate :=
    hit.toList.map fun id => ⟨id, step, reason, score⟩
  let c₁ ← ladderStep [] <| match args.session with
    | some session => do
      if args.externalIds = [] then pure [] else
      return single 1 "external_id" 100 (← lookupExternalIds session label args.externalIds)
    | none => pure []
  let c₂ ← ladderStep c₁ <| match args.session, he with
    | some session, some name => do
      return single 2 "hebrew_exact" 95
        (← lookupHebrewExact session label (normalizeHebrew U name))
    | _, _ => pure []
  let c₃ ← ladderStep c₂ <| match args.pgConn, he with
    | some pg, some name => do
      return aliasCandidates 3 "alias_he" 0 (← pg.aliases kind (normalizeHebrew U name) "he")
    | _, _ => pure []
  -- the English alias is looked up only when the Hebrew one found nothing
  let c₃' ← ladderStep c₃ <| match args.pgConn, en with
    | some pg, some name => do
      return aliasCandidates 3 "alias_en" 0 (← pg.aliases kind (U.lower (strip name)) "en")
    | _, _ => pure []
  -- a hit by transliteration counts ten less than the alias it finds
  let c₄ ← ladderStep c₃' <| match args.pgConn, he with
    | some pg, some name => do
      let translit := transliterateHebrew U name
      if translit = "" then pure [] else
      return aliasCandidates 4 "transliteration" 10 (← pg.aliases kind translit "en")
    | _, _ => pure []
  ladderStep c₄ <| match args.session with
    | some session =>
      if he = none ∧ en = none then pure [] else
      lookupFuzzy U fuzz session label args.hebrewName args.englishName
    | none => pure []

/-- The candidate with the highest score, the first one among equals. -/
def bestCandidate : List Candidate → Option Candidate
  | [] => none
  -- a later candidate wins only with a higher score
  | c :: cs => some (cs.foldl (fun w c => if w.score < c.score then c else w) c)

/-- The threshold and margin rule on fuzzy candidates. -/
def fuzzyWinner (candidates : List Candidate) : Option Candidate :=
  match (candidates.filter (·.matchStep = 5)).insertionSort fun a b => b.score ≤ a.score with
  | [] => none
  | top :: rest =>
    if fuzzyResolveThreshold ≤ top.score ∧
        fuzzyMargin ≤ top.score - ((rest.head?.map (·.score)).getD 0) then some top else none

/-- `_write_entity_candidates`. -/
def writeEntityCandidates (pg : PgConn σ) (kind : EntityKind) (mention : String)
    (candidates : List Candidate) : Eff σ Unit :=
  Eff.forList (fun _ c => pg.insertCandidate kind mention c) () candidates

/-- Step 6: the tiebreaker's pick among the ids found. -/
def tiebreak (kind : EntityKind) (args : ResolveArgs σ) (candidates : List Candidate) :
    Eff σ (Option Uuid) :=
  match args.llmTiebreaker with
  | some t => do
    let pick ← t kind args.hebrewName args.englishName candidates
    return pick.filter fun id => id ∈ candidates.map (·.entityId)
  | none => pure none

/-- An ambiguous outcome, recorded for review when the caller asks for it. -/
def recordedAmbiguous (kind : EntityKind) (args : ResolveArgs σ) (candidates : List Candidate) :
    Eff σ Unit :=
  match args.pgConn with
  | some pg =>
    if args.recordAmbiguous then
      writeEntityCandidates pg kind
        ((orNone args.hebrewName).getD ((orNone args.englishName).getD "")) candidates
    else pure ()
  | none => pure ()

/-- The result of the ladder for the candidates found. -/
def settleCandidates (kind : EntityKind) (args : ResolveArgs σ) (candidates : List Candidate) :
    Eff σ ResolveResult :=
  if candidates = [] then pure { status := .unresolved, entityId := none }
  else if (candidates.map (·.entityId)).dedup.length = 1 then
    -- all candidates name one entity, whatever their scores
    pure
      { status := .resolved
        entityId := (bestCandidate candidates).map (·.entityId)
        candidates := candidates }
  else match fuzzyWinner candidates with
    | some top =>
      pure { status := .resolved, entityId := some top.entityId, candidates := candidates }
    | none => do
      match ← tiebreak kind args candidates with
      | some id => return { status := .resolved, entityId := some id, candidates := candidates }
      | none =>
        recordedAmbiguous kind args candidates
        return { status := .ambiguous, entityId := none, candidates := candidates }

/-- `resolve`. -/
def resolve (U : Unicode) (fuzz : Option RapidFuzz) (kind : EntityKind) (args : ResolveArgs σ) :
    Eff σ ResolveResult :=
  match labelByKind kind with
  -- an unsupported kind raises before anything is read
  | none => Eff.raise .valueError
  | some (label, _) => ladderCandidates U fuzz kind label args >>= settleCandidates kind args

/-! ## The live resolver -/

/-- `_SLOT_TO_KIND`. -/
def slotToKind : List (Slot × EntityKind) :=
  [(.speakerPersonId, .person), (.targetPersonId, .person), (.billId, .bill),
    (.committeeId, .committee), (.officeId, .office), (.partyId, .party),
    (.governmentDecisionId, .governmentDecision)]

/-- `ResolutionResult`. -/
structure ResolutionResult where
  slotStatuses : Slot → Option ResolverStatus := fun _ => none
  resolvedSlots : Slots

/-- `LiveEntityResolver`: a graph driver with its sessions, and an optional Postgres
connection. Any of its calls may raise. -/
structure LiveEntityResolver (σ : Type) where
  unicode : Unicode
  fuzz : Option RapidFuzz
  /-- Entering `driver.session()`. -/
  openSession : Eff σ Unit
  /-- Leaving it. -/
  closeSession : Eff σ Unit
  session : Session σ
  pgConn : Option (PgConn σ)

/-- `_is_hebrew`. -/
def isHebrew (text : String) : Bool := text.toList.any isHebrewChar

/-- The label and the name fields of the substring fallback (`label_id_map`). -/
def fallbackFields : EntityKind → String × List String
  | .bill => ("Bill", ["title", "hebrew_name"])
  | .office => ("Office", ["canonical_name", "hebrew_name"])
  | .committee => ("Committee", ["hebrew_name", "canonical_name"])
  | .person => ("Person", ["hebrew_name", "canonical_name", "english_name"])
  | .party => ("Party", ["hebrew_name", "canonical_name", "english_name"])
  | .governmentDecision => ("GovernmentDecision", ["decision_number", "title"])

/-- `_fallback_resolve`: the id of the only node whose name contains the text. -/
def fallbackResolve (session : Session σ) (kind : EntityKind) (text : String) :
    Eff σ (Option String) := do
  let (label, fields) := fallbackFields kind
  let rows ← session (.contains label fields text)
  match rows with
  | [row] => return some row.id
  | _ => pure none

/-- The ladder's status as a slot status. -/
def LadderStatus.toSlotStatus : LadderStatus → ResolverStatus
  | .resolved => .resolved
  | .ambiguous => .ambiguous
  | .unresolved => .unresolved

/-- The body of the slot loop for one value: the slot's status and, when it is resolved, its
id. -/
def LiveEntityResolver.resolveSlot (R : LiveEntityResolver σ) (kind : EntityKind)
    (value : String) : Eff σ (ResolverStatus × Option String) := do
  let args : ResolveArgs σ :=
    if isHebrew value then
      { hebrewName := some value, session := some R.session, pgConn := R.pgConn }
    else { englishName := some value, session := some R.session, pgConn := R.pgConn }
  let result ← CivicProof.resolve R.unicode R.fuzz kind args
  match result.status, result.entityId with
  | .resolved, some id => return (.resolved, some id.str)
  | status, _ =>
    -- an ambiguous name is tried again as a substring
    match ← fallbackResolve R.session kind value with
    | some id => return (.resolved, some id)
    | none => return (status.toSlotStatus, none)

/-- One round of the slot loop. -/
def LiveEntityResolver.slotRound (R : LiveEntityResolver σ) (slots : Slots)
    (acc : ResolutionResult) (entry : Slot × EntityKind) : Eff σ ResolutionResult :=
  match slots entry.1 with
  -- an absent slot gets no status
  | none => pure acc
  | some value => do
    let (status, id) ← R.resolveSlot entry.2 value
    return { slotStatuses := Function.update acc.slotStatuses entry.1 (some status)
             resolvedSlots :=
               if id.isSome then Function.update acc.resolvedSlots entry.1 id
               else acc.resolvedSlots }

/-- `LiveEntityResolver.resolve`. -/
def LiveEntityResolver.resolve (R : LiveEntityResolver σ) (slots : Slots) :
    Eff σ ResolutionResult :=
  Eff.within R.openSession R.closeSession
    (Eff.forList (R.slotRound slots) { resolvedSlots := slots } slotToKind)

end CivicProof
