import CivicProof.Spec.Ontology
import Mathlib.Data.List.AList
import Mathlib.Data.List.Sort

/-!
# Evidence, reranking and the confidence rubric

`GraphEvidence` and `LexicalEvidence`, the deterministic reranker (`rerank`) and the
five-axis rubric (`computeConfidence`). Scores are exact rationals: every axis score is a
multiple of `1/100` and every weight too, so rounding to four digits removes nothing but
binary noise.
-/

namespace CivicProof

/-- A property value of a graph row or an index document, as far as the engine reads them. -/
inductive Value where
  | null
  | bool (b : Bool)
  | int (n : ℤ)
  | str (s : String)
  deriving DecidableEq, Repr

/-- `bool(v)`. -/
def Value.truthy : Value → Bool
  | .null => false
  | .bool b => b
  | .int n => n ≠ 0
  | .str s => s ≠ ""

/-- `str(v)`. -/
def Value.pyStr : Value → String
  | .null => "None"
  | .bool true => "True"
  | .bool false => "False"
  | .int n => toString n
  | .str s => s

/-- `int(v)`; `none` where it raises `TypeError` or `ValueError`. -/
def Value.toInt : Value → Option ℤ
  | .null => none
  | .bool b => some (if b then 1 else 0)
  | .int n => some n
  | .str s => parseInt s

/-- An optional text as a property value. -/
def Value.ofText (s : Option String) : Value := s.elim .null .str

/-- An optional integer as a property value. -/
def Value.ofInt (n : Option ℤ) : Value := n.elim .null .int

/-- A mapping with text keys. -/
abbrev Dict (α : Type) := AList fun _ : String => α

/-- A mapping literal. -/
def Dict.ofList {α : Type} (l : List (String × α)) : Dict α :=
  (l.map fun e => ⟨e.1, e.2⟩).toAList

/-- `d.get(key)` on a property mapping: a missing key reads as `None`. -/
def Dict.prop (d : Dict Value) (key : String) : Value := (d.lookup key).getD .null

/-- The values of a mapping. -/
def Dict.values {α : Type} (d : Dict α) : List α := d.entries.map (·.2)

/-- `GraphEvidence`: one row of the graph retrieval. -/
structure GraphEvidence where
  claimType : ClaimType
  nodeIds : Dict String
  properties : Dict Value
  sourceDocumentIds : List String := []
  sourceTier : ℤ := 1

/-- `LexicalEvidence`: one span of the lexical retrieval. -/
structure LexicalEvidence where
  spanId : String
  documentId : String
  text : String
  sourceTier : ℤ
  properties : Dict Value := ∅

/-- `Evidence`. -/
inductive Evidence where
  | graph (e : GraphEvidence)
  | lexical (e : LexicalEvidence)

/-- The tier of an evidence item. -/
def Evidence.sourceTier : Evidence → ℤ
  | .graph e => e.sourceTier
  | .lexical e => e.sourceTier

/-- The graph row of an evidence item, if it is one. -/
def Evidence.graph? : Evidence → Option GraphEvidence
  | .graph e => some e
  | .lexical _ => none

/-- Whether an evidence item is lexical. -/
def Evidence.isLexical : Evidence → Bool
  | .graph _ => false
  | .lexical _ => true

/-! ## The score helpers -/

/-- The five axes of a score. -/
structure Axes where
  sourceTier : ℚ
  directness : ℚ
  temporalAlignment : ℚ
  entityResolution : ℚ
  crossSourceConsistency : ℚ

/-- `WEIGHTS`. -/
def weights : Axes := ⟨30 / 100, 25 / 100, 20 / 100, 15 / 100, 10 / 100⟩

/-- The weighted sum of five axis scores. -/
def weightedSum (a : Axes) : ℚ :=
  weights.sourceTier * a.sourceTier + weights.directness * a.directness +
    weights.temporalAlignment * a.temporalAlignment +
    weights.entityResolution * a.entityResolution +
    weights.crossSourceConsistency * a.crossSourceConsistency

/-- `round(x, 4)`: to the nearest multiple of `1/10000`, ties to even. -/
def round4 (x : ℚ) : ℚ :=
  let y := x * 10000
  let f := y.floor
  let r := y - f
  -- a tie goes to the even neighbour
  (if r < 1 / 2 ∨ (r = 1 / 2 ∧ f % 2 = 0) then f else f + 1 : ℤ) / 10000

/-- `_source_tier_score`. -/
def sourceTierScore (tier : ℤ) : ℚ :=
  if tier = 1 then 1 else if tier = 2 then 6 / 10 else if tier = 3 then 3 / 10 else 1 / 10

/-- `_directness_score`. -/
def directnessScore (e : Evidence) (claimType : ClaimType) : ℚ :=
  match e with
  | .graph g => if g.claimType = claimType then 1 else 6 / 10
  | .lexical l =>
    let text := strip l.text
    if text = "" then 0 else if text.length < 160 then 75 / 100 else 5 / 10

/-- The text a property contributes to a temporal comparison (`str(v or "")`). -/
def timestampText (v : Value) : String := if v.truthy then v.pyStr else ""

/-- A non-empty bound that the text lies before. -/
def beforeBound (text : String) (bound : Option String) : Bool :=
  (orNone bound).any fun b => text < b

/-- A non-empty bound that the text lies after. -/
def afterBound (text : String) (bound : Option String) : Bool :=
  (orNone bound).any fun b => b < text

/-- `_temporal_score`. Bounds and timestamps are compared as texts. -/
def temporalScore (e : Evidence) (scope : Option TimeScope) : ℚ :=
  match scope with
  | none => 5 / 10
  | some ts =>
    match e with
    | .graph g =>
      let occurred := timestampText (g.properties.prop "occurred_at")
      -- an undated row is neither inside nor outside of the scope
      if occurred = "" then 6 / 10
      else if beforeBound occurred ts.start || afterBound occurred ts.stop then 2 / 10 else 1
    | .lexical l =>
      let captured := timestampText (l.properties.prop "captured_at")
      if captured = "" then 5 / 10
      else if beforeBound captured ts.start || afterBound captured ts.stop then 4 / 10 else 8 / 10

/-- The resolved ids a graph row agrees with. -/
def entityHits (g : GraphEvidence) (resolvedIds : Dict String) : ℕ :=
  resolvedIds.entries.countP fun p => g.nodeIds.lookup p.1 = some p.2

/-- `_entity_score`. -/
def entityScore (e : Evidence) (resolvedIds : Dict String) : ℚ :=
  if resolvedIds.entries = [] then 5 / 10 else
  match e with
  | .graph g =>
    let hits := entityHits g resolvedIds
    -- two agreeing ids reach the top score
    if hits = 0 then 2 / 10 else min 1 (5 / 10 + 25 / 100 * hits)
  | .lexical _ => 6 / 10

/-- `_cross_source_score`. -/
def crossSourceScore (crossSourceCount : ℕ) : ℚ :=
  if crossSourceCount ≤ 1 then 3 / 10 else if crossSourceCount = 2 then 7 / 10 else 1

/-! ## The reranker -/

/-- `RerankScore`. -/
structure RerankScore extends Axes where
  overall : ℚ
  evidence : Evidence

/-- The documents an evidence item cites. -/
def Evidence.documents : Evidence → List String
  | .graph g => g.sourceDocumentIds
  | .lexical l => if l.documentId = "" then [] else [l.documentId]

/-- The number of distinct documents cited by a list of evidence. -/
def crossSourceCount (evidences : List Evidence) : ℕ :=
  (evidences.flatMap Evidence.documents).dedup.length

/-- The score of one item, given the number of distinct documents. -/
def scoreOf (claimType : ClaimType) (scope : Option TimeScope) (resolvedIds : Dict String)
    (cross : ℕ) (e : Evidence) : RerankScore :=
  let axes : Axes :=
    { sourceTier := sourceTierScore e.sourceTier
      directness := directnessScore e claimType
      temporalAlignment := temporalScore e scope
      entityResolution := entityScore e resolvedIds
      crossSourceConsistency := crossSourceScore cross }
  { toAxes := axes, overall := round4 (weightedSum axes), evidence := e }

/-- `_stable_key`. -/
def stableKey : Evidence → String
  | .graph g => "g:" ++ joinWith ":" (sortedStrings g.nodeIds.values)
  | .lexical l => "l:" ++ l.spanId

/-- The order of the ranked list: overall score descending, then stable key. -/
def rankLE (a b : RerankScore) : Prop :=
  b.overall < a.overall ∨ (a.overall = b.overall ∧ stableKey a.evidence ≤ stableKey b.evidence)

instance : DecidableRel rankLE := fun _ _ => inferInstanceAs (Decidable (_ ∨ _))

/-- `rerank`. -/
def rerank (evidences : List Evidence) (claimType : ClaimType) (scope : Option TimeScope)
    (resolvedIds : Dict String) : List RerankScore :=
  (evidences.map (scoreOf claimType scope resolvedIds (crossSourceCount evidences))).insertionSort
    rankLE

/-! ## The confidence rubric -/

/-- The running maxima of `compute_confidence`. -/
def Axes.max (a b : Axes) : Axes :=
  ⟨Max.max a.sourceTier b.sourceTier, Max.max a.directness b.directness,
    Max.max a.temporalAlignment b.temporalAlignment, Max.max a.entityResolution b.entityResolution,
    Max.max a.crossSourceConsistency b.crossSourceConsistency⟩

/-- The best score on each axis, from zero. -/
def bestAxes (ranked : List RerankScore) : Axes :=
  ranked.foldl (fun best s => best.max s.toAxes) ⟨0, 0, 0, 0, 0⟩

/-- `FiveAxisRubric.as_confidence`. -/
def Axes.asConfidence (a : Axes) : Except PyError Confidence :=
  Confidence.mk? a.sourceTier a.directness a.temporalAlignment a.entityResolution
    a.crossSourceConsistency (round4 (weightedSum a))

/-- `compute_confidence`. It raises only when a score leaves `[0, 1]`. -/
def computeConfidence (ranked : List RerankScore) : Except PyError Confidence :=
  (bestAxes ranked).asConfidence

end CivicProof
