import CivicProof.Spec.GraphQueries
import CivicProof.Spec.Resolve

/-!
# The resolver's stores

The queries of the resolver on the ingested graph, and its alias lookup on the alias table. A
query without `ORDER BY` returns the nodes it matches in an order of the database's choice, and
`LIMIT` keeps the first ones.

* `NameStores.rows_eq`: within the limit, the rows are those of all the nodes matched.
* `NameStores.ofOrder`: every graph has answers, in any order of its nodes.
-/

namespace CivicProof

open PropGraph

/-! ## The queries -/

/-- The label as a query names it. -/
def Label.text : Label → String
  | .person => "Person"
  | .party => "Party"
  | .office => "Office"
  | .committee => "Committee"
  | .bill => "Bill"
  | .voteEvent => "VoteEvent"
  | .attendanceEvent => "AttendanceEvent"
  | .membershipTerm => "MembershipTerm"
  | .positionTerm => "PositionTerm"
  | .electionResult => "ElectionResult"
  | .governmentDecision => "GovernmentDecision"

theorem Label.text_injective : Function.Injective Label.text := by
  intro a b h
  cases a <;> cases b <;> first | rfl | exact absurd h (by decide)

/-- The property that a name field of the substring search stands for. -/
def nameField : String → Option Field
  | "title" => some .title
  | "hebrew_name" => some .hebrewName
  | "canonical_name" => some .canonicalName
  | "english_name" => some .englishName
  | "decision_number" => some .decisionNumber
  | _ => none

/-- A text property of a node. -/
def textProp (g : CivicGraph) (n : NodeKey) (f : Field) : Option String :=
  (g.nodeProp n f).bind Datum.text?

/-- `text CONTAINS part`. -/
def containsText (text part : String) : Bool := decide (part.toList <:+: text.toList)

/-- Whether a node satisfies the pattern and the `WHERE` clause of a query. `toLower` is the
database's. -/
def nodeMatches (toLower : String → String) (g : CivicGraph) : NameQuery → NodeKey → Bool
  | .externalIds label needle, n =>
    n.1.text == label && (textProp g n .externalIds).any (containsText · needle)
  | .hebrewExact label name, n => n.1.text == label && textProp g n .hebrewName == some name
  | .allNodes label, n => n.1.text == label
  -- a null field satisfies no condition
  | .contains label fields text, n =>
    n.1.text == label && (fields.filterMap nameField).any fun f =>
      (textProp g n f).any fun name => containsText (toLower name) (toLower text)

/-- The nodes a query matches. -/
def matching (toLower : String → String) (g : CivicGraph) (q : NameQuery) : Finset NodeKey :=
  g.nodes.keys.filter fun n => nodeMatches toLower g q n

/-- The `LIMIT` of a query. -/
def NameQuery.limit : NameQuery → ℕ
  | .externalIds _ _ => 1
  | .hebrewExact _ _ => 2
  | .allNodes _ => 500
  | .contains _ _ _ => 2

/-- What a query returns of a node: its id, and its names for the fuzzy scan. -/
def rowOf (g : CivicGraph) (n : NodeKey) : NameQuery → NodeRow
  | .allNodes _ =>
    { id := n.2
      he := textProp g n .hebrewName
      cn := textProp g n .canonicalName
      en := textProp g n .englishName }
  | _ => { id := n.2 }

/-! ## The stores -/

/-- A graph whose business keys are texts of UUIDs, with the nodes its queries return, and an
alias table with the rows of each kind, text and locale. -/
structure NameStores where
  graph : CivicGraph
  toLower : String → String
  found : NameQuery → List NodeKey
  answers : ∀ q, PropGraph.Answer unordered q.limit (matching toLower graph q).val (found q)
  ids : ∀ n ∈ graph.nodes.keys, ∃ u : Uuid, n.2 = u.str
  aliases : EntityKind → (text locale : String) → List (Uuid × ℤ)

namespace NameStores

variable (S : NameStores)

/-- The rows of a query. -/
def rows (q : NameQuery) : List NodeRow := (S.found q).map fun n => rowOf S.graph n q

variable {σ : Type}

/-- A session on the graph. -/
def session : Session σ := fun q => pure (S.rows q)

/-- A connection to the alias table. Nothing is recorded through it. -/
def pg : PgConn σ where
  aliases kind text locale := pure (S.aliases kind text locale)
  insertCandidate _ _ _ := pure ()

variable {S}

theorem mem_matching {n : NodeKey} {q : NameQuery} (h : n ∈ S.found q) :
    n ∈ matching S.toLower S.graph q := (S.answers q).mem_rows h

theorem found_nodup (q : NameQuery) : (S.found q).Nodup := by
  obtain ⟨l, hl, hout⟩ := S.answers q
  have hnodup : l.Nodup := by
    rw [← Multiset.coe_nodup, hl.rows]
    exact (matching S.toLower S.graph q).nodup
  rw [hout]
  exact hnodup.sublist (List.take_sublist _ _)

theorem length_found (q : NameQuery) :
    (S.found q).length = min q.limit (matching S.toLower S.graph q).card := by
  obtain ⟨l, hl, hout⟩ := S.answers q
  rw [hout, List.length_take, ← Multiset.coe_card, hl.rows]
  rfl

/-- A query finds a single node iff it matches a single one: no limit is below two, but that of
the external ids. -/
theorem length_found_eq_one {q : NameQuery} (hq : 2 ≤ q.limit) :
    (S.found q).length = 1 ↔ (matching S.toLower S.graph q).card = 1 := by
  rw [length_found]
  omega

end NameStores

/-- The stores of a graph whose queries return nodes in the order of a list. -/
def NameStores.ofOrder (g : CivicGraph) (order : List NodeKey) (hnd : order.Nodup)
    (horder : order.toFinset = g.nodes.keys) (hids : ∀ n ∈ order, ∃ u : Uuid, n.2 = u.str)
    (toLower : String → String) (aliases : EntityKind → String → String → List (Uuid × ℤ)) :
    NameStores where
  graph := g
  toLower := toLower
  found q := (order.filter fun n => nodeMatches toLower g q n).take q.limit
  answers q := by
    refine ⟨_, ⟨?_, List.pairwise_of_forall fun _ _ => trivial⟩, rfl⟩
    unfold matching
    rw [← horder, Finset.filter_val, List.toFinset_val, hnd.dedup, Multiset.filter_coe]
    simp only [Bool.decide_eq_true]
  ids n hn := hids n (List.mem_toFinset.1 (horder ▸ hn))
  aliases := aliases

/-! ## UUIDs as texts -/

/-- The lower-case hexadecimal digits. -/
def hexAlphabet : List Char := "0123456789abcdef".toList

theorem mem_hexAlphabet {c : Char} (h : isHexDigit c = true) : c ∈ hexAlphabet := by
  have hall : ∀ n < 128, (0x30 ≤ n ∧ n ≤ 0x39) ∨ (0x61 ≤ n ∧ n ≤ 0x66) →
      Char.ofNat n ∈ hexAlphabet := by
    decide
  have hrange : (0x30 ≤ c.toNat ∧ c.toNat ≤ 0x39) ∨ (0x61 ≤ c.toNat ∧ c.toNat ≤ 0x66) := by
    simp only [isHexDigit, Char.isDigit, Bool.or_eq_true, Bool.and_eq_true, decide_eq_true_eq,
      ge_iff_le, UInt32.le_iff_toNat_le, Char.le_def] at h
    exact h
  have hc := hall c.toNat (by omega) hrange
  rwa [Char.ofNat_toNat] at hc

/-- A hexadecimal digit is itself to `int(·, 16)`, and none of the characters that have a meaning of
their own in a UUID or a literal. -/
theorem isHexDigit_plain {c : Char} (h : isHexDigit c = true) :
    hexDigit c = some c ∧ isIntSpace c = false ∧ c.toLower ≠ 'x' ∧ c ∉ "u{}-+_".toList := by
  have hall : ∀ c ∈ hexAlphabet,
      hexDigit c = some c ∧ isIntSpace c = false ∧ c.toLower ≠ 'x' ∧ c ∉ "u{}-+_".toList := by
    decide
  exact hall c (mem_hexAlphabet h)

theorem isHexDigit_ne {c x : Char} (h : isHexDigit c = true) (hx : x ∈ "u{}-+_".toList) : c ≠ x := by
  rintro rfl
  exact (isHexDigit_plain h).2.2.2 hx

/-- A text without the first character of the needle has no occurrence of it. -/
theorem eraseAll_of_notMem {x : Char} {needle cs : List Char} (h : x ∉ cs) :
    eraseAll (x :: needle) 0 cs = cs := by
  induction cs with
  | nil => rfl
  | cons c cs ih =>
    have hne : (x == c) = false := beq_false_of_ne fun heq => h (heq ▸ List.mem_cons_self)
    rw [eraseAll, List.isPrefixOf, hne, ih fun hmem => h (List.mem_cons_of_mem c hmem)]
    rfl

/-- A text none of whose characters is to go stays as it is. -/
theorem dropWhile_rdropWhile_of_forall {p : Char → Bool} {cs : List Char}
    (h : ∀ c ∈ cs, p c = false) : (cs.dropWhile p).rdropWhile p = cs := by
  have hfront : cs.dropWhile p = cs :=
    List.dropWhile_eq_self_iff.2 fun hlen => by simp [h _ (List.getElem_mem hlen)]
  rw [hfront, List.rdropWhile_eq_self_iff]
  exact fun hne => by simp [h _ (List.getLast_mem hne)]

theorem hexDigits_of_forall {cs : List Char} (h : ∀ c ∈ cs, isHexDigit c = true) :
    hexDigits true cs = some cs := by
  induction cs with
  | nil => rfl
  | cons c cs ih =>
    have hc := h c List.mem_cons_self
    rw [hexDigits, if_neg (isHexDigit_ne hc (by decide)), (isHexDigit_plain hc).1,
      ih fun x hx => h x (List.mem_cons_of_mem c hx)]
    rfl

/-- Digits are the literal of themselves. -/
theorem hexLiteral_of_forall {cs : List Char} (hne : cs ≠ [])
    (h : ∀ c ∈ cs, isHexDigit c = true) : hexLiteral cs = some cs := by
  have hdigits : hexDigits false cs = some cs := by
    cases cs with
    | nil => exact absurd rfl hne
    | cons c cs =>
      have hrest := hexDigits_of_forall h
      rwa [hexDigits, if_neg (isHexDigit_ne (h c List.mem_cons_self) (by decide))] at hrest ⊢
  have hsign : dropSign cs = cs := by
    unfold dropSign
    split
    · exact absurd rfl (isHexDigit_ne (h _ List.mem_cons_self) (by decide))
    · rfl
  have hradix : dropRadix cs = cs := by
    unfold dropRadix
    split
    · exact if_neg fun hx => (isHexDigit_plain (h _ (by simp))).2.2.1 hx.2
    · rfl
  rw [hexLiteral, dropWhile_rdropWhile_of_forall fun c hc => (isHexDigit_plain (h c hc)).2.1, hsign,
    hradix, hdigits]

theorem Uuid.mem_hex {u : Uuid} {c : Char} (h : c ∈ u.hex) : isHexDigit c = true :=
  List.all_eq_true.1 u.wf.2 c h

theorem Uuid.filter_str (u : Uuid) : u.str.toList.filter (· ≠ '-') = u.hex := by
  have hpart : ∀ a n, ((u.hex.drop a).take n).filter (· ≠ '-') = (u.hex.drop a).take n := by
    intro a n
    refine List.filter_eq_self.2 fun c hc => ?_
    exact decide_eq_true (isHexDigit_ne
      (u.mem_hex (List.mem_of_mem_drop (List.mem_of_mem_take hc))) (by decide))
  have hdash : "-".toList.filter (· ≠ '-') = [] := rfl
  have hjoin : u.hex.take 8 ++ ((u.hex.drop 8).take 4 ++ ((u.hex.drop 12).take 4 ++
      ((u.hex.drop 16).take 4 ++ (u.hex.drop 20).take 12))) = u.hex := by
    have hlast : (u.hex.drop 20).take 12 = u.hex.drop 20 :=
      List.take_of_length_le (by rw [List.length_drop, u.wf.1])
    have hcut : ∀ a, (u.hex.drop a).take 4 ++ u.hex.drop (a + 4) = u.hex.drop a := by
      intro a
      rw [← List.drop_drop, List.take_append_drop]
    rw [hlast, hcut 16, hcut 12, hcut 8, List.take_append_drop]
  unfold Uuid.str
  simp only [joinWith, String.toList_append, String.toList_ofList, List.filter_append, hpart, hdash,
    List.append_assoc, List.nil_append]
  exact hjoin

/-- The text of a UUID consists of its digits and hyphens. -/
theorem Uuid.mem_str {u : Uuid} {c : Char} (h : c ∈ u.str.toList) :
    isHexDigit c = true ∨ c = '-' := by
  by_cases hc : c = '-'
  · exact Or.inr hc
  · have hmem : c ∈ u.str.toList.filter (· ≠ '-') := List.mem_filter.2 ⟨h, decide_eq_true hc⟩
    rw [u.filter_str] at hmem
    exact Or.inl (u.mem_hex hmem)

/-- **A UUID is read back from its text.** -/
theorem Uuid.parse_str (u : Uuid) : Uuid.parse u.str = some u := by
  -- the text has no prefix of a URN and no braces
  have hu : 'u' ∉ u.str.toList := by
    intro hmem
    rcases Uuid.mem_str hmem with h | h
    · exact isHexDigit_ne h (by decide) rfl
    · revert h
      decide
  have hbrace : ∀ c ∈ u.str.toList, "{}".toList.contains c = false := by
    intro c hc
    rcases Uuid.mem_str hc with h | rfl
    · have hopen := beq_false_of_ne (isHexDigit_ne h (show '{' ∈ _ by decide))
      have hclose := beq_false_of_ne (isHexDigit_ne h (show '}' ∈ _ by decide))
      change (c == '{' || (c == '}' || false)) = false
      rw [hopen, hclose]
      rfl
    · rfl
  have hlength : u.hex.length = 31 + 1 := u.wf.1
  have hdigits := hexLiteral_of_forall (List.ne_nil_of_length_eq_add_one hlength)
    fun c hc => u.mem_hex hc
  unfold Uuid.parse
  rw [show eraseAll "urn:".toList 0 u.str.toList = u.str.toList from eraseAll_of_notMem hu,
    show eraseAll "uuid:".toList 0 u.str.toList = u.str.toList from eraseAll_of_notMem hu]
  simp only [dropWhile_rdropWhile_of_forall hbrace, u.filter_str, u.wf.1, hdigits, if_true,
    Option.bind_some, Nat.sub_self, List.replicate_zero, List.nil_append]
  exact dif_pos ⟨trivial, u.wf.2⟩

theorem Uuid.str_injective : Function.Injective Uuid.str := by
  intro u v h
  have hu := Uuid.parse_str u
  rw [h, Uuid.parse_str v] at hu
  exact (Option.some.inj hu).symm

/-! ## Graphs of named nodes -/

/-- The key of a node. -/
def entityKey (label : Label) (u : Uuid) : NodeKey := (label, u.str)

theorem entityKey_injective (label : Label) : Function.Injective (entityKey label) := by
  intro u v h
  exact Uuid.str_injective (Prod.mk.inj h).2

/-- The properties of a node of which only the Hebrew name is known. -/
def hebrewNamed (name : String) : Field → Option Datum
  | .hebrewName => some (.text name)
  | _ => none

/-- The graph that consists of these nodes. -/
def nodeGraph (label : Label) (nodes : List (Uuid × (Field → Option Datum))) : CivicGraph where
  nodes := (nodes.map fun e => ⟨entityKey label e.1, ⟨0, none, e.2⟩⟩).toFinmap
  rels := ∅
  endpoints _ h := absurd h Finmap.notMem_empty

/-- The stores of these nodes, in their order, with no aliases. -/
def NameStores.ofNodes (label : Label) (nodes : List (Uuid × (Field → Option Datum)))
    (hnd : (nodes.map Prod.fst).Nodup) (toLower : String → String) : NameStores :=
  .ofOrder (nodeGraph label nodes) (nodes.map fun e => entityKey label e.1)
    (by
      rw [← Function.comp_def (entityKey label) Prod.fst, ← List.map_map]
      exact hnd.map (entityKey_injective label))
    (by
      ext n
      rw [List.mem_toFinset, Finmap.mem_keys, nodeGraph, Finmap.mem_list_toFinmap]
      constructor
      · intro h
        obtain ⟨e, he, rfl⟩ := List.mem_map.1 h
        exact ⟨_, List.mem_map_of_mem he⟩
      · rintro ⟨e, h⟩
        obtain ⟨x, hx, heq⟩ := List.mem_map.1 h
        cases heq
        exact List.mem_map_of_mem hx)
    (by
      intro n hn
      obtain ⟨e, -, rfl⟩ := List.mem_map.1 hn
      exact ⟨e.1, rfl⟩)
    toLower fun _ _ _ => []

theorem mem_keys_nodeGraph (label : Label) {nodes : List (Uuid × (Field → Option Datum))}
    {e : Uuid × (Field → Option Datum)} (he : e ∈ nodes) :
    entityKey label e.1 ∈ (nodeGraph label nodes).nodes.keys := by
  rw [Finmap.mem_keys, nodeGraph, Finmap.mem_list_toFinmap]
  exact ⟨_, List.mem_map_of_mem he⟩

theorem nodeGraph_prop (label : Label) {nodes : List (Uuid × (Field → Option Datum))}
    (hnd : (nodes.map Prod.fst).Nodup) {e : Uuid × (Field → Option Datum)} (he : e ∈ nodes)
    (f : Field) : (nodeGraph label nodes).nodeProp (entityKey label e.1) f = e.2 f := by
  have hkeys : (nodes.map fun e => (⟨entityKey label e.1, ⟨0, none, e.2⟩⟩ :
      Σ _ : NodeKey, Entity Field Datum)).NodupKeys := by
    have hmap := hnd.map (entityKey_injective label)
    rw [List.map_map] at hmap
    rw [List.NodupKeys, List.keys, List.map_map]
    exact hmap
  have hlookup := List.mem_dlookup hkeys (List.mem_map_of_mem he)
  unfold Graph.nodeProp nodeGraph
  rw [Finmap.dlookup_list_toFinmap, Option.mem_def.1 hlookup]
  rfl

/-- The scan of a label of which these are the nodes. -/
theorem NameStores.found_ofNodes (label : Label) {nodes : List (Uuid × (Field → Option Datum))}
    (hnd : (nodes.map Prod.fst).Nodup) (toLower : String → String) :
    (NameStores.ofNodes label nodes hnd toLower).found (.allNodes label.text) =
      (nodes.map fun e => entityKey label e.1).take 500 := by
  refine congrArg (List.take 500) (List.filter_eq_self.2 fun n hn => ?_)
  obtain ⟨e, -, rfl⟩ := List.mem_map.1 hn
  exact beq_self_eq_true _

end CivicProof
