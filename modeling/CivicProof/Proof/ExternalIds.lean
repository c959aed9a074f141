import CivicProof.Proof.Homonyms
import CivicProof.Quoted.Sealed

/-!
# The lookup by external id

The ids of a person are stored as one JSON text, and looked up by a substring of it. The two are
escaped differently, and a substring may begin at any quote.

* `jsonChar_append_inj`: the two escapings agree only below `U+007F`.
* `external_ids_exact_iff`: for which maps, schemes and values the substring test is exact.
-/

namespace CivicProof

open Quoted

/-! ## Escapes -/

/-- The hexadecimal digit of a number below 16. -/
def hexChar (d : ℕ) : Char := if d < 10 then Char.ofNat (48 + d) else Char.ofNat (87 + d)

theorem hexChar_inj : ∀ a < 16, ∀ b < 16, hexChar a = hexChar b → a = b := by decide

theorem hexChar_ne : ∀ a < 16, hexChar a ≠ '"' ∧ hexChar a ≠ '\\' := by decide

theorem hex4_toList (n : ℕ) : (hex4 n).toList =
    [hexChar (n / 4096 % 16), hexChar (n / 256 % 16), hexChar (n / 16 % 16), hexChar (n % 16)] := by
  rw [hex4, String.toList_ofList]
  rfl

theorem hex4_append_inj {n m : ℕ} (hn : n < 0x10000) (hm : m < 0x10000) {x y : List Char}
    (h : (hex4 n).toList ++ x = (hex4 m).toList ++ y) : n = m ∧ x = y := by
  rw [hex4_toList, hex4_toList] at h
  simp only [List.cons_append, List.nil_append, List.cons.injEq] at h
  obtain ⟨h3, h2, h1, h0, htail⟩ := h
  have d3 := hexChar_inj _ (Nat.mod_lt _ (by decide)) _ (Nat.mod_lt _ (by decide)) h3
  have d2 := hexChar_inj _ (Nat.mod_lt _ (by decide)) _ (Nat.mod_lt _ (by decide)) h2
  have d1 := hexChar_inj _ (Nat.mod_lt _ (by decide)) _ (Nat.mod_lt _ (by decide)) h1
  have d0 := hexChar_inj _ (Nat.mod_lt _ (by decide)) _ (Nat.mod_lt _ (by decide)) h0
  exact ⟨by omega, htail⟩

theorem hex4_sealed (n : ℕ) : Sealed (hex4 n).toList := by
  have hdigit : ∀ d, hexChar (d % 16) ≠ '"' ∧ hexChar (d % 16) ≠ '\\' :=
    fun d => hexChar_ne _ (Nat.mod_lt _ (by decide))
  refine Sealed.of_forall fun c hc => ?_
  rw [hex4_toList] at hc
  simp only [List.mem_cons, List.not_mem_nil, or_false] at hc
  rcases hc with rfl | rfl | rfl | rfl <;> exact hdigit _

/-- The character after the backslash in a short escape. -/
def shortEscape (c : Char) : Option Char :=
  if c = '"' then some '"' else if c = '\\' then some '\\' else if c.toNat = 8 then some 'b'
  else if c.toNat = 12 then some 'f' else if c = '\n' then some 'n'
  else if c = '\r' then some 'r' else if c = '\t' then some 't' else none

/-- The forms of an escaped character: itself, a short escape, or a hexadecimal one, in one part
or two. -/
inductive Escaped (c : Char) : List Char → Prop
  | verbatim : c.toNat < 0x7F → c ≠ '"' → c ≠ '\\' → Escaped c [c]
  | short (e : Char) : c.toNat < 0x7F → shortEscape c = some e → Escaped c ['\\', e]
  | hex (n : ℕ) (more : List Char) : n < 0x10000 → Sealed more →
      (c.toNat < 0x7F → n = c.toNat ∧ more = []) → (0x7F ≤ c.toNat → 0x7F ≤ n) →
      Escaped c ('\\' :: 'u' :: ((hex4 n).toList ++ more))

theorem jsonChar_escaped (c : Char) : Escaped c (jsonChar c).toList := by
  have hshort : ∀ e : Char, c.toNat < 0x7F → shortEscape c = some e →
      (jsonChar c).toList = ['\\', e] → Escaped c (jsonChar c).toList := by
    intro e hlow he heq
    exact heq ▸ Escaped.short e hlow he
  by_cases hq : c = '"'
  · subst hq
    exact hshort '"' (by decide) (by decide) (by decide)
  by_cases hb : c = '\\'
  · subst hb
    exact hshort '\\' (by decide) (by decide) (by decide)
  by_cases h8 : c.toNat = 8
  · exact hshort 'b' (by omega) (by simp [shortEscape, hq, hb, h8]) (by simp [jsonChar, hq, hb, h8])
  by_cases h12 : c.toNat = 12
  · exact hshort 'f' (by omega) (by simp [shortEscape, hq, hb, h12])
      (by simp [jsonChar, hq, hb, h12])
  by_cases hn : c = '\n'
  · subst hn
    exact hshort 'n' (by decide) (by decide) (by decide)
  by_cases hr : c = '\r'
  · subst hr
    exact hshort 'r' (by decide) (by decide) (by decide)
  by_cases ht : c = '\t'
  · subst ht
    exact hshort 't' (by decide) (by decide) (by decide)
  unfold jsonChar
  simp only [if_neg hq, if_neg hb, if_neg h8, if_neg h12, if_neg hn, if_neg hr, if_neg ht]
  by_cases hascii : 0x20 ≤ c.toNat ∧ c.toNat ≤ 0x7E
  · rw [if_pos hascii, String.toList_singleton]
    exact Escaped.verbatim (by omega) hq hb
  rw [if_neg hascii]
  by_cases hbmp : c.toNat < 0x10000
  · rw [if_pos hbmp, String.toList_append]
    have hform := Escaped.hex (c := c) c.toNat [] hbmp Sealed.nil (fun _ => ⟨rfl, rfl⟩) fun h => h
    rw [List.append_nil] at hform
    exact hform
  · have hmax : c.toNat < 0x110000 := by
      have hvalid := c.valid
      rcases hvalid with h | h
      · exact lt_trans h (by decide)
      · exact h.2
    rw [if_neg hbmp, String.toList_append, String.toList_append, String.toList_append,
      List.append_assoc, List.append_assoc]
    refine Escaped.hex _ _ (by omega) ?_ (fun h => absurd h (by omega)) (fun _ => by omega)
    exact (Sealed.pair 'u').append (hex4_sealed _)

theorem Escaped.sealed {c : Char} {l : List Char} (h : Escaped c l) : Sealed l := by
  cases h with
  | verbatim _ hq hb => exact Sealed.singleton hq hb
  | short e _ _ => exact Sealed.pair e
  | hex n more _ hmore _ _ => exact (Sealed.pair 'u').append ((hex4_sealed n).append hmore)

theorem Escaped.ne_nil {c : Char} {l : List Char} (h : Escaped c l) : l ≠ [] := by
  cases h <;> exact List.cons_ne_nil _ _

/-- The code point of the character that a short escape stands for. -/
def shortCode (e : Char) : ℕ :=
  if e = '"' then 34 else if e = '\\' then 92 else if e = 'b' then 8 else if e = 'f' then 12
  else if e = 'n' then 10 else if e = 'r' then 13 else 9

theorem shortCode_eq {c e : Char} (h : shortEscape c = some e) : shortCode e = c.toNat ∧ e ≠ 'u' := by
  unfold shortEscape at h
  split at h
  · cases h; subst c; decide
  split at h
  · cases h; subst c; decide
  split at h
  · rename_i h8; cases h; rw [h8]; decide
  split at h
  · rename_i h12; cases h; rw [h12]; decide
  split at h
  · cases h; subst c; decide
  split at h
  · cases h; subst c; decide
  split at h
  · cases h; subst c; decide
  · cases h

/-- **An escaped character is read back**, if it is one of the lower ones. -/
theorem Escaped.append_inj {c d : Char} {l l' x y : List Char} (h : Escaped c l)
    (h' : Escaped d l') (hd : d.toNat < 0x7F) (heq : l ++ x = l' ++ y) : c = d ∧ x = y := by
  cases h with
  | verbatim _ hq hb =>
    cases h' with
    | verbatim _ hq' hb' => exact List.cons.inj heq
    | short e' _ _ => exact absurd (List.cons.inj heq).1 hb
    | hex n' more' _ _ _ _ => exact absurd (List.cons.inj heq).1 hb
  | short e _ he =>
    cases h' with
    | verbatim _ hq' hb' => exact absurd (List.cons.inj heq).1.symm hb'
    | short e' _ he' =>
      obtain ⟨rfl, htail⟩ := List.cons.inj (List.cons.inj heq).2
      have hcode := (shortCode_eq he).1.symm.trans (shortCode_eq he').1
      exact ⟨Char.toNat_inj.1 hcode, htail⟩
    | hex n' more' _ _ _ _ =>
      exact absurd (List.cons.inj (List.cons.inj heq).2).1 (shortCode_eq he).2
  | hex n more hn _ hlow hhigh =>
    cases h' with
    | verbatim _ hq' hb' => exact absurd (List.cons.inj heq).1.symm hb'
    | short e' _ he' =>
      exact absurd (List.cons.inj (List.cons.inj heq).2).1.symm (shortCode_eq he').2
    | hex n' more' hn' _ hlow' _ =>
      obtain ⟨rfl, rfl⟩ := hlow' hd
      have htail : (hex4 n).toList ++ more ++ x = (hex4 d.toNat).toList ++ [] ++ y :=
        (List.cons.inj (List.cons.inj heq).2).2
      rw [List.append_assoc, List.append_assoc] at htail
      obtain ⟨rfl, hrest⟩ := hex4_append_inj hn hn' htail
      have hc : c.toNat < 0x7F := by
        by_contra hge
        have hle := hhigh (not_lt.1 hge)
        omega
      obtain ⟨hcode, rfl⟩ := hlow hc
      exact ⟨Char.toNat_inj.1 hcode.symm, hrest⟩

/-- The first character of an escaped one is a lower one. -/
theorem Escaped.head_lt {c : Char} {l : List Char} (h : Escaped c l) :
    ∃ a r, l = a :: r ∧ a.toNat < 0x7F := by
  cases h with
  | verbatim hlow _ _ => exact ⟨c, [], rfl, hlow⟩
  | short e _ _ => exact ⟨'\\', [e], rfl, by decide⟩
  | hex n more _ _ _ _ => exact ⟨'\\', _, rfl, by decide⟩

/-- A quote in an escaped character is the escape of a quote. -/
theorem Escaped.quote {c : Char} {l p r : List Char} (h : Escaped c l) (hlow : c.toNat < 0x7F)
    (hl : l = p ++ '"' :: r) : c = '"' ∧ r = [] := by
  have hmem : '"' ∈ l := hl ▸ List.mem_append_right p List.mem_cons_self
  cases h with
  | verbatim _ hq _ => exact absurd (List.mem_singleton.1 hmem).symm hq
  | short e _ he =>
    rcases p with _ | ⟨a, _ | ⟨b, p⟩⟩
    · exact absurd (List.cons.inj hl).1 (by decide)
    · obtain ⟨rfl, rfl⟩ := List.cons.inj (List.cons.inj hl).2
      have hcode : '"'.toNat = c.toNat := (shortCode_eq he).1
      exact ⟨(Char.toNat_inj.1 hcode).symm, rfl⟩
    · have hlen := congrArg List.length hl
      simp at hlen
  | hex n more _ _ hcode _ =>
    obtain ⟨-, rfl⟩ := hcode hlow
    have hdigit : ∀ d, '"' ≠ hexChar (d % 16) :=
      fun d h => (hexChar_ne _ (Nat.mod_lt _ (by decide))).1 h.symm
    rw [List.append_nil, hex4_toList] at hmem
    simp [hdigit] at hmem

/-! ## Bodies -/

/-- The text between the quotes of a literal, with `ensure_ascii`. -/
def asciiBody (s : List Char) : List Char := s.flatMap fun c => (jsonChar c).toList

/-- The text between the quotes of a literal, without. -/
def rawBody (s : List Char) : List Char := s.flatMap fun c => (jsonCharRaw c).toList

/-- Text that the two escape alike. -/
def LowText (s : String) : Prop := ∀ c ∈ s.toList, c.toNat < 0x7F

theorem jsonCharRaw_sealed (c : Char) : Sealed (jsonCharRaw c).toList := by
  unfold jsonCharRaw
  split
  · exact (jsonChar_escaped c).sealed
  · rename_i hhigh
    rw [String.toList_singleton]
    refine Sealed.singleton ?_ ?_
    · rintro rfl
      exact hhigh (by decide)
    · rintro rfl
      exact hhigh (by decide)

theorem asciiBody_sealed (s : List Char) : Sealed (asciiBody s) :=
  Sealed.flatMap fun c _ => (jsonChar_escaped c).sealed

theorem rawBody_sealed (s : List Char) : Sealed (rawBody s) :=
  Sealed.flatMap fun c _ => jsonCharRaw_sealed c

theorem jsonCharRaw_ne_nil (c : Char) : (jsonCharRaw c).toList ≠ [] := by
  unfold jsonCharRaw
  split
  · exact (jsonChar_escaped c).ne_nil
  · rw [String.toList_singleton]
    exact List.cons_ne_nil _ _

theorem jsonChar_append_inj {c d : Char} {x y : List Char}
    (h : (jsonChar c).toList ++ x = (jsonCharRaw d).toList ++ y) :
    c = d ∧ c.toNat < 0x7F ∧ x = y := by
  unfold jsonCharRaw at h
  split at h
  · rename_i hlow
    obtain ⟨rfl, hxy⟩ := (jsonChar_escaped c).append_inj (jsonChar_escaped d) hlow h
    exact ⟨rfl, hlow, hxy⟩
  · rename_i hhigh
    obtain ⟨a, r, hl, ha⟩ := (jsonChar_escaped c).head_lt
    rw [hl, String.toList_singleton] at h
    rw [(List.cons.inj h).1] at ha
    exact absurd ha hhigh

/-- **The two escapings agree** on texts of lower characters, and there only. -/
theorem asciiBody_eq_rawBody {s t : List Char} :
    asciiBody s = rawBody t ↔ s = t ∧ ∀ c ∈ s, c.toNat < 0x7F := by
  constructor
  · intro h
    induction s generalizing t with
    | nil =>
      cases t with
      | nil => exact ⟨rfl, fun c hc => absurd hc List.not_mem_nil⟩
      | cons d t =>
        have hnil := (List.append_eq_nil_iff.1 h.symm).1
        exact absurd hnil (jsonCharRaw_ne_nil d)
    | cons c s ih =>
      cases t with
      | nil =>
        have hnil := (List.append_eq_nil_iff.1 h).1
        exact absurd hnil (jsonChar_escaped c).ne_nil
      | cons d t =>
        obtain ⟨rfl, hlow, htail⟩ := jsonChar_append_inj h
        obtain ⟨rfl, hall⟩ := ih htail
        exact ⟨rfl, List.forall_mem_cons.2 ⟨hlow, hall⟩⟩
  · rintro ⟨rfl, hall⟩
    unfold asciiBody rawBody
    refine List.flatMap_congr fun c hc => ?_
    rw [jsonCharRaw, if_pos (hall c hc)]

/-- A quote in a body is the escape of a quote. -/
theorem quote_in_rawBody {s p q : List Char} (h : rawBody s = p ++ '"' :: q) :
    ∃ s₁ s₂, s = s₁ ++ '"' :: s₂ ∧ q = rawBody s₂ := by
  induction s generalizing p with
  | nil =>
    have hnil := (List.append_eq_nil_iff.1 h.symm).2
    exact absurd hnil (List.cons_ne_nil _ _)
  | cons c s ih =>
    have hsplit : (jsonCharRaw c).toList ++ rawBody s = p ++ '"' :: q := h
    rcases List.append_eq_append_iff.1 hsplit with ⟨r, -, hr⟩ | ⟨r, hr, hq⟩
    · obtain ⟨s₁, s₂, rfl, rfl⟩ := ih hr
      exact ⟨c :: s₁, s₂, rfl, rfl⟩
    · cases r with
      | nil =>
        obtain ⟨s₁, s₂, rfl, rfl⟩ := ih (p := []) hq.symm
        exact ⟨c :: s₁, s₂, rfl, rfl⟩
      | cons a r =>
        -- the quote belongs to this character's escape
        obtain ⟨rfl, rfl⟩ := List.cons.inj hq
        unfold jsonCharRaw at hr
        split at hr
        · rename_i hlow
          obtain ⟨rfl, rfl⟩ := (jsonChar_escaped c).quote hlow hr
          exact ⟨[], s, rfl, rfl⟩
        · rename_i hhigh
          rw [String.toList_singleton] at hr
          have hmem : '"' ∈ [c] := hr ▸ List.mem_append_right p List.mem_cons_self
          rw [← List.mem_singleton.1 hmem] at hhigh
          exact absurd (by decide) hhigh

theorem rawBody_quote (s₁ s₂ : List Char) :
    ∃ p, rawBody (s₁ ++ '"' :: s₂) = p ++ '"' :: rawBody s₂ := by
  refine ⟨rawBody s₁ ++ ['\\'], ?_⟩
  have hquote : (jsonCharRaw '"').toList = ['\\', '"'] := by decide
  rw [rawBody, List.flatMap_append, List.flatMap_cons, hquote, List.append_assoc]
  rfl

/-! ## The stored text and the needle -/

/-- An entry, and what follows it. -/
def entryText (e : String × String) (rest : List Char) : List Char :=
  '"' :: (rawBody e.1.toList ++ '"' :: ':' :: ' ' :: '"' :: (rawBody e.2.toList ++ '"' :: rest))

/-- What follows an entry. -/
def restText : List (String × String) → List Char
  | [] => ['}']
  | e :: m => ',' :: ' ' :: entryText e (restText m)

/-- The needle without its first quote. -/
def needleTail (s v : String) : List Char :=
  asciiBody s.toList ++ '"' :: ':' :: ' ' :: '"' :: (asciiBody v.toList ++ ['"'])

theorem jsonStringRaw_toList (s : String) :
    (jsonStringRaw s).toList = '"' :: (rawBody s.toList ++ ['"']) := by
  rw [jsonStringRaw, String.toList_append, String.toList_append, String.toList_join,
    List.flatMap_map]
  rfl

theorem externalIdNeedle_toList (s v : String) :
    (externalIdNeedle s v).toList = '"' :: needleTail s v := by
  have hstring : ∀ t, (jsonString t).toList = '"' :: (asciiBody t.toList ++ ['"']) := by
    intro t
    rw [jsonString, String.toList_append, String.toList_append, String.toList_join,
      List.flatMap_map]
    rfl
  rw [externalIdNeedle, String.toList_append, String.toList_append, hstring, hstring, needleTail]
  simp

theorem jsonDumps_toList (e : String × String) (m : List (String × String)) :
    (jsonDumps (e :: m)).toList = '{' :: entryText e (restText m) := by
  have hentry : ∀ (e : String × String) (rest : List Char),
      (jsonStringRaw e.1 ++ ": " ++ jsonStringRaw e.2).toList ++ rest = entryText e rest := by
    intro e rest
    rw [String.toList_append, String.toList_append, jsonStringRaw_toList, jsonStringRaw_toList]
    simp [entryText]
  have hjoin : ∀ (m : List (String × String)) (e : String × String),
      (joinWith ", " ((e :: m).map fun e => jsonStringRaw e.1 ++ ": " ++ jsonStringRaw e.2)).toList ++
        ['}'] = entryText e (restText m) := by
    intro m
    induction m with
    | nil => exact fun e => hentry e ['}']
    | cons e' m ih =>
      intro e
      have hrest := ih e'
      rw [List.map_cons] at hrest
      rw [List.map_cons, List.map_cons, joinWith, String.toList_append, String.toList_append,
        List.append_assoc, List.append_assoc, hrest, hentry]
      · rfl
      · exact fun h => absurd h (List.cons_ne_nil _ _)
  rw [jsonDumps, String.toList_append, String.toList_append]
  exact congrArg (List.cons '{') (hjoin m e)

/-! ## Where the needle begins -/

/-- The end of a text, from its start or from one of its quotes on. -/
def EndsWith (s t : String) : Prop := s = t ∨ '"' :: s.toList <:+ t.toList

variable {s v w : String} {rest : List Char}

theorem needleTail_starts {q : List Char} : needleTail s v <+: q ↔ ∃ z,
    asciiBody s.toList ++ '"' :: ':' :: ' ' :: '"' :: (asciiBody v.toList ++ '"' :: z) = q := by
  unfold needleTail
  refine exists_congr fun z => ?_
  simp

/-- A needle that begins in a key: the key ends with the scheme, and the value is the value. -/
theorem needle_in_key {k : List Char} :
    needleTail s v <+: rawBody k ++ '"' :: ':' :: ' ' :: '"' :: (rawBody w.toList ++ '"' :: rest) ↔
      s.toList = k ∧ v = w ∧ LowText s ∧ LowText v := by
  rw [needleTail_starts]
  constructor
  · rintro ⟨z, hz⟩
    obtain ⟨hscheme, hz⟩ := (asciiBody_sealed _).split (rawBody_sealed _) hz
    have hvalue := List.cons.inj (List.cons.inj (List.cons.inj hz).2).2
    obtain ⟨hvalue, -⟩ := (asciiBody_sealed _).split (rawBody_sealed _) hvalue.2
    obtain ⟨rfl, hs⟩ := asciiBody_eq_rawBody.1 hscheme
    obtain ⟨hw, hv⟩ := asciiBody_eq_rawBody.1 hvalue
    exact ⟨rfl, String.toList_inj.1 hw, hs, hv⟩
  · rintro ⟨rfl, rfl, hs, hv⟩
    rw [asciiBody_eq_rawBody.2 ⟨rfl, hs⟩, asciiBody_eq_rawBody.2 ⟨rfl, hv⟩]
    exact ⟨rest, rfl⟩

/-- The separators are sealed, and stand for themselves. -/
theorem separator_body {t : String} (h : asciiBody s.toList = t.toList)
    (ht : rawBody t.toList = t.toList) : s = t := by
  rw [← ht] at h
  exact String.toList_inj.1 (asciiBody_eq_rawBody.1 h).1

theorem colon_sealed : Sealed (": ".toList) := Sealed.of_forall (by decide)

theorem comma_sealed : Sealed (", ".toList) := Sealed.of_forall (by decide)

/-- A needle that begins at the quote after a key. -/
theorem needle_after_key {m : List (String × String)} :
    needleTail s v <+: ':' :: ' ' :: '"' :: (rawBody w.toList ++ '"' :: restText m) ↔
      s = ": " ∧ v = ", " ∧ w = ": " ∧ m ≠ [] := by
  rw [needleTail_starts]
  constructor
  · rintro ⟨z, hz⟩
    obtain ⟨hscheme, hz⟩ := (asciiBody_sealed _).split colon_sealed hz
    obtain ⟨hw, hz⟩ := colon_sealed.split (rawBody_sealed _) hz
    cases m with
    | nil =>
      have hmem : '"' ∈ restText [] := hz ▸ List.mem_append_right _ List.mem_cons_self
      exact absurd hmem (by decide)
    | cons e m =>
      obtain ⟨hvalue, -⟩ := (asciiBody_sealed _).split comma_sealed hz
      refine ⟨separator_body hscheme (by decide), separator_body hvalue (by decide), ?_,
        List.cons_ne_nil e m⟩
      have hcolon : asciiBody (": ".toList) = rawBody w.toList := hw ▸ (by decide)
      exact (String.toList_inj.1 (asciiBody_eq_rawBody.1 hcolon).1).symm
  · rintro ⟨rfl, rfl, rfl, hm⟩
    obtain ⟨e, m, rfl⟩ := List.exists_cons_of_ne_nil hm
    exact ⟨_, rfl⟩

/-- No needle begins in a value. -/
theorem needle_in_value {k : List Char} {m : List (String × String)} :
    ¬needleTail s v <+: rawBody k ++ '"' :: restText m := by
  rw [needleTail_starts]
  rintro ⟨z, hz⟩
  obtain ⟨-, hz⟩ := (asciiBody_sealed _).split (rawBody_sealed _) hz
  cases m with
  | nil => exact absurd (List.cons.inj hz).1 (by decide)
  | cons e m => exact absurd (List.cons.inj hz).1 (by decide)

/-- A needle that begins at the quote after a value. -/
theorem needle_after_value {m : List (String × String)} :
    needleTail s v <+: restText m ↔ s = ", " ∧ v = ": " ∧ ∃ e ∈ m.head?, e.1 = ": " := by
  rw [needleTail_starts]
  constructor
  · rintro ⟨z, hz⟩
    cases m with
    | nil =>
      have hmem : '"' ∈ restText [] := hz ▸ List.mem_append_right _ List.mem_cons_self
      exact absurd hmem (by decide)
    | cons e m =>
      obtain ⟨hscheme, hz⟩ := (asciiBody_sealed _).split comma_sealed hz
      obtain ⟨hk, hz⟩ := colon_sealed.split (rawBody_sealed _) hz
      obtain ⟨hvalue, -⟩ := (asciiBody_sealed _).split colon_sealed hz
      refine ⟨separator_body hscheme (by decide), separator_body hvalue (by decide), e, rfl, ?_⟩
      have hcolon : asciiBody (": ".toList) = rawBody e.1.toList := hk ▸ (by decide)
      exact (String.toList_inj.1 (asciiBody_eq_rawBody.1 hcolon).1).symm
  · rintro ⟨rfl, rfl, e, he, hk⟩
    cases m with
    | nil => cases he
    | cons e' m =>
      cases he
      have hbody : rawBody e.1.toList = ": ".toList := by
        rw [hk]
        decide
      rw [restText, entryText, hbody]
      exact ⟨_, rfl⟩

/-- The quotes of a literal and of what follows it: a quote in the literal, the one that closes
it, or a later one. -/
theorem literal_suffix {t y q : List Char} : '"' :: q <:+ '"' :: (rawBody t ++ '"' :: y) ↔
    (∃ k, (k = t ∨ '"' :: k <:+ t) ∧ q = rawBody k ++ '"' :: y) ∨ q = y ∨ '"' :: q <:+ y := by
  rw [List.suffix_cons_iff, suffix_append_iff, List.suffix_cons_iff]
  constructor
  · rintro (h | (h | h) | ⟨p, r, hbody, rfl⟩)
    · exact Or.inl ⟨t, Or.inl rfl, (List.cons.inj h).2⟩
    · exact Or.inr (Or.inl (List.cons.inj h).2)
    · exact Or.inr (Or.inr h)
    · obtain ⟨s₁, s₂, rfl, rfl⟩ := quote_in_rawBody hbody
      exact Or.inl ⟨s₂, Or.inr (List.suffix_append s₁ _), rfl⟩
  · rintro (⟨k, rfl | ⟨p, rfl⟩, rfl⟩ | rfl | h)
    · exact Or.inl rfl
    · obtain ⟨p', hp'⟩ := rawBody_quote p k
      exact Or.inr (Or.inr ⟨p', rawBody k, hp', rfl⟩)
    · exact Or.inr (Or.inl (Or.inl rfl))
    · exact Or.inr (Or.inl (Or.inr h))

/-- Where the needle stands in an entry and what follows it. -/
theorem needle_infix_entry {e : String × String} {m : List (String × String)} :
    '"' :: needleTail s v <:+: entryText e (restText m) ↔
      (EndsWith s e.1 ∧ v = e.2 ∧ LowText s ∧ LowText v) ∨
        (s = ": " ∧ v = ", " ∧ e.2 = ": " ∧ m ≠ []) ∨
          (s = ", " ∧ v = ": " ∧ ∃ e' ∈ m.head?, e'.1 = ": ") ∨
            '"' :: needleTail s v <:+: restText m := by
  have hne : ∀ {c : Char} {x q : List Char}, c ≠ '"' → ('"' :: q <:+ c :: x ↔ '"' :: q <:+ x) :=
    fun h => suffix_cons_of_ne h
  rw [infix_cons_iff, infix_cons_iff]
  unfold entryText
  simp only [literal_suffix, hne (show ':' ≠ '"' by decide), hne (show ' ' ≠ '"' by decide)]
  constructor
  · rintro ⟨q, (⟨k, hk, rfl⟩ | rfl | ⟨w, -, rfl⟩ | rfl | hrest), hq⟩
    · obtain ⟨rfl, rfl, hs, hv⟩ := needle_in_key.1 hq
      refine Or.inl ⟨?_, rfl, hs, hv⟩
      exact hk.imp (fun h => String.toList_inj.1 h) id
    · exact Or.inr (Or.inl (needle_after_key.1 hq))
    · exact absurd hq needle_in_value
    · exact Or.inr (Or.inr (Or.inl (needle_after_value.1 hq)))
    · exact Or.inr (Or.inr (Or.inr ⟨q, hrest, hq⟩))
  · rintro (⟨hk, rfl, hs, hv⟩ | h | h | ⟨q, hrest, hq⟩)
    · refine ⟨_, Or.inl ⟨s.toList, ?_, rfl⟩, needle_in_key.2 ⟨rfl, rfl, hs, hv⟩⟩
      exact hk.imp (fun h => congrArg String.toList h) id
    · exact ⟨_, Or.inr (Or.inl rfl), needle_after_key.2 h⟩
    · exact ⟨_, Or.inr (Or.inr (Or.inr (Or.inl rfl))), needle_after_value.2 h⟩
    · exact ⟨q, Or.inr (Or.inr (Or.inr (Or.inr hrest))), hq⟩

/-- Where the needle stands in the stored text. -/
theorem needle_infix {e : String × String} {m : List (String × String)} :
    '"' :: needleTail s v <:+: entryText e (restText m) ↔
      (∃ x ∈ e :: m, EndsWith s x.1 ∧ v = x.2 ∧ LowText s ∧ LowText v) ∨
        (s = ": " ∧ v = ", " ∧ ∃ x ∈ (e :: m).dropLast, x.2 = ": ") ∨
          s = ", " ∧ v = ": " ∧ ∃ x ∈ m, x.1 = ": " := by
  induction m generalizing e with
  | nil =>
    have hend : ¬ '"' :: needleTail s v <:+: restText [] := by
      intro h
      have hmem : '"' ∈ restText [] := h.subset List.mem_cons_self
      exact absurd hmem (by decide)
    rw [needle_infix_entry]
    simp [hend]
  | cons e' m ih =>
    have hrest : '"' :: needleTail s v <:+: restText (e' :: m) ↔
        '"' :: needleTail s v <:+: entryText e' (restText m) := by
      rw [restText, infix_cons_iff, infix_cons_iff]
      simp only [suffix_cons_of_ne (show ',' ≠ '"' by decide),
        suffix_cons_of_ne (show ' ' ≠ '"' by decide)]
    rw [needle_infix_entry, hrest, ih, List.dropLast_cons_of_ne_nil (List.cons_ne_nil e' m)]
    have hhead : (∃ x ∈ (e' :: m).head?, x.1 = ": ") ↔ e'.1 = ": " := by simp
    rw [hhead]
    simp only [List.exists_mem_cons_iff]
    constructor
    · rintro (h | ⟨hs, hv, hval, -⟩ | ⟨hs, hv, hkey⟩ | h | ⟨hs, hv, h⟩ | ⟨hs, hv, h⟩)
      · exact Or.inl (Or.inl h)
      · exact Or.inr (Or.inl ⟨hs, hv, Or.inl hval⟩)
      · exact Or.inr (Or.inr ⟨hs, hv, Or.inl hkey⟩)
      · exact Or.inl (Or.inr h)
      · exact Or.inr (Or.inl ⟨hs, hv, Or.inr h⟩)
      · exact Or.inr (Or.inr ⟨hs, hv, Or.inr h⟩)
    · rintro ((h | h) | ⟨hs, hv, hval | h⟩ | ⟨hs, hv, hkey | h⟩)
      · exact Or.inl h
      · exact Or.inr (Or.inr (Or.inr (Or.inl h)))
      · exact Or.inr (Or.inl ⟨hs, hv, hval, List.cons_ne_nil e' m⟩)
      · exact Or.inr (Or.inr (Or.inr (Or.inr (Or.inl ⟨hs, hv, h⟩))))
      · exact Or.inr (Or.inr (Or.inl ⟨hs, hv, hkey⟩))
      · exact Or.inr (Or.inr (Or.inr (Or.inr (Or.inr ⟨hs, hv, h⟩))))

/-- Where the needle stands in the stored text of a map. -/
theorem needle_infix_jsonDumps {m : List (String × String)} :
    '"' :: needleTail s v <:+: (jsonDumps m).toList ↔
      (∃ x ∈ m, EndsWith s x.1 ∧ v = x.2 ∧ LowText s ∧ LowText v) ∨
        (s = ": " ∧ v = ", " ∧ ∃ x ∈ m.dropLast, x.2 = ": ") ∨
          s = ", " ∧ v = ": " ∧ ∃ x ∈ m.tail, x.1 = ": " := by
  cases m with
  | nil =>
    have hempty : ¬ '"' :: needleTail s v <:+: (jsonDumps []).toList := by
      intro h
      have hmem : '"' ∈ (jsonDumps []).toList := h.subset List.mem_cons_self
      exact absurd hmem (by decide)
    simp [hempty]
  | cons e m =>
    rw [jsonDumps_toList, infix_cons_iff]
    simp only [suffix_cons_of_ne (show '{' ≠ '"' by decide)]
    rw [← infix_cons_iff]
    exact needle_infix

/-! ## Exactness -/

/-- The ways in which the stored text contains the needle of an entry that the map does not have. -/
inductive Misread (m : List (String × String)) (s v : String) : Prop
  /-- A key that ends with a quote and the scheme has the value. -/
  | quotedKey (e : String × String) : e ∈ m → '"' :: s.toList <:+ e.1.toList → e.2 = v →
      LowText s → LowText v → Misread m s v
  /-- The separators around a value that looks like one. -/
  | afterKey (e : String × String) : s = ": " → v = ", " → e ∈ m.dropLast → e.2 = ": " →
      Misread m s v
  /-- The separators around a key that looks like one. -/
  | afterValue (e : String × String) : s = ", " → v = ": " → e ∈ m.tail → e.1 = ": " →
      Misread m s v

/-- **The substring test is exact** for a map, a scheme and a value iff both texts are below
`U+007F` if the map sends the one to the other, and the needle is not misread if it does not. -/
theorem external_ids_exact_iff (m : List (String × String)) (s v : String) :
    (containsText (jsonDumps m) (externalIdNeedle s v) = true ↔ (s, v) ∈ m) ↔
      ((s, v) ∈ m → LowText s ∧ LowText v) ∧ ((s, v) ∉ m → ¬Misread m s v) := by
  rw [containsText, decide_eq_true_iff, externalIdNeedle_toList, needle_infix_jsonDumps]
  constructor
  · intro h
    refine ⟨fun hmem => ?_, fun hnot hmis => ?_⟩
    · rcases h.2 hmem with ⟨e, -, -, -, hlow⟩ | ⟨rfl, rfl, -⟩ | ⟨rfl, rfl, -⟩
      · exact hlow
      · exact ⟨by unfold LowText; decide, by unfold LowText; decide⟩
      · exact ⟨by unfold LowText; decide, by unfold LowText; decide⟩
    · refine hnot (h.1 ?_)
      cases hmis with
      | quotedKey e he hk hv hs hlow => exact Or.inl ⟨e, he, Or.inr hk, hv.symm, hs, hlow⟩
      | afterKey e hs hv he hval => exact Or.inr (Or.inl ⟨hs, hv, e, he, hval⟩)
      | afterValue e hs hv he hkey => exact Or.inr (Or.inr ⟨hs, hv, e, he, hkey⟩)
  · rintro ⟨hin, hout⟩
    constructor
    · intro h
      by_contra hnot
      refine hout hnot ?_
      rcases h with ⟨e, he, hk | hk, hv, hs, hlow⟩ | ⟨hs, hv, e, he, hval⟩ | ⟨hs, hv, e, he, hkey⟩
      · exact absurd (hk ▸ hv ▸ he) hnot
      · exact Misread.quotedKey e he hk hv.symm hs hlow
      · exact Misread.afterKey e hs hv he hval
      · exact Misread.afterValue e hs hv he hkey
    · intro hmem
      exact Or.inl ⟨(s, v), hmem, Or.inl rfl, rfl, hin hmem⟩

/-- **A stored id that is not ASCII is not found.** -/
theorem external_ids_missed :
    ¬(containsText (jsonDumps [("knesset_person_id", "30א")])
        (externalIdNeedle "knesset_person_id" "30א") = true ↔
      ("knesset_person_id", "30א") ∈ [("knesset_person_id", "30א")]) := by
  decide

/-- An id that nobody has may be found as well. -/
example : containsText (jsonDumps [("old \"id", "30")]) (externalIdNeedle "id" "30") = true := by
  decide

end CivicProof
