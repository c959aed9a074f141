import Mathlib.Data.List.Basic
import Mathlib.Logic.Function.Basic

/-!
# Backtracking regular expressions

The fragment of Perl-style regular expressions in which a quantifier stands over
one character class, with named groups and zero-width assertions, and the search
order of a backtracking engine: alternatives left to right, greedy repetitions
longest first, lazy ones shortest first.

* `Re.run`: the matcher, in continuation-passing style (the first success in the
  search order is the answer).
* `Re.search`, `Re.finditer`: the leftmost match, and all non-overlapping ones.
* `Re.findall`, `Re.split`, `Re.erase`: what they capture, what is between them, and that without
  them.
-/

namespace CivicProof.Regex

/-- A regular expression over characters, with groups named by `N`. -/
inductive Re (N : Type) where
  | eps
  /-- One character of a class. -/
  | set (p : Char → Bool)
  | seq (a b : Re N)
  /-- Ordered choice: `a` first. -/
  | alt (a b : Re N)
  /-- `lo` to `hi` characters of a class (`hi = none`: no upper bound). -/
  | rep (p : Char → Bool) (lo : ℕ) (hi : Option ℕ) (greedy : Bool)
  | group (n : N) (a : Re N)
  /-- A zero-width test of the characters before (last one first) and after. -/
  | assert (t : List Char → List Char → Bool)

namespace Re

variable {N : Type}

/-- `a?`, greedy. -/
def opt (a : Re N) : Re N := .alt a .eps

/-- The expressions of a list one after the other. -/
def cat : List (Re N) → Re N
  | [] => .eps
  | [a] => a
  | a :: l => .seq a (cat l)

/-- Ordered choice among a list (no expression: the empty choice matches nothing). -/
def any : List (Re N) → Re N
  | [] => .set fun _ => false
  | [a] => a
  | a :: l => .alt a (any l)

/-- The characters of a literal, each through `f` (which may ignore case). -/
def lit (f : Char → Char → Bool) (s : String) : Re N := cat (s.toList.map fun c => .set (f c))

/-- `\Z`: the end of the text. -/
def eos : Re N := .assert fun _ post => post.isEmpty

end Re

/-- The groups captured so far. -/
abbrev Caps (N : Type) := N → Option (List Char)

variable {N : Type} [DecidableEq N] {β : Type}

/-- A greedy repetition: one more character if the class and the bound allow it,
otherwise (or when that fails) the rest of the expression. -/
def runGreedy (p : Char → Bool) (k : List Char → List Char → Option β) :
    ℕ → Option ℕ → List Char → List Char → Option β
  | lo, _, pre, [] => if lo = 0 then k pre [] else none
  | lo, hi, pre, c :: cs =>
    (if p c ∧ hi ≠ some 0 then runGreedy p k (lo - 1) (hi.map (· - 1)) (c :: pre) cs else none).or
      (if lo = 0 then k pre (c :: cs) else none)

/-- A lazy repetition: the rest of the expression first. -/
def runLazy (p : Char → Bool) (k : List Char → List Char → Option β) :
    ℕ → Option ℕ → List Char → List Char → Option β
  | lo, _, pre, [] => if lo = 0 then k pre [] else none
  | lo, hi, pre, c :: cs =>
    (if lo = 0 then k pre (c :: cs) else none).or
      (if p c ∧ hi ≠ some 0 then runLazy p k (lo - 1) (hi.map (· - 1)) (c :: pre) cs else none)

/-- **The matcher.** `pre` is the text already consumed, last character first,
`post` the text ahead; `k` continues after a match. -/
def Re.run : Re N → (Caps N → List Char → List Char → Option β) →
    Caps N → List Char → List Char → Option β
  | .eps, k, g, pre, post => k g pre post
  | .set p, k, g, pre, post =>
    match post with
    | [] => none
    | c :: cs => if p c then k g (c :: pre) cs else none
  | .seq a b, k, g, pre, post => a.run (b.run k) g pre post
  | .alt a b, k, g, pre, post => (a.run k g pre post).or (b.run k g pre post)
  | .rep p lo hi true, k, g, pre, post => runGreedy p (k g) lo hi pre post
  | .rep p lo hi false, k, g, pre, post => runLazy p (k g) lo hi pre post
  | .group n a, k, g, pre, post =>
    a.run (fun g' pre' post' =>
      k (Function.update g' n (some (post.take (pre'.length - pre.length)))) pre' post')
      g pre post
  | .assert t, k, g, pre, post => if t pre post then k g pre post else none

/-- A match: its groups, and its span as start and end positions. -/
structure Match (N : Type) where
  groups : Caps N
  start : ℕ
  stop : ℕ

/-- The match of `r` that begins right after `pre`, if there is one. -/
def Re.matchAt (r : Re N) (pre post : List Char) : Option (Match N) :=
  r.run (fun g pre' _ => some ⟨g, pre.length, pre'.length⟩) (fun _ => none) pre post

/-- The leftmost match at or after `pre`. -/
def Re.searchFrom (r : Re N) (pre : List Char) : List Char → Option (Match N)
  | [] => r.matchAt pre []
  | c :: cs => (r.matchAt pre (c :: cs)).or (r.searchFrom (c :: pre) cs)

/-- The leftmost match in a text. -/
def Re.search (r : Re N) (s : List Char) : Option (Match N) := r.searchFrom [] s

/-- All non-overlapping matches from `pre` on, after skipping `skip` characters.
An expression that can match the empty text is not meant here. -/
def Re.scanFrom (r : Re N) : ℕ → List Char → List Char → List (Match N)
  | 0, pre, [] => (r.matchAt pre []).toList
  | 0, pre, c :: cs =>
    match r.matchAt pre (c :: cs) with
    | some m => m :: r.scanFrom (m.stop - m.start - 1) (c :: pre) cs
    | none => r.scanFrom 0 (c :: pre) cs
  | _ + 1, _, [] => []
  | skip + 1, pre, c :: cs => r.scanFrom skip (c :: pre) cs

/-- All non-overlapping matches in a text, left to right. -/
def Re.finditer (r : Re N) (s : List Char) : List (Match N) := r.scanFrom 0 [] s

/-- What a group captured; the empty text where it took no part. -/
def Match.text (m : Match N) (n : N) : List Char := (m.groups n).getD []

/-- What the group captures in all non-overlapping matches. -/
def Re.findall (r : Re N) (n : N) (s : List Char) : List (List Char) :=
  (r.finditer s).map fun m => m.text n

/-- The parts of a text around some of its matches, from position `i` on. -/
def partsFrom (s : List Char) : ℕ → List (Match N) → List (List Char)
  | i, [] => [s.drop i]
  | i, m :: ms => (s.drop i).take (m.start - i) :: partsFrom s m.stop ms

/-- A text cut at all non-overlapping matches. -/
def Re.split (r : Re N) (s : List Char) : List (List Char) := partsFrom s 0 (r.finditer s)

/-- A text without its non-overlapping matches. -/
def Re.erase (r : Re N) (s : List Char) : List Char := (r.split s).flatten

end CivicProof.Regex
