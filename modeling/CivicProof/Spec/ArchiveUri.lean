import CivicProof.Regex.Language
import CivicProof.Spec.Archive

/-!
# Archive URIs as text

The text of an archive URI (`build_archive_uri`, `put_archive_object`), and `parse_archive_uri`,
which reads it back with a regular expression.
-/

namespace CivicProof

open Regex Re

/-! ## Writing -/

/-- `object_name` of `put_archive_object`: the URI without `s3://<bucket>/`. -/
def ArchiveCoord.objectName (c : ArchiveCoord) : String :=
  c.sourceFamily ++ "/" ++ pad 4 c.day.year ++ "/" ++ pad 2 c.day.month ++ "/" ++
    pad 2 c.day.day ++ "/" ++ c.sha256 ++ "." ++ c.extension

/-- The text of a URI. -/
def ArchiveCoord.text (c : ArchiveCoord) : String := "s3://" ++ c.bucket ++ "/" ++ c.objectName

/-! ## Reading -/

/-- The groups of `_URI_RE`. -/
inductive UriGroup where
  | bucket
  | sourceFamily
  | year
  | month
  | day
  | sha256
  | extension
  deriving DecidableEq, Repr

/-- `[a-z0-9.\-]`. -/
def isBucketChar (c : Char) : Bool := isLowerAlnum c || c == '.' || c == '-'

/-- `[a-z_]`. -/
def isFamilyChar (c : Char) : Bool := ('a' ≤ c && c ≤ 'z') || c == '_'

/-- `[0-9a-f]`. -/
def isLowerHex (c : Char) : Bool := ('0' ≤ c && c ≤ '9') || ('a' ≤ c && c ≤ 'f')

/-- A literal of the pattern. -/
def uriLit (s : String) : Re UriGroup := lit (charEq false) s

/-- `[a-z0-9][a-z0-9.\-]{1,62}`. -/
def bucketPattern : Re UriGroup := cat [.set isLowerAlnum, .rep isBucketChar 1 (some 62) true]

/-- `\d{n}`. -/
def uriDigits (n : ℕ) : Re UriGroup := .rep isDigit n (some n) true

/-- `$`: the end of the text, or before a final newline. -/
def atEnd (post : List Char) : Bool := post == [] || post == ['\n']

/-- `_URI_RE`. -/
def uriPattern : Re UriGroup :=
  cat [uriLit "s3://", .group .bucket bucketPattern, uriLit "/",
    .group .sourceFamily (.rep isFamilyChar 1 none true), uriLit "/",
    .group .year (uriDigits 4), uriLit "/", .group .month (uriDigits 2), uriLit "/",
    .group .day (uriDigits 2), uriLit "/",
    .group .sha256 (.rep isLowerHex 64 (some 64) true), uriLit ".",
    .group .extension (.rep isLowerAlnum 1 none true), .assert fun _ post => atEnd post]

/-- `m.group(g)`. -/
def uriGroup (m : Match UriGroup) (g : UriGroup) : String := String.ofList ((m.groups g).getD [])

/-- `int(m.group(g))`; a group of digits has no sign. -/
def uriNat (m : Match UriGroup) (g : UriGroup) : Except PyError ℕ :=
  ((parseInt (uriGroup m g)).elim (.error .valueError) fun n => .ok n.toNat)

/-- `parse_archive_uri`. -/
def parseArchiveUri (uri : String) : Except PyError ArchiveCoord :=
  match uriPattern.matchAt [] uri.toList with
  | none => .error .valueError
  | some m =>
    if uriGroup m .sourceFamily ∉ sourceFamilies then .error .valueError else do
    let day : CivilDate := ⟨← uriNat m .year, ← uriNat m .month, ← uriNat m .day⟩
    if ¬day.Valid then .error .valueError
    else return ⟨uriGroup m .bucket, uriGroup m .sourceFamily, day, uriGroup m .sha256,
      uriGroup m .extension⟩

/-- `put_archive_object`: where it writes the content to. -/
def putArchiveObject (E : ArchiveEnv) (uri : String) : Except PyError String := do
  let coord ← parseArchiveUri uri
  if coord.bucket ≠ E.bucket then .error .valueError else return coord.objectName

end CivicProof
