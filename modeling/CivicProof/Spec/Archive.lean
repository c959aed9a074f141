import CivicProof.Spec.Temporal

/-!
# Archival

What a call to `archive_payload` is given, the URI that it builds for its content, the row of
`raw_fetch_objects` that it inserts and the record that it returns.
-/

namespace CivicProof

/-! ## Archive URIs -/

/-- What the archive reads from its surroundings. -/
structure ArchiveEnv where
  unicode : Unicode
  /-- `hashlib.sha256(·).hexdigest()`. -/
  sha256 : List UInt8 → String
  /-- `MINIO_BUCKET_ARCHIVE`. -/
  bucket : String

/-- `ArchiveCoord`: an archive URI by its components. -/
structure ArchiveCoord where
  bucket : String
  sourceFamily : String
  day : CivilDate
  sha256 : String
  extension : String
  deriving DecidableEq, Repr

/-- `SOURCE_FAMILIES`. -/
def sourceFamilies : List String := ["knesset", "gov_il", "elections"]

/-- The class `[a-z0-9]`. -/
def isLowerAlnum (c : Char) : Bool := ('a' ≤ c && c ≤ 'z') || ('0' ≤ c && c ≤ '9')

/-- `_normalize_extension`. -/
def normalizeExtension (E : ArchiveEnv) (extension : String) : Except PyError String :=
  let ext := E.unicode.lower (String.ofList ((strip extension).toList.dropWhile (· = '.')))
  if ext = "" then .error .valueError
  else if ext.toList.all isLowerAlnum then .ok ext else .error .valueError

/-- `FetchResult`. Of `fetched_at` the day in UTC counts; a naive time has none. -/
structure FetchResult where
  content : List UInt8
  contentType : String
  fetchedAt : Option CivilDate

/-- `build_archive_uri`. -/
def buildArchiveUri (E : ArchiveEnv) (sourceFamily : String) (capturedAt : Option CivilDate)
    (content : List UInt8) (extension : String) : Except PyError ArchiveCoord :=
  if sourceFamily ∉ sourceFamilies then .error .valueError
  else match capturedAt with
    | none => .error .valueError
    | some day => (normalizeExtension E extension).map fun ext =>
      ⟨E.bucket, sourceFamily, day, E.sha256 content, ext⟩

/-- `_CONTENT_TYPE_EXT`. -/
def contentTypeExt : List (String × String) :=
  [("application/json", "json"), ("application/xml", "xml"), ("application/pdf", "pdf"),
    ("text/html", "html"), ("text/xml", "xml"), ("text/csv", "csv"), ("text/plain", "txt")]

/-- `extension_from_content_type`. -/
def extensionFromContentType (E : ArchiveEnv) (contentType : String) : String :=
  let base := String.ofList (contentType.toList.takeWhile (· ≠ ';'))
  (contentTypeExt.lookup (E.unicode.lower (strip base))).getD "bin"

/-! ## Calls -/

/-- The arguments of `archive_payload`, but for its connection. -/
structure ArchiveCall where
  sourceFamily : String
  sourceUrl : String
  fetchResult : FetchResult
  ingestRunId : ℤ
  sourceTier : ℤ
  extensionHint : Option String

/-- A row of `raw_fetch_objects`. -/
structure RawFetchObject where
  objectId : String
  ingestRunId : ℤ
  sourceUrl : String
  archiveUri : ArchiveCoord
  contentSha256 : String
  contentType : String
  byteSize : ℕ
  sourceTier : ℤ
  deriving DecidableEq, Repr

/-- `ArchiveRecord`. -/
structure ArchiveRecord extends RawFetchObject where
  created : Bool
  deriving DecidableEq, Repr

namespace ArchiveCall

variable (E : ArchiveEnv) (a : ArchiveCall)

/-- `content_sha256` of the content. -/
def digest : String := E.sha256 a.fetchResult.content

/-- The checks that `archive_payload` starts with. -/
def Checked : Prop := a.sourceFamily ∈ sourceFamilies ∧ a.sourceTier ∈ [1, 2, 3]

instance : Decidable a.Checked := inferInstanceAs (Decidable (_ ∧ _))

/-- The URI that the call would store its content under. -/
def uri : Except PyError ArchiveCoord :=
  buildArchiveUri E a.sourceFamily a.fetchResult.fetchedAt a.fetchResult.content
    ((orNone a.extensionHint).getD (extensionFromContentType E a.fetchResult.contentType))

/-- The row that the call would insert. -/
def row (objectId : String) (archiveUri : ArchiveCoord) : RawFetchObject where
  objectId := objectId
  ingestRunId := a.ingestRunId
  sourceUrl := a.sourceUrl
  archiveUri := archiveUri
  contentSha256 := a.digest E
  contentType := a.fetchResult.contentType
  byteSize := a.fetchResult.content.length
  sourceTier := a.sourceTier

/-- The texts that the call brings to the row can be stored; the other texts of the row are plain. -/
def storable : Bool := storableText a.sourceUrl && storableText a.fetchResult.contentType

/-- The record of a row that is there already. -/
def existing (row : RawFetchObject) : ArchiveRecord :=
  { row with
    contentType := (orNone (some row.contentType)).getD a.fetchResult.contentType
    created := false }

end ArchiveCall

/-- The record of a row that is new. -/
def RawFetchObject.record (row : RawFetchObject) : ArchiveRecord := { row with created := true }

end CivicProof
