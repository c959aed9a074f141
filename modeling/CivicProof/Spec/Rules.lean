import CivicProof.Regex.Match
import CivicProof.Spec.Ontology

/-!
# The rule templates

Per-claim-type regular expressions, Hebrew and English, transcribed piece by piece
from the verbose patterns of the source (`RULE_TEMPLATES`), and `iterMatches`.
-/

namespace CivicProof

open Regex Re

/-- `Language`. -/
inductive Language where
  | he
  | en
  deriving DecidableEq, Repr

/-- The named groups of the templates. -/
inductive GroupName where
  | subject
  | bill
  | committee
  | office
  | voteValue
  | party
  | seats
  | decisionNumber
  | governmentNumber
  | time
  deriving DecidableEq, Repr

/-- An expression over the template groups. -/
abbrev Pattern := Re GroupName

/-! ## Character classes -/

/-- Case folding under the ignore-case flag. Besides the ASCII letters, dotted and dotless
`i`, long `s` and the Kelvin sign fold to a Latin letter. -/
def foldCase (c : Char) : Char :=
  if c = 'İ' ∨ c = 'ı' then 'i' else if c = 'ſ' then 's' else if c.toNat = 0x212A then 'k'
  else c.toLower

/-- How a literal character matches: exactly, or up to case. -/
def charEq (ignoreCase : Bool) (a c : Char) : Bool :=
  if ignoreCase then foldCase c == foldCase a else c == a

theorem charEq_iff (a c : Char) : charEq false a c = true ↔ c = a := by
  simp [charEq]

/-- A class under the ignore-case flag: some case variant of the character is in it. -/
def ciSet (ignoreCase : Bool) (p : Char → Bool) (c : Char) : Bool :=
  p c || (ignoreCase && (p (foldCase c) || p (foldCase c).toUpper))

/-- `[A-Z]`. -/
def isAZ (c : Char) : Bool := 'A' ≤ c && c ≤ 'Z'

/-- `[A-Za-z]`. -/
def isLatin (c : Char) : Bool := isAZ c || ('a' ≤ c && c ≤ 'z')

/-- `[A-Za-z'\-\s]`. -/
def isEnName (c : Char) : Bool := isLatin c || c == '\'' || c == '-' || isSpace c

/-- `[A-Za-z0-9\-\s,]`. -/
def isEnCommittee (c : Char) : Bool :=
  isLatin c || ('0' ≤ c && c ≤ '9') || c == '-' || isSpace c || c == ','

/-- `[A-Za-z0-9'\"\-\s,]`. -/
def isEnTitle (c : Char) : Bool := isEnCommittee c || c == '\'' || c == '"'

/-- `[\u0590-\u05FFA-Za-z'\"\-\s]`. -/
def isHeName (c : Char) : Bool := isHebrewChar c || isEnName c || c == '"'

/-- `[\u0590-\u05FF0-9A-Za-z'\"\-\s,]`. -/
def isHeTitle (c : Char) : Bool := isHebrewChar c || isEnTitle c

/-- `[\u0590-\u05FF\-\s]`. -/
def isHeWords (c : Char) : Bool := isHebrewChar c || c == '-' || isSpace c

/-! ## Pieces shared by the templates -/

/-- `\s+`. -/
def sp : Pattern := .rep isSpace 1 none true

/-- `\s*`. -/
def sp0 : Pattern := .rep isSpace 0 none true

/-- A literal, case-sensitive. -/
def he (s : String) : Pattern := lit (charEq false) s

/-- A literal under the ignore-case flag `ci`. -/
def en (ci : Bool) (s : String) : Pattern := lit (charEq ci) s

/-- `\d{4}`. -/
def fourDigits : Pattern := .rep isDigit 4 (some 4) true

/-- `[\.\?\!]?\s*\Z`. -/
def sentenceEnd : Pattern :=
  cat [opt (.set fun c => c == '.' || c == '?' || c == '!'), sp0, eos]

/-- `[\.\?\!,]?\s*`, the end of the decision-number templates (no anchor). -/
def decisionEnd : Pattern :=
  cat [opt (.set fun c => c == '.' || c == '?' || c == '!' || c == ','), sp0]

/-- `כנסת(?:\s+ה[-]?\d+)?`. -/
def heKnesset : Pattern :=
  cat [he "כנסת", opt (cat [sp, he "ה", opt (he "-"), .rep isDigit 1 none true])]

/-- `(?:\s+(?:ב(?:-)?(?P<time>…)))?` over the given alternatives. -/
def heTime (alts : List Pattern) : Pattern :=
  opt (cat [sp, he "ב", opt (he "-"), .group .time (any alts)])

/-- The time suffix of the Hebrew templates: a year, the (previous) term, a Knesset. -/
def heTimeSuffix : Pattern :=
  heTime [fourDigits, cat [he "הקדנציה", opt (cat [sp, he "הקודמת"])], heKnesset]

/-- `(?:\s+in\s+(?P<time>\d{4}|the\s+\d+(?:st|nd|rd|th)\s+Knesset|last\s+term))?`. -/
def enTimeSuffix (ci : Bool) : Pattern :=
  opt (cat [sp, en ci "in", sp, .group .time (any [fourDigits,
    cat [en ci "the", sp, .rep isDigit 1 none true,
      any [en ci "st", en ci "nd", en ci "rd", en ci "th"], sp, en ci "Knesset"],
    cat [en ci "last", sp, en ci "term"]])])

/-- `(?P<subject>[\u0590-\u05FFA-Za-z'\"\-\s]{2,40}?)`. -/
def heSubject : Pattern := .group .subject (.rep isHeName 2 (some 40) false)

/-- `[A-Z][A-Za-z'\-\s]{2,50}?`. -/
def enProper (ci : Bool) : Pattern :=
  cat [.set (ciSet ci isAZ), .rep (ciSet ci isEnName) 2 (some 50) false]

/-- `(?P<subject>[A-Z][A-Za-z'\-\s]{2,50}?)`. -/
def enSubject (ci : Bool) : Pattern := .group .subject (enProper ci)

/-- `w(?:ה)?`: a Hebrew verb with its optional feminine ending. -/
def heVerb (w : String) : Pattern := cat [he w, opt (he "ה")]

/-- `(?P<bill>[\u0590-\u05FF0-9A-Za-z'\"\-\s,]{2,120}?)`. -/
def heBill : Pattern := .group .bill (.rep isHeTitle 2 (some 120) false)

/-- `(?P<bill>[A-Za-z0-9'\"\-\s,]{3,120}?)`. -/
def enBill (ci : Bool) : Pattern := .group .bill (.rep (ciSet ci isEnTitle) 3 (some 120) false)

/-- `(?P<committee>[\u0590-\u05FF0-9A-Za-z'\"\-\s,]{2,80}?)`. -/
def heCommittee : Pattern := .group .committee (.rep isHeTitle 2 (some 80) false)

/-- `(?P<committee>[A-Za-z0-9\-\s,]{2,80}?)`, in case-sensitive templates only. -/
def enCommittee : Pattern := .group .committee (.rep isEnCommittee 2 (some 80) false)

/-- `(?P<decision_number>\d[\d/\-]*)`. -/
def decisionNumber : Pattern :=
  .group .decisionNumber
    (cat [.set isDigit, .rep (fun c => isDigit c || c == '/' || c == '-') 0 none true])

/-- `(?P<seats>\d{1,3})`. -/
def seats : Pattern := .group .seats (.rep isDigit 1 (some 3) true)

/-! ## Hebrew templates -/

/-- `_HE_VOTE`. -/
def heVote : Pattern :=
  cat [heSubject, sp, any [heVerb "הצביע", heVerb "תמך", heVerb "התנגד", heVerb "נמנע"], sp,
    opt (.group .voteValue (any [he "בעד", he "נגד", heVerb "נמנע"])), sp0,
    opt (cat [any [cat [he "ב", opt (he "עד")], he "על", he "נגד", he "לגבי"], sp]),
    any [he "חוק", cat [he "הצעת", sp, he "חוק"]], sp, heBill, heTimeSuffix, sentenceEnd]

/-- `_HE_SPONSOR`. -/
def heSponsor : Pattern :=
  cat [heSubject, sp,
    any [heVerb "יזם", heVerb "הגיש", cat [heVerb "חתם", sp, he "על"], heVerb "הציע"], sp,
    opt (cat [he "את", sp]), any [cat [he "הצעת", sp, he "חוק"], he "חוק"], sp, heBill,
    heTimeSuffix, sentenceEnd]

/-- `(?:\s+[\u0590-\u05FF\-\s]+)?`. -/
def heOfficeTail : Pattern := opt (cat [sp, .rep isHeWords 1 none true])

/-- `_HE_OFFICE`. -/
def heOffice : Pattern :=
  cat [heSubject, sp, any [heVerb "כיהן", heVerb "שימש", he "מונה", he "היה", he "הייתה"], sp,
    opt (he "כ"),
    .group .office (any [cat [he "שר", opt (he "ת"), heOfficeTail],
      cat [he "סגן", opt (he "ית"), sp, he "שר", opt (he "ת"), heOfficeTail],
      cat [he "ראש", sp, he "הממשלה"], cat [he "חבר", opt (he "ת"), sp, he "כנסת"],
      cat [he "יו\"ר", sp, .rep isHeWords 1 none true]]),
    heTimeSuffix, sentenceEnd]

/-- `_HE_COMMITTEE_MEM`. -/
def heCommitteeMem : Pattern :=
  cat [heSubject, sp,
    any [he "היה", he "הייתה", heVerb "כיהן", cat [heVerb "חבר", opt (cat [sp, he "ב"])]], sp,
    opt (cat [heVerb "חבר", sp]), opt (he "ב"), he "ועד", any [he "ת", he "ה"], sp, heCommittee,
    heTimeSuffix, sentenceEnd]

/-- `_HE_COMMITTEE_ATT`. -/
def heCommitteeAtt : Pattern :=
  cat [heSubject, sp, any [heVerb "נכח", heVerb "השתתף", heVerb "פקד"], sp,
    any [he "בישיבת", he "ב"], any [he "ועדת", he "ועדה"], sp, heCommittee, heTimeSuffix,
    sentenceEnd]

/-- `_HE_ELECTION_SEATS`. -/
def heElectionSeats : Pattern :=
  cat [.group .party (.rep isHeName 2 (some 50) false), sp,
    any [heVerb "זכה", heVerb "קיבל", he "זכתה", he "קיבלה"], sp,
    opt (cat [he "ב", opt (he "-")]), seats, sp, any [he "מנדטים", he "מושבים"], heTimeSuffix,
    sentenceEnd]

/-- `_HE_ELECTION_THRESHOLD_BELOW`. -/
def heElectionThresholdBelow : Pattern :=
  cat [.group .party (.rep isHeName 2 (some 45) false), sp, he "לא", sp, heVerb "עבר", sp,
    opt (cat [he "את", sp]), he "אחוז", sp, he "החסימה", heTime [fourDigits, heKnesset],
    sentenceEnd]

/-- `(?:מספר|מס'?|מס\.?)`. -/
def heNumberWord : Pattern :=
  any [he "מספר", cat [he "מס", opt (he "'")], cat [he "מס", opt (he ".")]]

/-- `_HE_GOV_DECISION_NUMBER`. -/
def heGovDecisionNumber : Pattern :=
  cat [any [cat [he "הממשלה", sp, he "החליטה"], cat [he "בהחלט", opt (he "ת"), sp, he "ממשלה"],
      cat [he "החלט", opt (he "ת"), sp, he "ממשלה"]],
    sp0, opt heNumberWord, sp0, decisionNumber,
    opt (cat [sp, opt (cat [he "של", sp]), opt (cat [he "הממשלה", sp]),
      opt (cat [he "ה", opt (he "-"), sp0]),
      .group .governmentNumber (.rep isDigit 1 (some 2) true)]),
    decisionEnd]

/-- `_HE_GOV_DECISION_REF`. -/
def heGovDecisionRef : Pattern :=
  cat [any [he "בהחלטה", he "להחלטה", he "החלטה"], sp, heNumberWord, sp0, decisionNumber,
    decisionEnd]

/-! ## English templates -/

/-- `_EN_VOTE`. -/
def enVote : Pattern :=
  let l := en true
  cat [enSubject true, sp,
    any [l "voted", cat [l "cast", sp, any [l "a", l "their"], sp, l "vote"]], sp,
    .group .voteValue (any [l "for", l "against",
      cat [l "in", sp, l "favo", opt (l "u"), l "r", sp, l "of"], l "opposed", l "abstained",
      cat [l "to", sp, l "abstain"]]), sp,
    opt (any [cat [l "on", sp], cat [l "the", sp]]), opt (cat [l "the", sp]), enBill true, sp,
    l "bill", enTimeSuffix true, sentenceEnd]

/-- `_EN_SPONSOR`. -/
def enSponsor : Pattern :=
  let l := en true
  cat [enSubject true, sp,
    any [l "sponsored", l "initiated", l "introduced", cat [l "co", opt (l "-"), l "sponsored"]],
    sp, opt (cat [l "the", sp]), enBill true, sp, l "bill", enTimeSuffix true, sentenceEnd]

/-- `[A-Za-z\s]+` under the ignore-case flag. -/
def enWords : Pattern := .rep (ciSet true fun c => isLatin c || isSpace c) 1 none true

/-- `_EN_OFFICE`. -/
def enOffice : Pattern :=
  let l := en true
  cat [enSubject true, sp,
    any [cat [l "served", sp, l "as"], cat [l "held", sp, l "the", sp, l "office", sp, l "of"],
      cat [l "was", sp, l "appointed"]], sp,
    opt (cat [l "the", sp]),
    .group .office (any [cat [l "Prime", sp, l "Minister"],
      cat [l "Minister", sp, l "of", sp, enWords],
      cat [l "Deputy", sp, l "Minister", opt (cat [sp, l "of", sp, enWords])],
      cat [l "Member", sp, l "of", sp, l "Knesset"],
      cat [l "Chair", opt (l "person"), sp, l "of", sp, enWords]]),
    enTimeSuffix true, sentenceEnd]

/-- `[Cc]ommittee`. -/
def enCommitteeWord : Pattern := cat [.set fun c => c == 'C' || c == 'c', en false "ommittee"]

/-- `_EN_COMMITTEE_MEM`. -/
def enCommitteeMem : Pattern :=
  let l := en false
  cat [enSubject false, sp,
    any [cat [l "was", sp, l "a", sp, l "member", sp, l "of"], cat [l "served", sp, l "on"],
      cat [l "sat", sp, l "on"]], sp,
    opt (cat [l "the", sp]), enCommittee, sp, enCommitteeWord, enTimeSuffix false, sentenceEnd]

/-- `_EN_COMMITTEE_ATT`. -/
def enCommitteeAtt : Pattern :=
  let l := en false
  cat [enSubject false, sp,
    any [l "attended", cat [l "was", sp, l "present", sp, l "at"]], sp,
    opt (any [cat [l "a", sp], cat [l "the", sp]]),
    opt (cat [l "session", sp, l "of", sp]), opt (cat [l "the", sp]), enCommittee, sp,
    enCommitteeWord, enTimeSuffix false, sentenceEnd]

/-- `_EN_ELECTION_SEATS`. -/
def enElectionSeats : Pattern :=
  let l := en true
  cat [.group .party (enProper true), sp, any [l "won", l "received", l "got"], sp, seats, sp,
    l "seats", enTimeSuffix true, sentenceEnd]

/-- `_EN_ELECTION_THRESHOLD_BELOW`. -/
def enElectionThresholdBelow : Pattern :=
  let l := en true
  cat [.group .party (enProper true), sp, l "did", sp, l "not", sp, l "pass", sp,
    opt (cat [l "the", sp]), l "electoral", sp, l "threshold", enTimeSuffix true, sentenceEnd]

/-- `_EN_GOV_DECISION_NUMBER`. -/
def enGovDecisionNumber : Pattern :=
  let l := en true
  cat [any [cat [l "government", sp, any [l "decision", l "resolution"], opt (cat [sp, l "number"])],
      cat [l "cabinet", sp, any [l "decision", l "resolution"], opt (cat [sp, l "number"])],
      cat [l "the", sp, l "cabinet", sp, l "decided"]],
    sp0, opt (cat [l "number", sp]), opt (cat [l "no", opt (l "."), sp]), decisionNumber,
    decisionEnd]

/-! ## The template table -/

/-- `RuleTemplate`. -/
structure RuleTemplate where
  claimType : ClaimType
  language : Language
  pattern : Pattern
  description : String
  electionThresholdBelow : Bool := false

/-- `RULE_TEMPLATES`, in declaration order. -/
def ruleTemplates : List RuleTemplate :=
  [{ claimType := .voteCast, language := .he, pattern := heVote,
     description := "Hebrew vote_cast template" },
   { claimType := .billSponsorship, language := .he, pattern := heSponsor,
     description := "Hebrew sponsorship" },
   { claimType := .officeHeld, language := .he, pattern := heOffice,
     description := "Hebrew office_held" },
   { claimType := .committeeMembership, language := .he, pattern := heCommitteeMem,
     description := "Hebrew committee membership" },
   { claimType := .committeeAttendance, language := .he, pattern := heCommitteeAtt,
     description := "Hebrew committee attendance" },
   { claimType := .voteCast, language := .en, pattern := enVote,
     description := "English vote_cast template" },
   { claimType := .billSponsorship, language := .en, pattern := enSponsor,
     description := "English sponsorship" },
   { claimType := .officeHeld, language := .en, pattern := enOffice,
     description := "English office_held" },
   { claimType := .committeeMembership, language := .en, pattern := enCommitteeMem,
     description := "English committee membership" },
   { claimType := .committeeAttendance, language := .en, pattern := enCommitteeAtt,
     description := "English committee attendance" },
   { claimType := .electionResult, language := .he, pattern := heElectionSeats,
     description := "Hebrew election seats" },
   { claimType := .electionResult, language := .he, pattern := heElectionThresholdBelow,
     description := "Hebrew election below threshold", electionThresholdBelow := true },
   { claimType := .electionResult, language := .en, pattern := enElectionSeats,
     description := "English election seats" },
   { claimType := .electionResult, language := .en, pattern := enElectionThresholdBelow,
     description := "English election below threshold", electionThresholdBelow := true },
   { claimType := .governmentDecision, language := .he, pattern := heGovDecisionNumber,
     description :=
       "Hebrew government decision by number (ממשלה החליטה / החלטת ממשלה מספר)" },
   { claimType := .governmentDecision, language := .he, pattern := heGovDecisionRef,
     description :=
       "Hebrew government decision reference (בהחלטה מספר / להחלטה מספר)" },
   { claimType := .governmentDecision, language := .en, pattern := enGovDecisionNumber,
     description := "English government decision by number" }]

/-- `RuleMatch`: the groups that took part, and the span in the statement. -/
structure RuleMatch where
  template : RuleTemplate
  groups : GroupName → Option String
  start : ℕ
  stop : ℕ

/-- `iter_matches`: every match of every template of the language, in declaration order. -/
def iterMatches (statement : List Char) (language : Language) : List RuleMatch :=
  (ruleTemplates.filter (·.language = language)).flatMap fun tmpl =>
    (tmpl.pattern.finditer statement).map fun m =>
      ⟨tmpl, fun n => (m.groups n).map String.ofList, m.start, m.stop⟩

end CivicProof
