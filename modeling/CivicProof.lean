import CivicProof.Regex.Match
import CivicProof.Regex.Language
import CivicProof.Regex.Runs
import CivicProof.Regex.Ways
import CivicProof.Regex.Places
import CivicProof.Regex.Extend
import CivicProof.PropGraph.Write
import CivicProof.PropGraph.Graph
import CivicProof.PropGraph.Interleave
import CivicProof.PropGraph.Rows
import CivicProof.PropGraph.Typed
import CivicProof.PropGraph.Attest
import CivicProof.PropGraph.Lasting
import CivicProof.TimeSpan.Scope
import CivicProof.TimeSpan.Relay
import CivicProof.Transact.Run
import CivicProof.Transact.Table
import CivicProof.Transact.Checked
import CivicProof.Paging.Walk
import CivicProof.Paging.Offset
import CivicProof.Autocommit.Prog
import CivicProof.Autocommit.Pool
import CivicProof.Autocommit.Faults
import CivicProof.Quoted.Sealed
import CivicProof.Normal.Forms
import CivicProof.Normal.Words
import CivicProof.Greedy.Select
import CivicProof.Csv.Reader
import CivicProof.Csv.Table
import CivicProof.Calendar.Date
import CivicProof.Calendar.IsoText
import CivicProof.Calendar.Moment
import CivicProof.Calendar.Stamp
import CivicProof.Spec.Text
import CivicProof.Spec.Ontology
import CivicProof.Spec.Rules
import CivicProof.Spec.Decompose
import CivicProof.Spec.Temporal
import CivicProof.Spec.Effects
import CivicProof.Spec.Resolve
import CivicProof.Spec.Evidence
import CivicProof.Spec.Engine
import CivicProof.Spec.Retrieval
import CivicProof.Spec.Upserts
import CivicProof.Spec.Normalize
import CivicProof.Spec.Adapters
import CivicProof.Spec.Schema
import CivicProof.Spec.VoteFeed
import CivicProof.Spec.GraphSchema
import CivicProof.Spec.Utterances
import CivicProof.Spec.GraphQueries
import CivicProof.Spec.NameStores
import CivicProof.Spec.Pipeline
import CivicProof.Spec.GraphDriver
import CivicProof.Spec.Review
import CivicProof.Spec.Queue
import CivicProof.Spec.Handlers
import CivicProof.Spec.Archive
import CivicProof.Spec.ArchiveUri
import CivicProof.Spec.ArchiveSteps
import CivicProof.Spec.Declaration
import CivicProof.Spec.Persistence
import CivicProof.Spec.Follow
import CivicProof.Spec.IngestRun
import CivicProof.Spec.PageFeed
import CivicProof.Spec.DecisionCrawl
import CivicProof.Spec.ElectionPage
import CivicProof.Spec.CsvDump
import CivicProof.Proof.Confidence
import CivicProof.Proof.Verdict
import CivicProof.Proof.Noninterference
import CivicProof.Proof.MoreEvidence
import CivicProof.Proof.Escalation
import CivicProof.Proof.Resolver
import CivicProof.Proof.HebrewName
import CivicProof.Proof.Ladder
import CivicProof.Proof.OwnName
import CivicProof.Proof.Fallback
import CivicProof.Proof.FuzzyMatch
import CivicProof.Proof.Homonyms
import CivicProof.Proof.ExternalIds
import CivicProof.Proof.TimeReadings
import CivicProof.Proof.ScopeShape
import CivicProof.Proof.LastTerm
import CivicProof.Proof.WrittenTerm
import CivicProof.Proof.Pipeline
import CivicProof.Proof.Ranking
import CivicProof.Proof.Chronology
import CivicProof.Proof.Gate
import CivicProof.Proof.Retrieval
import CivicProof.Proof.Review
import CivicProof.Proof.ReviewRace
import CivicProof.Proof.ReviewAtomic
import CivicProof.Proof.Relink
import CivicProof.Proof.Reingest
import CivicProof.Proof.AdapterOrder
import CivicProof.Proof.Membership
import CivicProof.Proof.OfficeTerms
import CivicProof.Proof.Unlinked
import CivicProof.Proof.ElectionTerm
import CivicProof.Proof.JobLife
import CivicProof.Proof.Queue
import CivicProof.Proof.Stranded
import CivicProof.Proof.ArchiveUri
import CivicProof.Proof.DigestLife
import CivicProof.Proof.Archive
import CivicProof.Proof.Degrade
import CivicProof.Proof.Scripts
import CivicProof.Proof.TimePhrases
import CivicProof.Proof.Decompose
import CivicProof.Proof.Overlap
import CivicProof.Proof.LostClaims
import CivicProof.Proof.Numerals
import CivicProof.Proof.Declaration
import CivicProof.Proof.DeclarationReview
import CivicProof.Proof.EdgeTargets
import CivicProof.Proof.RowLimits
import CivicProof.Proof.Persistence
import CivicProof.Proof.PageFeed
import CivicProof.Proof.DecisionCrawl
import CivicProof.Proof.IngestRun
import CivicProof.Proof.Threshold
import CivicProof.Proof.TimeSuffix
import CivicProof.Proof.TimeAhead
import CivicProof.Proof.TimeKept
import CivicProof.Proof.TimeOffice
import CivicProof.Proof.EnglishOffices
import CivicProof.Proof.HebrewOffices
import CivicProof.Proof.TimeName
import CivicProof.Proof.TimeApart
import CivicProof.Proof.CsvDump
import CivicProof.Proof.QueueWork
import CivicProof.Proof.VerdictGrowth
import CivicProof.Proof.Grounded
import CivicProof.Proof.IngestedGraph
import CivicProof.Proof.Traced
import CivicProof.Proof.OnRecord
import CivicProof.Proof.BorneOut
import CivicProof.Proof.ReviewAudit
