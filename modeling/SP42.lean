import SP42.Lib.Kleene
import SP42.Lib.Base64
import SP42.Lib.Framing
import SP42.Lib.Run
import SP42.Lib.Register
import SP42.Lib.Overtaking
import SP42.Base.Machine
import SP42.Intake.Contracts
import SP42.Intake.Digest
import SP42.Intake.Engine
import SP42.Intake.Leaf
import SP42.Intake.LeafSoundness
import SP42.Intake.Verdict
import SP42.Intake.Monotonicity
import SP42.Intake.Misconfiguration
import SP42.Intake.Agreement
import SP42.Intake.Rearrangement
import SP42.Intake.DigestReading
import SP42.Intake.ConfigVersion
import SP42.Review.Session
import SP42.Review.Lifecycle
import SP42.Review.Outline
import SP42.Coordination.State
import SP42.Coordination.Registry
import SP42.Coordination.Rooms
import SP42.Coordination.Presence
import SP42.Coordination.Socket
import SP42.Coordination.Claims
import SP42.Coordination.Replicas
import SP42.Coordination.Convergence
import SP42.Coordination.Reducer
import SP42.Coordination.Independence
import SP42.Coordination.Sections
import SP42.Coordination.Accounting
import SP42.Base.Text
import SP42.Storage.Plan
import SP42.Storage.Titles
import SP42.Lib.Search
import SP42.Storage.Envelope
import SP42.Live.Cursor
import SP42.Base.Number
import SP42.Base.FormEncoding
import SP42.Live.Query
import SP42.Live.QueryString
import SP42.Live.Backlog
import SP42.Live.Checkpoint
import SP42.Base.Arithmetic
import SP42.Scoring.Types
import SP42.Scoring.Policy
import SP42.Scoring.Engine
import SP42.Scoring.Firing
import SP42.Scoring.Count
import SP42.Scoring.Disabled
import SP42.Lib.Total
import SP42.Lib.Bytes
import SP42.Diff.Structure
import SP42.Diff.Inline
import SP42.Diff.Hunks
import SP42.Diff.Highlights
import SP42.Diff.Windows
import SP42.Diff.Returns
import SP42.Scoring.Explained
import SP42.Session.Store
import SP42.Session.Lifetime
import SP42.Base.Json
import SP42.Citation.OpenLibrary
import SP42.Citation.Normalize
import SP42.Citation.Locate
import SP42.Citation.Fuzzy
import SP42.Citation.Usability
import SP42.Citation.Finding
import SP42.Citation.Grounding
import SP42.Citation.Panel
import SP42.Citation.Repair
import SP42.Citation.SearchInside
import SP42.Citation.Books
import SP42.Citation.ScannedPage
import SP42.Citation.Segment
import SP42.Citation.Extract
import SP42.Citation.Page
import SP42.Citation.Transparency
import SP42.Citation.Ledger
import SP42.Lib.Words
import SP42.Citation.Transcription
import SP42.Citation.Apply
import SP42.Citation.ApplyOnce
import SP42.Base.Wikitext
import SP42.Citation.BareUrlReading
import SP42.Parsoid.Cutting
import SP42.Lib.Entries
import SP42.Wikibase.Diff
import SP42.Wikibase.Honesty
import SP42.Fetch.Client
import SP42.Fetch.Outside
import SP42.Parsoid.Anchors
import SP42.Parsoid.NodeEdit
import SP42.Parsoid.Touched
import SP42.Actions.Executor
import SP42.Actions.Route
import SP42.Actions.Truth
import SP42.Lib.Grouping
import SP42.Patrol.Queue
import SP42.Patrol.Rows
import SP42.Patrol.Standing
import SP42.Patrol.Page
import SP42.Patrol.Screen
import SP42.Patrol.Decisions
import SP42.Coordination.Deltas
import SP42.Review.Reviewable
import SP42.Diff.Additions
import SP42.Diff.Recognised
import SP42.Diff.Disguise
import SP42.Storage.PublicDocuments
import SP42.Storage.Ledger
import SP42.Storage.Backends
import SP42.Citation.Evidence
import SP42.Lib.Url
import SP42.Session.Landing
import SP42.Session.Pkce
import SP42.Session.Login
import SP42.Session.Binding
import SP42.Lib.Ranges
import SP42.Diff.Anchors
import SP42.Diff.Partition
import SP42.Diff.Unmarked
import SP42.Scoring.Safety
import SP42.Lib.Counts
import SP42.Lib.Heap
import SP42.Scoring.Ranking
import SP42.Lib.Ranked
import SP42.Live.FastPath
import SP42.Lib.Calendar
import SP42.Live.Timestamp
import SP42.Citation.Alignment
import SP42.Citation.Units
import SP42.Citation.Checked
import SP42.Citation.Offsets
import SP42.Citation.Fragments
import SP42.Lib.Expiring
import SP42.Review.RevisionArtifacts
import SP42.Citation.AccessDate
import SP42.Citation.Isbn
import SP42.Citation.Reverified
import SP42.Citation.RefsSeen
import SP42.Citation.SegmentBytes
import SP42.Citation.Sentences
import SP42.Citation.Boundaries
import SP42.Citation.Masking
import SP42.Lib.Regex
import SP42.Base.Patterns
import SP42.Citation.Parsing
import SP42.Citation.VisibleText
import SP42.Citation.Extraction
import SP42.Citation.Extracted
import SP42.Actions.Replacement
import SP42.Intake.ReasonCatalog
import SP42.Citation.PageTarget
import SP42.Citation.Spellings
import SP42.Fetch.Preview
import SP42.Actions.Tagging
import SP42.Diff.Sections
import SP42.Wikibase.Conservation
import SP42.Review.Sections
import SP42.Wikibase.Rendering
import SP42.Assessment.Appendix
import SP42.Assessment.Conservation
import SP42.Media.References
import SP42.Actions.TrainingData
import SP42.Lib.Recency
import SP42.Scoring.RiskCache
import SP42.Diff.Highlight
import SP42.Diff.SideBySide
import SP42.Session.LocalEnv
import SP42.Citation.AgentPage
import SP42.Citation.Sidecar
import SP42.Lib.Address
import SP42.Patrol.Reload
import SP42.Stream.Ingestor
import SP42.Stream.Inserts
