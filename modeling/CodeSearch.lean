import CodeSearch.Main
import CodeSearch.Http.Server
import CodeSearch.Json.Writer
import CodeSearch.Files.Volume
import CodeSearch.Settings.Named
import CodeSearch.Proofs.Session.Frame
import CodeSearch.Proofs.Session.Run
import CodeSearch.Proofs.Session.CachedAnswers
import CodeSearch.Proofs.Chunk.Identity
import CodeSearch.Proofs.Files.Walking
import CodeSearch.Proofs.Index.FileEntries
import CodeSearch.Proofs.Index.Looks
import CodeSearch.Proofs.Session.Exclusion
import CodeSearch.Proofs.Session.Provenance
import CodeSearch.Proofs.Session.FreshUpdates
import CodeSearch.Proofs.Files.Volumes
import CodeSearch.Proofs.Files.Edits
import CodeSearch.Proofs.Index.UpToDate
import CodeSearch.Proofs.Session.Rest
import CodeSearch.Proofs.Session.Progress
import CodeSearch.Proofs.Session.LoneUpdate
import CodeSearch.Proofs.Session.FirstPass
import CodeSearch.Proofs.Session.IncrementalIndex
import CodeSearch.Proofs.Numeral.Decimal
import CodeSearch.Proofs.Numeral.Readings
import CodeSearch.Proofs.Numeral.Shortest
import CodeSearch.Proofs.Text.Words
import CodeSearch.Proofs.Search.Queries
import CodeSearch.Proofs.Search.CacheKeys
import CodeSearch.Proofs.Session.OwnAnswers
import CodeSearch.Proofs.Chunk.Distinct
import CodeSearch.Proofs.Session.KeptChunks
import CodeSearch.Proofs.Session.Requests
import CodeSearch.Proofs.Session.Clearing
import CodeSearch.Proofs.Session.ContextAnswers
import CodeSearch.Proofs.Session.LastRequest
import CodeSearch.Proofs.Session.SingleFlight
import CodeSearch.Proofs.Session.Waiting
import CodeSearch.Proofs.Index.Coherence
import CodeSearch.Proofs.Index.Isolation
import CodeSearch.Proofs.Session.WholeSnapshots
import CodeSearch.Proofs.Session.UpdateIsolation
import CodeSearch.Proofs.Session.Calls
import CodeSearch.Proofs.Files.Admission
import CodeSearch.Proofs.Files.Depth
import CodeSearch.Proofs.Session.IndexedFiles
import CodeSearch.Proofs.Session.Loads
import CodeSearch.Proofs.Session.LoneCalls
import CodeSearch.Proofs.Session.FailedCalls
import CodeSearch.Proofs.Session.Scheduled
import CodeSearch.Proofs.Session.Termination
import CodeSearch.Proofs.Index.InOrder
import CodeSearch.Proofs.Session.BatchedPasses
import CodeSearch.Proofs.Files.Faulty
import CodeSearch.Proofs.Session.HealthyFiles
import CodeSearch.Proofs.Session.FileFaults
import CodeSearch.Proofs.Http.Refusals
import CodeSearch.Proofs.Chunk.Contents
import CodeSearch.Proofs.Chunk.BalancedBody
import CodeSearch.Proofs.Index.CacheHistory
import CodeSearch.Proofs.Chunk.EscapedLiterals
import CodeSearch.Proofs.Chunk.Masking
import CodeSearch.Proofs.Chunk.Locality
import CodeSearch.Proofs.Chunk.FailingScans
import CodeSearch.Proofs.Chunk.Gaps
import CodeSearch.Proofs.Chunk.CommentLines
import CodeSearch.Proofs.Symbol.LineNames
import CodeSearch.Proofs.Session.Accounts
import CodeSearch.Proofs.Files.Inside
import CodeSearch.Proofs.Session.OutsideFiles
import CodeSearch.Proofs.Index.Removal
import CodeSearch.Proofs.Search.Best
import CodeSearch.Proofs.Search.Narrowing
import CodeSearch.Proofs.Search.Blanks
import CodeSearch.Proofs.Numeral.Real
import CodeSearch.Proofs.Numeral.Rounding
import CodeSearch.Proofs.Numeral.Doubles
import CodeSearch.Proofs.Numeral.Differences
import CodeSearch.Proofs.Embedding.Similarity
import CodeSearch.Proofs.Embedding.Doubles
import CodeSearch.Proofs.Search.Boosts
import CodeSearch.Proofs.Search.Grouping
import CodeSearch.Proofs.Search.Windows
import CodeSearch.Proofs.Search.DefinedScores
import CodeSearch.Proofs.Index.EmbeddedFiles
import CodeSearch.Proofs.Session.ContextItems
import CodeSearch.Proofs.Files.Discovery
import CodeSearch.Proofs.Session.ListingOrder
import CodeSearch.Proofs.Files.Exclusions
import CodeSearch.Proofs.Session.WayBack
import CodeSearch.Proofs.Embedding.Spacing
import CodeSearch.Proofs.Embedding.JoinedTexts
import CodeSearch.Proofs.Embedding.Proportions
import CodeSearch.Proofs.Embedding.HashPolynomial
import CodeSearch.Proofs.FileRecord.Dependencies
