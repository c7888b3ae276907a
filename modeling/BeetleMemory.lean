import BeetleMemory.Lib.Fallible
import BeetleMemory.Lib.OrderedMap
import BeetleMemory.Store.Basic
import BeetleMemory.Store.Event
import BeetleMemory.Store.Request
import BeetleMemory.Store.Admission
import BeetleMemory.Store.Planner
import BeetleMemory.Store.InMemory
import BeetleMemory.Store.PlannerFacts
import BeetleMemory.Store.InMemoryCommit
import BeetleMemory.Store.PlanSoundness
import BeetleMemory.Lib.Runs
import BeetleMemory.Store.Concurrency
import BeetleMemory.Store.Replacement
import BeetleMemory.Store.EventIdentity
import BeetleMemory.Lib.FileSystem
import BeetleMemory.Lib.JsonText
import BeetleMemory.Store.File.Collisions
import BeetleMemory.Transparent.Transitions
import BeetleMemory.Lib.Keyed
import BeetleMemory.LongTerm.Closure
import BeetleMemory.Lib.Timeline
import BeetleMemory.Context.KeepsContext
import BeetleMemory.Graph.IndexedEquality
import BeetleMemory.Graph.ExpansionReport
import BeetleMemory.Graph.Ranking
import BeetleMemory.Delivery.Report
import BeetleMemory.Archive.Report
import BeetleMemory.Http.Framing
import BeetleMemory.Gateway.StreamReading
import BeetleMemory.LongTerm.ManifestFacts
import BeetleMemory.LongTerm.ExclusionCauses
import BeetleMemory.LongTerm.LineageFacts
import BeetleMemory.LongTerm.WholeLineage
import BeetleMemory.Recall.CanonicalIndex
import BeetleMemory.Transcript.Citation
import BeetleMemory.Transcript.KeyCollisions
import BeetleMemory.LongTerm.PatternMeaning
import BeetleMemory.LongTerm.PageChain
import BeetleMemory.Lib.Pieces
import BeetleMemory.Transcript.Search
import BeetleMemory.Transcript.SearchTerms
import BeetleMemory.Transcript.Excerpts
import BeetleMemory.Transcript.Cursor
import BeetleMemory.Transcript.CursorLife
import BeetleMemory.Lib.Gregorian
import BeetleMemory.Lib.Decimal
import BeetleMemory.Util.Calendar
import BeetleMemory.Util.Timestamps
import BeetleMemory.Util.PrivateUrl
import BeetleMemory.Llm.Numbers
import BeetleMemory.Transcript.StorageKeys
import BeetleMemory.Util.Scrub
import BeetleMemory.Util.ScrubSecrets
import BeetleMemory.Store.File.CrashHistory
