import TriggerGraph.Json.Reader
import TriggerGraph.Main
import TriggerGraph.Script.Exec
import TriggerGraph.Proofs.Numerals
import TriggerGraph.Proofs.ExactDouble
import TriggerGraph.Proofs.LevelText
import TriggerGraph.Proofs.Objects
import TriggerGraph.Proofs.Reexport
import TriggerGraph.Proofs.Steps
import TriggerGraph.Proofs.Constructs
import TriggerGraph.Proofs.Stack
import TriggerGraph.Proofs.LoopTail
import TriggerGraph.Proofs.Game
import TriggerGraph.Proofs.Freshness
import TriggerGraph.Proofs.LoopLevel
import TriggerGraph.Proofs.CountedLoop
import TriggerGraph.Proofs.Reach
import TriggerGraph.Proofs.Base64
import TriggerGraph.Proofs.BitStreams
import TriggerGraph.Proofs.Copies
import TriggerGraph.Proofs.Dictionaries
import TriggerGraph.Proofs.Envelopes
import TriggerGraph.Proofs.Files
import TriggerGraph.Proofs.Flush
import TriggerGraph.Proofs.LevelPaths
import TriggerGraph.Proofs.LevelRoundTrip
import TriggerGraph.Proofs.SaveRoundTrip
import TriggerGraph.Proofs.Allocation
import TriggerGraph.Proofs.Refusals
import TriggerGraph.Proofs.Encodability
import TriggerGraph.Proofs.Moments
import TriggerGraph.Proofs.Exports
import TriggerGraph.Proofs.Strands
import TriggerGraph.Proofs.Delays
import TriggerGraph.Proofs.Handling
import TriggerGraph.Proofs.Edits
import TriggerGraph.Proofs.Marker
import TriggerGraph.Proofs.Delimiters
import TriggerGraph.Proofs.Readings
import TriggerGraph.Proofs.Rereading
import TriggerGraph.Proofs.Verbatim
import TriggerGraph.Proofs.Seams
import TriggerGraph.Proofs.Membership
import TriggerGraph.Proofs.Arithmetic
import TriggerGraph.Proofs.Renaming
import TriggerGraph.Proofs.Twins
import TriggerGraph.Proofs.Lockstep
import TriggerGraph.Proofs.Supplies
import TriggerGraph.Proofs.Recompilation
import TriggerGraph.Proofs.Stripping
import TriggerGraph.Proofs.Outermost
import TriggerGraph.Proofs.Walks
import TriggerGraph.Proofs.Branching
