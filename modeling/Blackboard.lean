import Blackboard.Main
import Blackboard.Sentence.Filler
import Blackboard.Store.Command
import Blackboard.Proofs.Equality
import Blackboard.Proofs.StoreInvariant
import Blackboard.Proofs.Bindings
import Blackboard.Proofs.Branches
import Blackboard.Proofs.Matching
import Blackboard.Proofs.Chains
import Blackboard.Proofs.Extensions
import Blackboard.Proofs.Solving
import Blackboard.Proofs.Join
import Blackboard.Proofs.Rounding
import Blackboard.Proofs.Numerals
import Blackboard.Proofs.Escapes
import Blackboard.Proofs.Tokens
import Blackboard.Proofs.Adjacency
import Blackboard.Proofs.ReadBack
import Blackboard.Sentence.Grammar
import Blackboard.Proofs.Grammar
import Blackboard.Proofs.Refusals
import Blackboard.Proofs.EntryRules
import Blackboard.Proofs.Separated
import Blackboard.Proofs.Keys
import Blackboard.Proofs.JsonReaders
import Blackboard.Proofs.JsonTexts
import Blackboard.Proofs.Messages
import Blackboard.Proofs.RoundTrips
import Blackboard.Proofs.Buffers
import Blackboard.Proofs.Removals
import Blackboard.Proofs.Batches
import Blackboard.Proofs.Arrivals
import Blackboard.Proofs.Histories
import Blackboard.Proofs.Retries
import Blackboard.Proofs.Clients
import Blackboard.Proofs.Moves
import Blackboard.Proofs.Interleavings
import Blackboard.Proofs.Flushes
import Blackboard.Proofs.PatternOrder
import Blackboard.Proofs.RemovalOrder
import Blackboard.Proofs.Retractions
import Blackboard.Proofs.Evidence
import Blackboard.Proofs.Shape
import Blackboard.Proofs.Spacing
import Blackboard.Proofs.CacheUses
import Blackboard.Proofs.Confirmations
import Blackboard.Proofs.Requests
import Blackboard.Proofs.Registry
