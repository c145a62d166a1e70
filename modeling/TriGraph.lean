import TriGraph.Adjunction
import TriGraph.Adjunction.Builtin
import TriGraph.Adjunction.Ranking
import TriGraph.Catalog
import TriGraph.CommandLine
import TriGraph.Constraint
import TriGraph.Constraint.Document
import TriGraph.Constraint.Matching
import TriGraph.Document
import TriGraph.Document.Fields
import TriGraph.Document.Json
import TriGraph.Document.Shape
import TriGraph.Document.Text
import TriGraph.Entity
import TriGraph.Entity.Document
import TriGraph.Files
import TriGraph.Graphs
import TriGraph.Graphs.Document
import TriGraph.Index
import TriGraph.Index.Key
import TriGraph.Index.Path
import TriGraph.Knowledge
import TriGraph.Knowledge.Answer
import TriGraph.Knowledge.Compatibility
import TriGraph.Knowledge.Relevance
import TriGraph.Knowledge.Traversal
import TriGraph.Layer
import TriGraph.Layer.Contexts
import TriGraph.Layer.Instances
import TriGraph.Layer.Ontology
import TriGraph.Main
import TriGraph.Notice
import TriGraph.Number.Digits
import TriGraph.Number.Layout
import TriGraph.Number.Order
import TriGraph.Number.Reading
import TriGraph.Number.Shortest
import TriGraph.Proofs.Catalog
import TriGraph.Proofs.Constraint.Reading
import TriGraph.Proofs.Constraint.Rearrangement
import TriGraph.Proofs.Constraint.Resolution
import TriGraph.Proofs.Index.Agreement
import TriGraph.Proofs.Index.Buckets
import TriGraph.Proofs.Index.KeyOrder
import TriGraph.Proofs.Index.Seen
import TriGraph.Proofs.Index.Upkeep
import TriGraph.Proofs.Knowledge.Answers
import TriGraph.Proofs.Knowledge.Listings
import TriGraph.Proofs.Knowledge.Memo
import TriGraph.Proofs.Knowledge.Reads
import TriGraph.Proofs.Knowledge.Walks
import TriGraph.Proofs.Layer.Links
import TriGraph.Proofs.Number.Exact
import TriGraph.Proofs.Number.Rounding
import TriGraph.Proofs.Seed.Freshness
import TriGraph.Proofs.Seed.Replay
import TriGraph.Proofs.Seed.Steps
import TriGraph.Proofs.Seed.Truncation
import TriGraph.Proofs.Store.History
import TriGraph.Proofs.Store.Integrity
import TriGraph.Proofs.Store.Lookup
import TriGraph.Proofs.Store.Replay
import TriGraph.Proofs.Store.Upkeep
import TriGraph.Proofs.Table
import TriGraph.Proofs.Trinity.History
import TriGraph.Proofs.Trinity.Writes
import TriGraph.Query
import TriGraph.Query.Envelope
import TriGraph.Query.Text
import TriGraph.Seed
import TriGraph.Seed.Document
import TriGraph.Seed.Notices
import TriGraph.Seed.Text
import TriGraph.Store
import TriGraph.Table
import TriGraph.Text.Alphanumeric
import TriGraph.Text.Blank
import TriGraph.Text.Uuid
import TriGraph.Trinity
import TriGraph.Value
import TriGraph.Value.Document
import TriGraph.Yaml.Cursor
import TriGraph.Yaml.Document
import TriGraph.Yaml.Resolution
import TriGraph.Yaml.Scalar
import TriGraph.Yaml.Token
import TriGraph.Yaml.Tree
import TriGraph.Proofs.Index.Range
import TriGraph.Proofs.Store.Ranges
import TriGraph.Proofs.Trinity.Remembrance
import TriGraph.InPlace
import TriGraph.Proofs.Store.InPlace
import TriGraph.Proofs.Trinity.InPlace
import TriGraph.Proofs.Seed.Entities
import TriGraph.Proofs.Layer.Hierarchy
import TriGraph.Proofs.Store.Removal
import TriGraph.Proofs.Index.Bounds
import TriGraph.Proofs.Store.Scans
import TriGraph.Proofs.Index.KeyTables
import TriGraph.Proofs.Table.Rows
import TriGraph.Proofs.Value.Equality
import TriGraph.Proofs.Trinity.Bags
import TriGraph.Proofs.Knowledge.Compatibility
import TriGraph.Proofs.Knowledge.Outcomes
import TriGraph.Proofs.Value.Order
import TriGraph.Proofs.Trinity.Cleared
import TriGraph.Proofs.Adjunction.Targets
import TriGraph.Proofs.Adjunction.Membership
import TriGraph.Proofs.Adjunction.RoundTrips
import TriGraph.Proofs.Adjunction.Pairings
import TriGraph.Proofs.Adjunction.Flags
import TriGraph.Proofs.Adjunction.Applicability
import TriGraph.Proofs.Constraint.Acceptance
import TriGraph.Proofs.Text.Words
import TriGraph.Proofs.Query.Spelling
import TriGraph.Proofs.Constraint.Spellings
import TriGraph.Proofs.Store.Changes
import TriGraph.Proofs.Constraint.Locality
import TriGraph.Proofs.Document.Fields
import TriGraph.Proofs.Value.Document
import TriGraph.Proofs.Entity.Document
import TriGraph.Proofs.Seed.Document
import TriGraph.Proofs.Constraint.Comparisons
import TriGraph.Proofs.Adjunction.Ranking
import TriGraph.Proofs.Number.Arithmetic
import TriGraph.Proofs.Adjunction.Scores
