import PropertyGraph.Bus
import PropertyGraph.Date
import PropertyGraph.Digest
import PropertyGraph.Embedding.Hashing
import PropertyGraph.Embedding.Provider
import PropertyGraph.Embedding.Vector
import PropertyGraph.Entity
import PropertyGraph.Event
import PropertyGraph.Fact
import PropertyGraph.Fact.Statement
import PropertyGraph.Failure
import PropertyGraph.Graph
import PropertyGraph.Graph.Adjacency
import PropertyGraph.Graph.Change
import PropertyGraph.Instant
import PropertyGraph.Json.Reader
import PropertyGraph.Json.Writer
import PropertyGraph.Kind
import PropertyGraph.Misreading
import PropertyGraph.Moment
import PropertyGraph.Number.Decimal
import PropertyGraph.Number.Exact
import PropertyGraph.Number.FloatText
import PropertyGraph.Number.Numeral
import PropertyGraph.Proofs.Graph.Conforming
import PropertyGraph.Proofs.Graph.Entries
import PropertyGraph.Proofs.Graph.Sound
import PropertyGraph.Proofs.Graph.Step
import PropertyGraph.Record
import PropertyGraph.Schema
import PropertyGraph.Schema.Check
import PropertyGraph.Schema.Problem
import PropertyGraph.Schema.Reader
import PropertyGraph.Session
import PropertyGraph.Session.Program
import PropertyGraph.Settings
import PropertyGraph.Settings.Cast
import PropertyGraph.Settings.Giving
import PropertyGraph.Settings.Merging
import PropertyGraph.SoftLink
import PropertyGraph.Text.Case
import PropertyGraph.Text.CaseTable
import PropertyGraph.Text.Class
import PropertyGraph.Text.Point
import PropertyGraph.Text.Printable
import PropertyGraph.Text.Quoted
import PropertyGraph.Toml.Compound
import PropertyGraph.Toml.Document
import PropertyGraph.Toml.Outline
import PropertyGraph.Toml.Scalar
import PropertyGraph.Value
import PropertyGraph.Value.Conversion
import PropertyGraph.Value.Fields
import PropertyGraph.Value.Key
import PropertyGraph.Value.Text
import PropertyGraph.Proofs.Session.Moves
import PropertyGraph.Proofs.Session.NewNode
import PropertyGraph.Proofs.Session.Operations
import PropertyGraph.Proofs.Session.Shown
import PropertyGraph.Proofs.Session.Refusal
import PropertyGraph.Proofs.Fact.Reference
import PropertyGraph.Proofs.Fact.Assignment
import PropertyGraph.Proofs.Fact.Reordering
import PropertyGraph.Proofs.Graph.Mirror
import PropertyGraph.Proofs.Session.Onlookers
import PropertyGraph.Proofs.Session.Replay
import PropertyGraph.Proofs.Graph.Document
import PropertyGraph.Proofs.Session.Reload
import PropertyGraph.Proofs.Session.Unhindered
import PropertyGraph.Proofs.Session.Dispatch
import PropertyGraph.Proofs.Fact.Strictness
import PropertyGraph.Proofs.Graph.Loading
import PropertyGraph.Proofs.Session.LoadingOrder
import PropertyGraph.Proofs.Fact.Lines
import PropertyGraph.Proofs.Session.EdgeQuery
import PropertyGraph.Proofs.Bus.Course
import PropertyGraph.Proofs.Session.Subscriptions
import PropertyGraph.Proofs.Schema.Dump
import PropertyGraph.Proofs.Schema.Sample
import PropertyGraph.Proofs.Session.Inhabited
import PropertyGraph.Proofs.Graph.Admission
import PropertyGraph.Proofs.Graph.Rewiring
import PropertyGraph.Proofs.Session.EdgeChanges
import PropertyGraph.Proofs.Settings.Sources
import PropertyGraph.Proofs.Graph.Seniority
import PropertyGraph.Proofs.Session.Timeline
import PropertyGraph.Proofs.Graph.Removal
import PropertyGraph.Proofs.Session.Removal
import PropertyGraph.Proofs.Graph.Overlay
import PropertyGraph.Proofs.Graph.Revision
import PropertyGraph.Proofs.Session.Revision
import PropertyGraph.Proofs.Graph.Acceptance
import PropertyGraph.Proofs.Session.Acceptance
import PropertyGraph.Proofs.Graph.Clearance
import PropertyGraph.Proofs.Session.Clearance
import PropertyGraph.Proofs.Number.Digits
import PropertyGraph.Proofs.Instant.Calendar
import PropertyGraph.Proofs.Instant.Text
import PropertyGraph.Proofs.Json.Canonical
import PropertyGraph.Proofs.SoftLink.Listing
import PropertyGraph.Proofs.Session.SoftLinks
import PropertyGraph.Proofs.Session.AskedText
import PropertyGraph.Proofs.Number.Order
import PropertyGraph.Proofs.Embedding.Highest
import PropertyGraph.Proofs.Embedding.Cache
