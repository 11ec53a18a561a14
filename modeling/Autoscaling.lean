import Autoscaling.Abort
import Autoscaling.Autoscaler.Basic
import Autoscaling.Autoscaler.Json
import Autoscaling.Command.Request
import Autoscaling.Command.Respond
import Autoscaling.Config.Basic
import Autoscaling.Config.Error
import Autoscaling.Config.File
import Autoscaling.Config.Settings
import Autoscaling.Control.Engine
import Autoscaling.Control.Observer
import Autoscaling.Control.Site
import Autoscaling.Control.Tasks
import Autoscaling.Decimal.Layout
import Autoscaling.Decimal.Nearest
import Autoscaling.Decimal.Shortest
import Autoscaling.Decimal.Truncate
import Autoscaling.Decode.Basic
import Autoscaling.Decode.Error
import Autoscaling.Decode.Fields
import Autoscaling.Json.Printer
import Autoscaling.Json.Reader
import Autoscaling.Json.Value
import Autoscaling.Main
import Autoscaling.Operation
import Autoscaling.Ordered.Lemmas
import Autoscaling.Ordered.Map
import Autoscaling.Proofs.Command.Check
import Autoscaling.Proofs.Config.File
import Autoscaling.Proofs.Control.Aborts
import Autoscaling.Proofs.Control.Addressing
import Autoscaling.Proofs.Control.Inquiry
import Autoscaling.Proofs.Control.Journal
import Autoscaling.Proofs.Control.Notification
import Autoscaling.Proofs.Control.Observer
import Autoscaling.Proofs.Control.Pass
import Autoscaling.Proofs.Control.Sampling
import Autoscaling.Proofs.Control.Scaling
import Autoscaling.Proofs.Decimal.Bits
import Autoscaling.Proofs.Decimal.Doubles
import Autoscaling.Proofs.Decimal.Layout
import Autoscaling.Proofs.Decimal.Nearest
import Autoscaling.Proofs.Decimal.Numeral
import Autoscaling.Proofs.Decimal.Rounding
import Autoscaling.Proofs.Decimal.Shortest
import Autoscaling.Proofs.Decode.Data
import Autoscaling.Proofs.Decode.Reads
import Autoscaling.Proofs.Decode.Written
import Autoscaling.Proofs.Json.Pretty
import Autoscaling.Proofs.Json.Scalar
import Autoscaling.Proofs.Provider.Builtin
import Autoscaling.Proofs.Provider.Provision
import Autoscaling.Proofs.Provider.Registry
import Autoscaling.Proofs.Provider.Resolution
import Autoscaling.Proofs.Provider.Seams
import Autoscaling.Proofs.Provider.Sharing
import Autoscaling.Proofs.Reconcile.Calls
import Autoscaling.Proofs.Reconcile.Convergence
import Autoscaling.Proofs.Reconcile.Pass
import Autoscaling.Proofs.Reconcile.Plan
import Autoscaling.Proofs.Reconcile.Race
import Autoscaling.Proofs.Reconcile.Repetition
import Autoscaling.Proofs.Reconcile.Seeding
import Autoscaling.Proofs.Selector.Replicas
import Autoscaling.Proofs.Selector.Text
import Autoscaling.Proofs.Sim.Curve
import Autoscaling.Proofs.Sim.Instances
import Autoscaling.Proofs.Sim.Precision
import Autoscaling.Proofs.Store.Clients
import Autoscaling.Proofs.Store.LastWriter
import Autoscaling.Proofs.Store.Mutation
import Autoscaling.Proofs.Store.Records
import Autoscaling.Proofs.Store.Refusal
import Autoscaling.Proofs.Store.Representation
import Autoscaling.Proofs.Store.Run
import Autoscaling.Proofs.Store.Table
import Autoscaling.Proofs.Toml.Arranged
import Autoscaling.Proofs.Toml.Document
import Autoscaling.Proofs.Toml.Draft
import Autoscaling.Proofs.Toml.Json
import Autoscaling.Proofs.Toml.Number
import Autoscaling.Proofs.Toml.Text
import Autoscaling.Proofs.Toml.Tree
import Autoscaling.Proofs.Toml.Value
import Autoscaling.Proofs.View.Printed
import Autoscaling.Proofs.View.Projection
import Autoscaling.Proofs.View.Status
import Autoscaling.Proofs.View.Translation
import Autoscaling.Proofs.Watch.Additions
import Autoscaling.Proofs.Watch.Delivery
import Autoscaling.Proofs.Watch.Feed
import Autoscaling.Proofs.Watch.Follower
import Autoscaling.Proofs.Watch.Isolation
import Autoscaling.Proofs.Watch.Lifecycle
import Autoscaling.Proofs.Watch.Lifetime
import Autoscaling.Proofs.Watch.Loss
import Autoscaling.Proofs.Watch.Queue
import Autoscaling.Proofs.Watch.Replica
import Autoscaling.Proofs.Watch.Simulation
import Autoscaling.Provider.Backends
import Autoscaling.Provider.Builtin
import Autoscaling.Provider.Client
import Autoscaling.Provider.Error
import Autoscaling.Provider.Event
import Autoscaling.Provider.Registry
import Autoscaling.Reconcile.Plan
import Autoscaling.Reconcile.Run
import Autoscaling.Selector.Basic
import Autoscaling.Selector.Carrier
import Autoscaling.Selector.Lemmas
import Autoscaling.Sim.Backend
import Autoscaling.Sim.Config
import Autoscaling.Sim.Provider
import Autoscaling.Store.Basic
import Autoscaling.Store.Error
import Autoscaling.Store.Hub
import Autoscaling.Store.Hub.Lemmas
import Autoscaling.Store.Json
import Autoscaling.Store.Lemmas
import Autoscaling.Store.Replica
import Autoscaling.Text.Digits
import Autoscaling.Text.Invisible
import Autoscaling.Text.Quoted
import Autoscaling.Toml.Moment
import Autoscaling.Toml.Number
import Autoscaling.Toml.Printer
import Autoscaling.Toml.Reader
import Autoscaling.Toml.Text
import Autoscaling.Toml.Tree
import Autoscaling.Toml.Value
import Autoscaling.View.Basic
import Autoscaling.View.Derive
import Autoscaling.View.Json
