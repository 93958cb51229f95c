import CallTree.Answer
import CallTree.CommandLine.Run
import CallTree.Config
import CallTree.Document.Printer
import CallTree.Document.Reader
import CallTree.Exchange
import CallTree.Logging
import CallTree.Main
import CallTree.Number.Reading
import CallTree.Plain
import CallTree.Proofs.Access
import CallTree.Proofs.Adapters
import CallTree.Proofs.Arguments
import CallTree.Proofs.Call
import CallTree.Proofs.CommandLine.Documents
import CallTree.Proofs.CommandLine.Outcomes
import CallTree.Proofs.CommandLine.Preparation
import CallTree.Proofs.Containment
import CallTree.Proofs.Delivery
import CallTree.Proofs.Dict
import CallTree.Proofs.Digits
import CallTree.Proofs.Document.Bytes
import CallTree.Proofs.Document.Json
import CallTree.Proofs.Document.MediaType
import CallTree.Proofs.Document.Toml.Entry
import CallTree.Proofs.Document.Toml.Escapes
import CallTree.Proofs.Document.Toml.Growth
import CallTree.Proofs.Document.Toml.Headers
import CallTree.Proofs.Document.Toml.Inline
import CallTree.Proofs.Document.Toml.Legible
import CallTree.Proofs.Document.Toml.Levels
import CallTree.Proofs.Document.Toml.Lines
import CallTree.Proofs.Document.Toml.Loss
import CallTree.Proofs.Document.Toml.Null
import CallTree.Proofs.Document.Toml.Numbers
import CallTree.Proofs.Document.Toml.Paths
import CallTree.Proofs.Document.Toml.Render
import CallTree.Proofs.Document.Toml.Rows
import CallTree.Proofs.Document.Toml.Sections
import CallTree.Proofs.Document.Toml.Strings
import CallTree.Proofs.Document.Toml.Tables
import CallTree.Proofs.Document.Toml.Unescape
import CallTree.Proofs.Document.Toml.Value
import CallTree.Proofs.ErrorFree
import CallTree.Proofs.Errors
import CallTree.Proofs.Evaluation
import CallTree.Proofs.Hex
import CallTree.Proofs.History
import CallTree.Proofs.Hook
import CallTree.Proofs.Key
import CallTree.Proofs.Layout
import CallTree.Proofs.Listing
import CallTree.Proofs.Logged
import CallTree.Proofs.Logging
import CallTree.Proofs.Outcome
import CallTree.Proofs.Parts
import CallTree.Proofs.Place
import CallTree.Proofs.Plain
import CallTree.Proofs.Poison
import CallTree.Proofs.Projection
import CallTree.Proofs.References
import CallTree.Proofs.Registration
import CallTree.Proofs.Run
import CallTree.Proofs.Scoping
import CallTree.Proofs.Sequence
import CallTree.Proofs.Shape
import CallTree.Proofs.Siblings
import CallTree.Proofs.Simulation
import CallTree.Proofs.Split
import CallTree.Proofs.Utf8
import CallTree.Proofs.Watched
import CallTree.Sample
import CallTree.World
