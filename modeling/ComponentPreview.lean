import ComponentPreview.Analysis.Accessibility
import ComponentPreview.Analysis.Basic
import ComponentPreview.Analysis.Complexity
import ComponentPreview.Analysis.Encoding
import ComponentPreview.Analysis.Performance
import ComponentPreview.Analysis.Report
import ComponentPreview.Analysis.Security
import ComponentPreview.Breakdown
import ComponentPreview.Client.Address
import ComponentPreview.Client.Exchange
import ComponentPreview.Client.Host
import ComponentPreview.Client.Relay
import ComponentPreview.Clock
import ComponentPreview.Config
import ComponentPreview.Controller.Basic
import ComponentPreview.Controller.Request
import ComponentPreview.Controller.Session
import ComponentPreview.Controller.Step
import ComponentPreview.Decimal.Double
import ComponentPreview.Decimal.Rounding
import ComponentPreview.Decimal.Shortest
import ComponentPreview.Digest.Md5
import ComponentPreview.Digest.Sha256
import ComponentPreview.Digest.Words
import ComponentPreview.Document.Basic
import ComponentPreview.Document.HostPage
import ComponentPreview.Json.Bytes
import ComponentPreview.Json.Display
import ComponentPreview.Json.Printer
import ComponentPreview.Json.Reader
import ComponentPreview.Json.Value
import ComponentPreview.Lifecycle.Audience
import ComponentPreview.Lifecycle.Bus
import ComponentPreview.Lifecycle.Message
import ComponentPreview.Main
import ComponentPreview.Named
import ComponentPreview.Preview
import ComponentPreview.Proofs.Controller.Closing
import ComponentPreview.Proofs.Controller.Course
import ComponentPreview.Proofs.Controller.Deadline
import ComponentPreview.Proofs.Controller.Debounce
import ComponentPreview.Proofs.Controller.Desk
import ComponentPreview.Proofs.Controller.Draft
import ComponentPreview.Proofs.Controller.Effect
import ComponentPreview.Proofs.Controller.Expiry
import ComponentPreview.Proofs.Controller.Failure
import ComponentPreview.Proofs.Controller.Freshness
import ComponentPreview.Proofs.Controller.Inflight
import ComponentPreview.Proofs.Controller.Retry
import ComponentPreview.Proofs.Controller.Run
import ComponentPreview.Proofs.Controller.Seed
import ComponentPreview.Proofs.Controller.Session
import ComponentPreview.Proofs.Controller.Settling
import ComponentPreview.Proofs.Controller.Stance
import ComponentPreview.Proofs.Controller.Steady
import ComponentPreview.Proofs.Controller.Task
import ComponentPreview.Proofs.Controller.Verdict
import ComponentPreview.Proofs.Controller.Watch
import ComponentPreview.Proofs.Declaration.Alias
import ComponentPreview.Proofs.Declaration.Rounds
import ComponentPreview.Proofs.Document.Answer
import ComponentPreview.Proofs.Document.Binding
import ComponentPreview.Proofs.Document.Checked
import ComponentPreview.Proofs.Document.Embedding
import ComponentPreview.Proofs.Document.History
import ComponentPreview.Proofs.Document.HostPage
import ComponentPreview.Proofs.Document.Seeding
import ComponentPreview.Proofs.Export.Assignment
import ComponentPreview.Proofs.Export.Elimination
import ComponentPreview.Proofs.Export.Entry
import ComponentPreview.Proofs.Export.Listing
import ComponentPreview.Proofs.Export.Statement
import ComponentPreview.Proofs.Json.Legible
import ComponentPreview.Proofs.Lifecycle.Audience
import ComponentPreview.Proofs.Lifecycle.Backlog
import ComponentPreview.Proofs.Lifecycle.Bus
import ComponentPreview.Proofs.Lifecycle.Delivery
import ComponentPreview.Proofs.Lifecycle.Isolation
import ComponentPreview.Proofs.Lifecycle.Message
import ComponentPreview.Proofs.Lifecycle.Queue
import ComponentPreview.Proofs.Lifecycle.Relaying
import ComponentPreview.Proofs.Lifecycle.Subscription
import ComponentPreview.Proofs.Schedule
import ComponentPreview.Proofs.Script.Assembly
import ComponentPreview.Proofs.Script.Balance
import ComponentPreview.Proofs.Script.Checked
import ComponentPreview.Proofs.Script.Cutting
import ComponentPreview.Proofs.Script.Import
import ComponentPreview.Proofs.Script.Keyword
import ComponentPreview.Proofs.Script.Parameter
import ComponentPreview.Proofs.Script.Plain
import ComponentPreview.Proofs.Script.Primitive
import ComponentPreview.Proofs.Script.Residue
import ComponentPreview.Proofs.Script.Seam
import ComponentPreview.Proofs.Script.Step
import ComponentPreview.Proofs.Script.Token
import ComponentPreview.Proofs.Service.Admission
import ComponentPreview.Proofs.Service.Cleanup
import ComponentPreview.Proofs.Service.Lifetime
import ComponentPreview.Proofs.Service.Newest
import ComponentPreview.Proofs.Service.Posting
import ComponentPreview.Proofs.Service.RateLimit
import ComponentPreview.Proofs.Service.Refusal
import ComponentPreview.Proofs.Service.Relay
import ComponentPreview.Proofs.Service.Renewal
import ComponentPreview.Proofs.Service.Run
import ComponentPreview.Proofs.Service.Store
import ComponentPreview.Proofs.Source.Clause
import ComponentPreview.Proofs.Source.Component
import ComponentPreview.Proofs.Source.Import
import ComponentPreview.Proofs.Stub.Coverage
import ComponentPreview.Proofs.Stub.Declared
import ComponentPreview.Proofs.Stub.Definition
import ComponentPreview.Proofs.Stub.Import
import ComponentPreview.Proofs.Stub.Outline
import ComponentPreview.Proofs.Stub.Registry
import ComponentPreview.Proofs.Terminal.Arguments
import ComponentPreview.Proofs.Terminal.Convergence
import ComponentPreview.Proofs.Terminal.Looking
import ComponentPreview.Proofs.Terminal.Render
import ComponentPreview.Proofs.Terminal.Tracking
import ComponentPreview.Proofs.Terminal.Watching
import ComponentPreview.Proofs.Text.Absence
import ComponentPreview.Proofs.Text.Apart
import ComponentPreview.Proofs.Text.Checked
import ComponentPreview.Proofs.Text.Collect
import ComponentPreview.Proofs.Text.Dissection
import ComponentPreview.Proofs.Text.Edit
import ComponentPreview.Proofs.Text.Ends
import ComponentPreview.Proofs.Text.Markup
import ComponentPreview.Proofs.Text.Match
import ComponentPreview.Proofs.Text.Preference
import ComponentPreview.Proofs.Text.Reference
import ComponentPreview.Proofs.Text.Rewrite
import ComponentPreview.Proofs.Type.Adjacency
import ComponentPreview.Proofs.Type.Binding
import ComponentPreview.Proofs.Type.Conditional
import ComponentPreview.Proofs.Type.Depth
import ComponentPreview.Proofs.Type.Expression
import ComponentPreview.Proofs.Type.Parameter
import ComponentPreview.Proofs.Type.Return
import ComponentPreview.Proofs.Validation
import ComponentPreview.Sandbox.Bindings
import ComponentPreview.Sandbox.Loader
import ComponentPreview.Sandbox.Policy
import ComponentPreview.Sandbox.Prelude
import ComponentPreview.Sandbox.Style
import ComponentPreview.Schedule
import ComponentPreview.Script.Annotation
import ComponentPreview.Script.Balance
import ComponentPreview.Script.Basic
import ComponentPreview.Script.Brackets
import ComponentPreview.Script.Declaration
import ComponentPreview.Script.Modules
import ComponentPreview.Service.App
import ComponentPreview.Service.Numeral
import ComponentPreview.Service.RateLimit
import ComponentPreview.Service.Settings
import ComponentPreview.Service.Store
import ComponentPreview.Service.Submission
import ComponentPreview.Source.Basic
import ComponentPreview.Source.Component
import ComponentPreview.Source.Import
import ComponentPreview.Stub.Basic
import ComponentPreview.Stub.Synthesis
import ComponentPreview.Terminal.Arguments
import ComponentPreview.Terminal.Basic
import ComponentPreview.Terminal.Browser
import ComponentPreview.Terminal.Defaults
import ComponentPreview.Terminal.File
import ComponentPreview.Terminal.Inbox
import ComponentPreview.Terminal.Local
import ComponentPreview.Terminal.Program
import ComponentPreview.Terminal.Report
import ComponentPreview.Terminal.Usage
import ComponentPreview.Text.Basic
import ComponentPreview.Text.Integer
import ComponentPreview.Text.Markup
import ComponentPreview.Text.Pattern
import ComponentPreview.Text.Percent
import ComponentPreview.Text.Punycode
import ComponentPreview.Text.Template
import ComponentPreview.Text.Utf8
import ComponentPreview.Unicode.Blank
import ComponentPreview.Unicode.Digit
import ComponentPreview.Unicode.Label
import ComponentPreview.Unicode.Lower
import ComponentPreview.Unicode.Printable
import ComponentPreview.Unicode.Table
import ComponentPreview.Unicode.Token
import ComponentPreview.Unicode.Upper
import ComponentPreview.Unicode.Word
import ComponentPreview.Validation
