import Stepwise.CommandLine.Arguments
import Stepwise.CommandLine.Program
import Stepwise.Condition
import Stepwise.Condition.Compare
import Stepwise.Condition.Evaluate
import Stepwise.Decode.Error
import Stepwise.Decode.Form
import Stepwise.Decode.InOrder
import Stepwise.Files.Access
import Stepwise.Files.Path
import Stepwise.Files.Tree
import Stepwise.Json
import Stepwise.Json.Fragment
import Stepwise.Json.Literal
import Stepwise.Json.Printer
import Stepwise.Mail.Address
import Stepwise.Mail.Delivery
import Stepwise.Mail.Encoding
import Stepwise.Mail.Header
import Stepwise.Mail.Message
import Stepwise.Main
import Stepwise.Number.Double
import Stepwise.Number.Reading
import Stepwise.Number.Shortest
import Stepwise.Ordered
import Stepwise.Pdf.Document
import Stepwise.Pdf.Folder
import Stepwise.Pdf.Form
import Stepwise.Pdf.Notation
import Stepwise.Pdf.Object
import Stepwise.Pdf.TextString
import Stepwise.Pool
import Stepwise.Pool.Entry
import Stepwise.Proofs.Ordered
import Stepwise.Proofs.Pool
import Stepwise.Proofs.RecordTable
import Stepwise.Proofs.Run.BranchElimination
import Stepwise.Proofs.Run.Calls
import Stepwise.Proofs.Run.Composition
import Stepwise.Proofs.Run.Correspondence
import Stepwise.Proofs.Run.Moment
import Stepwise.Proofs.Run.RecordUpdates
import Stepwise.Proofs.Run.Result
import Stepwise.Proofs.Run.Surroundings
import Stepwise.Proofs.Run.Visits
import Stepwise.Redaction
import Stepwise.Rehearsal
import Stepwise.Rehearsal.Call
import Stepwise.Run
import Stepwise.Run.Collaborators
import Stepwise.Run.Outcome
import Stepwise.Run.Task
import Stepwise.Session
import Stepwise.Settings
import Stepwise.Settings.Environment
import Stepwise.Store.Error
import Stepwise.Store.Memory
import Stepwise.Store.RecordFile
import Stepwise.Store.WorkflowFolder
import Stepwise.Text.Base64
import Stepwise.Text.Blank
import Stepwise.Text.Caseless
import Stepwise.Text.Edges
import Stepwise.Text.Pieces
import Stepwise.Text.Printable
import Stepwise.Text.Units
import Stepwise.Text.Utf8
import Stepwise.Text.Word
import Stepwise.Variable
import Stepwise.Web.Exchange
import Stepwise.Web.Percent
import Stepwise.Web.Punycode
import Stepwise.Web.Url
import Stepwise.Workflow
import Stepwise.Workflow.Document
import Stepwise.Workflow.Kind
import Stepwise.Workflow.Task
import Stepwise.Yaml.Block
import Stepwise.Yaml.Cursor
import Stepwise.Yaml.Node
import Stepwise.Yaml.Quoted
import Stepwise.Yaml.Scalar
import Stepwise.Yaml.Tag
import Stepwise.Yaml.Token
import Stepwise.Yaml.Value
import Stepwise.Proofs.Run.PoolWrites
import Stepwise.Proofs.Condition
import Stepwise.Proofs.Run.RecordLookup
import Stepwise.Proofs.Run.PoolReads
import Stepwise.Proofs.Run.UnreadEntry
import Stepwise.Proofs.Json
import Stepwise.Proofs.Decode
import Stepwise.Proofs.Written.Condition
import Stepwise.Proofs.Written.Task
import Stepwise.Proofs.Written.Workflow
import Stepwise.Proofs.Written.Pool
import Stepwise.Proofs.Run.PoolStability
import Stepwise.Proofs.Json.Literal
import Stepwise.Proofs.Json.ReadBack
import Stepwise.Proofs.Files.Path
import Stepwise.Proofs.Files.Tree
import Stepwise.Proofs.Store.RecordFile
import Stepwise.Proofs.Store.RecordList
import Stepwise.Proofs.Run.DryRun
import Stepwise.Proofs.Run.Interleaving
import Stepwise.Proofs.Outline
import Stepwise.Proofs.Run.UnknownSteps
import Stepwise.Proofs.Run.FailedSteps
import Stepwise.Proofs.Files.Components
import Stepwise.Proofs.Run.Containment
import Stepwise.Proofs.Json.Spelled
import Stepwise.Proofs.Yaml.Scalars
import Stepwise.Proofs.Yaml.Tokens
import Stepwise.Proofs.Yaml.Spelled
import Stepwise.Proofs.Yaml.Nodes
import Stepwise.Proofs.Yaml.Numbers
import Stepwise.Proofs.Yaml.Values
import Stepwise.Proofs.Store.WorkflowDocument
import Stepwise.Proofs.Json.Grammar
import Stepwise.Proofs.Condition.Order
import Stepwise.Proofs.Number.Integers
import Stepwise.Proofs.Condition.Integers
import Stepwise.Proofs.Number.Text
import Stepwise.Proofs.Condition.Equality
import Stepwise.Proofs.Pdf.Document
import Stepwise.Proofs.Pdf.Fields
import Stepwise.Proofs.Pdf.Flatten
import Stepwise.Proofs.Number.Shortest
import Stepwise.Proofs.Json.Compact
import Stepwise.Proofs.Pdf.Edits
import Stepwise.Proofs.Pdf.Flattened
import Stepwise.Proofs.Pdf.Appearances
import Stepwise.Proofs.Pdf.FieldTypes
import Stepwise.Proofs.Pdf.FieldFlags
import Stepwise.Proofs.Run.FilledForms
import Stepwise.Proofs.Run.Requests
import Stepwise.Proofs.Run.Messages
import Stepwise.Proofs.Decode.PoolInput
import Stepwise.Proofs.Decode.Frame
import Stepwise.Proofs.Decode.MalformedStep
import Stepwise.Proofs.Store.WorkflowFolder
import Stepwise.Proofs.Store.OwnIdentifiers
import Stepwise.Proofs.Text.Caseless
import Stepwise.Proofs.Redaction.Sweep
import Stepwise.Proofs.Redaction.Rules
import Stepwise.Proofs.Redaction.Assignments
import Stepwise.Proofs.Redaction.AssignedNames
import Stepwise.Proofs.Redaction.Addresses
import Stepwise.Proofs.Redaction.Members
import Stepwise.Proofs.Text.Trim
import Stepwise.Proofs.Json.Fragment
import Stepwise.Proofs.Decode.InOrder
import Stepwise.Proofs.Settings.Document
import Stepwise.Proofs.Settings.Variables
import Stepwise.Proofs.Settings.Layers
import Stepwise.Proofs.Settings.HomePaths
import Stepwise.Proofs.Pdf.FieldIndex
