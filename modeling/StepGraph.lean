import StepGraph.Client
import StepGraph.Condition
import StepGraph.Context
import StepGraph.Expression.Evaluation
import StepGraph.Expression.Fault
import StepGraph.Expression.Lexing
import StepGraph.Expression.Parsing
import StepGraph.Expression.Token
import StepGraph.Expression.Tree
import StepGraph.Json.Quoted
import StepGraph.Json.Reader
import StepGraph.Number.Basic
import StepGraph.Number.Binary64
import StepGraph.Number.Conversion
import StepGraph.Number.Decimal
import StepGraph.Number.Reading
import StepGraph.Pattern.Matching
import StepGraph.Pattern.Reading
import StepGraph.Pattern.Tree
import StepGraph.Plugin.Accepted
import StepGraph.Plugin.Basic
import StepGraph.Plugin.Raised
import StepGraph.Plugin.Registry
import StepGraph.Plugin.Signature
import StepGraph.Proofs.Accepted
import StepGraph.Proofs.Action
import StepGraph.Proofs.Acyclic
import StepGraph.Proofs.Answer
import StepGraph.Proofs.Arithmetic
import StepGraph.Proofs.Assignment
import StepGraph.Proofs.Attempts
import StepGraph.Proofs.Binding
import StepGraph.Proofs.Blind
import StepGraph.Proofs.Block
import StepGraph.Proofs.Coercion
import StepGraph.Proofs.Completion
import StepGraph.Proofs.ConditionAgreement
import StepGraph.Proofs.ConditionForms
import StepGraph.Proofs.Congruence
import StepGraph.Proofs.Constants
import StepGraph.Proofs.Content
import StepGraph.Proofs.Course
import StepGraph.Proofs.Cursor
import StepGraph.Proofs.CursorReading
import StepGraph.Proofs.Defined
import StepGraph.Proofs.DefinedRun
import StepGraph.Proofs.DefinedWalk
import StepGraph.Proofs.Dependence
import StepGraph.Proofs.Depth
import StepGraph.Proofs.Dotted
import StepGraph.Proofs.Equality
import StepGraph.Proofs.Executions
import StepGraph.Proofs.Finish
import StepGraph.Proofs.Footprint
import StepGraph.Proofs.Frames
import StepGraph.Proofs.Grammar
import StepGraph.Proofs.Idle
import StepGraph.Proofs.Instants
import StepGraph.Proofs.LastOfName
import StepGraph.Proofs.LastWrite
import StepGraph.Proofs.LateReplies
import StepGraph.Proofs.Lockstep
import StepGraph.Proofs.LoopState
import StepGraph.Proofs.Mentions
import StepGraph.Proofs.Negation
import StepGraph.Proofs.Parsing
import StepGraph.Proofs.Parts
import StepGraph.Proofs.PathAgreement
import StepGraph.Proofs.Payload
import StepGraph.Proofs.Reading
import StepGraph.Proofs.Record
import StepGraph.Proofs.RepeatScopes
import StepGraph.Proofs.Rounding
import StepGraph.Proofs.Rounds
import StepGraph.Proofs.ScopeAgreement
import StepGraph.Proofs.SkipFlags
import StepGraph.Proofs.Spelling
import StepGraph.Proofs.Status
import StepGraph.Proofs.StepLimit
import StepGraph.Proofs.Stretch
import StepGraph.Proofs.Substitution
import StepGraph.Proofs.SubtreeEnd
import StepGraph.Proofs.Summary
import StepGraph.Proofs.Termination
import StepGraph.Proofs.Timeline
import StepGraph.Proofs.TraceContext
import StepGraph.Proofs.Verdict
import StepGraph.Proofs.Walk
import StepGraph.Run.Action
import StepGraph.Run.Basic
import StepGraph.Run.Block
import StepGraph.Run.Clock
import StepGraph.Run.Guard
import StepGraph.Run.Options
import StepGraph.Run.Report
import StepGraph.Run.Step
import StepGraph.Run.Walk
import StepGraph.Run.World
import StepGraph.Template
import StepGraph.Text.Blank
import StepGraph.Text.Digit
import StepGraph.Text.Lowercase
import StepGraph.Text.Printable
import StepGraph.Text.Quoted
import StepGraph.Text.Ranges
import StepGraph.Text.Word
import StepGraph.Value.Basic
import StepGraph.Value.Entries
import StepGraph.Value.Equality
import StepGraph.Value.Flat
import StepGraph.Value.Key
import StepGraph.Value.Lookup
import StepGraph.Value.Reply
import StepGraph.Value.Text
import StepGraph.Wire.Document
import StepGraph.Wire.Fault
import StepGraph.Wire.Shape
import StepGraph.Workflow.Basic
import StepGraph.Workflow.File
import StepGraph.Workflow.Reading
import StepGraph.Workflow.Repeat
import StepGraph.Workflow.Routing
import StepGraph.Yaml.Plain
import StepGraph.Yaml.Reader
import StepGraph.Yaml.Writer
