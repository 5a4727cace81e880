import StepGraph.Wire.Shape
import StepGraph.Workflow.Basic

/-!
# Reading workflows

The shapes of a workflow and its parts. Keys are exactly as listed, an unknown key is a fault, and
conditions and the values inside blocks and variables are taken as they are.
-/

namespace StepGraph

open Wire

/-- An optional text. -/
def Wire.Shape.optionalText : Shape (Option String) := Shape.text.optional

/-- An optional double. -/
def Wire.Shape.optionalDouble : Shape (Option Number) := Shape.double.optional

/-- The shape of a retry policy. -/
def RetryPolicy.shape : Shape RetryPolicy := .record {}
  [Shape.integer.member "attempts" fun p n => { p with attempts := n },
   Shape.double.member "delayMs" fun p x => { p with delayMs := x },
   Shape.double.member "backoffFactor" fun p x => { p with backoffFactor := x }]
  []

/-- The shape of a count: a number or a path. -/
def RepeatCount.shape : Shape RepeatCount :=
  (Shape.integer.map RepeatCount.times).or (Shape.text.map RepeatCount.path)

/-- The shape of a repeat. -/
def RepeatConfig.shape : Shape RepeatConfig := .record {}
  [Shape.optionalText.member "forEach" fun r path => { r with forEach := path },
   RepeatCount.shape.optional.member "count" fun r count => { r with count := count },
   Shape.truth.member "continueOnError" fun r b => { r with continueOnError := b },
   Shape.double.member "delayBetween" fun r x => { r with delayBetween := x },
   (Shape.choice [("block", RepeatScope.block), ("subtree", RepeatScope.subtree)]).member "scope"
     fun r scope => { r with scope := scope },
   Shape.optionalText.member "subtreeEnd" fun r id => { r with subtreeEnd := id }]
  []

/-- The shape of a way out of a step. -/
def SwitchCase.shape : Shape SwitchCase := .record {}
  [Shape.anything.member "when" fun c v => { c with condition := v },
   Shape.text.member "next" fun c id => { c with next := id }]
  ["when", "next"]

/-- The shape of a step. -/
def Step.shape : Shape Step := .record {}
  [Shape.text.member "id" fun s id => { s with id := id },
   Shape.optionalText.member "title" fun s title => { s with title := title },
   Shape.anything.member "when" fun s v => { s with condition := v },
   Shape.mapping.optional.member "block" fun s block => { s with block := block },
   RepeatConfig.shape.optional.member "repeat" fun s r => { s with repetition := r },
   RetryPolicy.shape.optional.member "retry" fun s p => { s with retry := p },
   Shape.optionalDouble.member "timeoutMs" fun s x => { s with timeoutMs := x },
   SwitchCase.shape.array.member "switch" fun s cases => { s with switch := cases },
   Shape.optionalText.member "onSuccess" fun s id => { s with onSuccess := id },
   Shape.optionalText.member "onFailure" fun s id => { s with onFailure := id },
   Shape.optionalText.member "next" fun s id => { s with next := id },
   Shape.optionalDouble.member "delayAfterMs" fun s x => { s with delayAfterMs := x },
   Shape.mapping.optional.member "setVars" fun s vars => { s with setVars := vars }]
  ["id"]

/-- The shape of a workflow. -/
def Workflow.shape : Shape Workflow := .record {}
  [Shape.text.member "version" fun w version => { w with version := version },
   Shape.optionalText.member "id" fun w id => { w with id := id },
   Shape.optionalText.member "title" fun w title => { w with title := title },
   Shape.optionalText.member "description" fun w text => { w with description := text },
   Shape.text.member "start" fun w id => { w with start := id },
   Step.shape.array.member "steps" fun w steps => { w with steps := steps },
   Shape.mapping.member "vars" fun w vars => { w with vars := vars },
   Shape.optionalText.member "targetUrl" fun w url => { w with targetUrl := url },
   Shape.optionalDouble.member "defaultDelayMs" fun w x => { w with defaultDelayMs := x }]
  ["start", "steps"]

/-- The workflow that a document describes. -/
def Workflow.ofDocument (document : Document) : Except Fault Workflow :=
  Workflow.shape.read [] document

/-- The workflow that a value describes. -/
def Workflow.ofValue (v : Value) : Except Fault Workflow :=
  Workflow.ofDocument (Document.ofValue v)

end StepGraph
