import StepGraph.Value.Basic

/-!
# Workflows

A workflow is a graph of steps with an entry point and variables to start with. A step names a
block to dispatch, the condition under which it runs, how it is repeated and retried, and the
steps that may follow it.
-/

namespace StepGraph

/-- How often a block is tried and how long to wait in between. -/
structure RetryPolicy where
  /-- The number of attempts asked for. -/
  attempts : Int := 1
  /-- The wait after the first failure, in milliseconds. -/
  delayMs : Number := .int 0
  /-- The factor by which every further wait grows. -/
  backoffFactor : Number := .int 1

/-- The number of attempts made at most, which is never less than one. -/
def RetryPolicy.maxAttempts (policy : RetryPolicy) : Nat := (max 1 policy.attempts).toNat

/-- The wait in milliseconds after a failed attempt, counted from one. -/
def RetryPolicy.delayAfter (policy : RetryPolicy) (attempt : Nat) :
    Except ArithmeticFault Number := do
  policy.delayMs.multiply (← policy.backoffFactor.power (attempt - 1))

/-- How many times a counted repeat runs. -/
inductive RepeatCount where
  | times (count : Int)
  /-- A path into the context at which the number stands. -/
  | path (path : String)
  deriving DecidableEq, Repr

/-- What a repeat encloses. -/
inductive RepeatScope where
  /-- The step's own block. -/
  | block
  /-- The walk from the step to the end of its subtree. -/
  | subtree
  deriving DecidableEq, Repr

/-- How a step is repeated. -/
structure RepeatConfig where
  /-- A path to the items to iterate over. -/
  forEach : Option String := none
  /-- The number of iterations, if there are no items. -/
  count : Option RepeatCount := none
  /-- Whether a failed iteration lets the next one start. -/
  continueOnError : Bool := false
  /-- The wait between two iterations, in milliseconds. -/
  delayBetween : Number := .int 0
  /-- What is repeated. -/
  scope : RepeatScope := .block
  /-- The step before which an iteration of a subtree ends. -/
  subtreeEnd : Option String := none

/-- One way out of a step. -/
structure SwitchCase where
  /-- The condition under which it is taken. -/
  condition : Value := .null
  /-- The step that it leads to. -/
  next : String := ""

/-- One node of the graph. -/
structure Step where
  /-- The name of the step. -/
  id : String := ""
  /-- A title for the reader. -/
  title : Option String := none
  /-- The condition under which the step runs. -/
  condition : Value := .null
  /-- What is dispatched; a step without a block is passed over. -/
  block : Option (List (String × Value)) := none
  /-- How the step is repeated. -/
  repetition : Option RepeatConfig := none
  /-- How a failed block is tried again. -/
  retry : Option RetryPolicy := none
  /-- How long one dispatch may take, in milliseconds. -/
  timeoutMs : Option Number := none
  /-- Ways out that are tried in order. -/
  switch : List SwitchCase := []
  /-- The way out after success. -/
  onSuccess : Option String := none
  /-- The way out after failure. -/
  onFailure : Option String := none
  /-- The way out if no other is taken. -/
  next : Option String := none
  /-- The wait before the next step, in milliseconds. -/
  delayAfterMs : Option Number := none
  /-- Variables set after the step has run, with their bindings. -/
  setVars : Option (List (String × Value)) := none

/-- The retry policy of a step, by default a single attempt. -/
def Step.retryPolicy (step : Step) : RetryPolicy := step.retry.getD {}

/-- The repeat of the walk that starts at a step. -/
def Step.subtreeRepeat? (step : Step) : Option RepeatConfig :=
  step.repetition.filter (·.scope == .subtree)

/-- The repeat of a step's own block. -/
def Step.blockRepeat? (step : Step) : Option RepeatConfig :=
  step.repetition.filter (·.scope == .block)

/-- A graph of steps. -/
structure Workflow where
  /-- The version of the format. -/
  version : String := "1"
  /-- The name of the workflow. -/
  id : Option String := none
  /-- A title for the reader. -/
  title : Option String := none
  /-- A description for the reader. -/
  description : Option String := none
  /-- The step at which a run starts. -/
  start : String := ""
  /-- The steps in the order in which they are written. -/
  steps : List Step := []
  /-- Variables that are set from the start. -/
  vars : List (String × Value) := []
  /-- A template for the address of the surface. -/
  targetUrl : Option String := none
  /-- The wait before the next step where a step does not say, in milliseconds. -/
  defaultDelayMs : Option Number := none

/-- The step of a name; of several the last one written. -/
def Workflow.step? (workflow : Workflow) (id : String) : Option Step :=
  workflow.steps.reverse.find? (·.id == id)

end StepGraph
