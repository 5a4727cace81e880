import StepGraph.Number.Basic
import StepGraph.Number.Conversion

/-!
# Options of a run

Options limit a run and word its status. They may come from an environment of named settings, in
which an empty text counts as unset.
-/

namespace StepGraph

/-- The options of a run. -/
structure Options where
  /-- The number of step executions after which a run is halted. -/
  maxSteps : Option Int := none
  /-- The time after which a run is halted, in milliseconds. -/
  maxDurationMs : Option Number := none
  /-- The text shown while a run is going on. -/
  statusMessage : String := "Running workflow"

/-- The settings that options are read from. -/
structure Settings where
  /-- The setting of the number of steps. -/
  maxSteps : Option String := none
  /-- The setting of the time. -/
  maxDurationMs : Option String := none
  /-- The setting of the status text. -/
  statusMessage : Option String := none

/-- The options in an environment; the number of steps is read first. -/
def Options.ofSettings (settings : Settings) : Except Number.ConversionFault Options := do
  let given (text : Option String) := text.filter (!·.isEmpty)
  let maxSteps ← (given settings.maxSteps).mapM Number.integerOf
  let maxDuration ← (given settings.maxDurationMs).mapM Number.decimalOf
  return {
    maxSteps := maxSteps
    maxDurationMs := maxDuration.map .float
    statusMessage := (given settings.statusMessage).getD "Running workflow" }

end StepGraph
