import StepGraph.Run.Clock
import StepGraph.Run.Options

/-!
# The guard of a run

A guard counts step executions and watches the clock. It halts a run for good as soon as a limit
is reached when the next step asks for permission; the number of steps is tested first, and the
clock is looked at only if that test passes.
-/

namespace StepGraph

/-- What halts a run. -/
inductive Limit where
  | steps
  | duration
  deriving DecidableEq, Repr

/-- The name of a limit. -/
def Limit.name : Limit → String
  | .steps => "max_steps"
  | .duration => "max_duration_ms"

/-- The guard of a run. -/
structure Guard where
  /-- The options that set the limits. -/
  options : Options := {}
  /-- The reading of the clock at the start. -/
  started : Float := 0
  /-- The number of steps counted. -/
  steps : Nat := 0
  /-- The limit that halted the run. -/
  halted : Option Limit := none

namespace Guard

/-- Whether the number of steps is used up. -/
def stepsSpent (g : Guard) : Bool :=
  match g.options.maxSteps with
  | some most => most ≤ g.steps
  | none => false

/-- Whether the time is used up at a reading of the clock. -/
def timeSpent (g : Guard) (now : Float) : Bool :=
  match g.options.maxDurationMs with
  | some most => most.lessOrEqual (.float ((now - g.started) * 1000))
  | none => false

/-- Whether the next question of permission takes a reading of the clock. -/
def readsClock (g : Guard) : Bool :=
  g.halted.isNone && !g.stepsSpent && g.options.maxDurationMs.isSome

/-- The guard after a question of permission; a limit once reached stays. -/
def check (g : Guard) (now : Float) : Guard :=
  match g.halted with
  | some _ => g
  | none =>
    if g.stepsSpent then { g with halted := some .steps }
    else if g.timeSpent now then { g with halted := some .duration }
    else g

/-- Whether the next step may run. -/
def allows (g : Guard) : Bool := g.halted.isNone

/-- The guard with one more step counted. -/
def count (g : Guard) : Guard := { g with steps := g.steps + 1 }

end Guard

end StepGraph
