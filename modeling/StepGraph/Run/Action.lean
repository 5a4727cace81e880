import StepGraph.Run.World

/-!
# Actions on the world of a run

An action changes the world and either has a result or ends the run with a fault. What happened
before a fault stays in the world.
-/

namespace StepGraph

/-- What ends a run without a result. -/
inductive RunFault where
  /-- No address for the surface. -/
  | noTarget
  /-- A surface that could not be opened, and the cause. -/
  | noSurface (url cause : String)
  /-- A wait that cannot be computed. -/
  | arithmetic (fault : ArithmeticFault)
  /-- A reading of the clock without a timestamp. -/
  | clock (fault : ClockFault)
  /-- A walk that is longer than it was allowed to be. -/
  | unfinished
  deriving DecidableEq, Repr

/-- The wording of what ends a run. -/
def RunFault.message : RunFault → String
  | .noTarget => "A target URL is required to run a workflow"
  | .noSurface url cause =>
    "Failed to create execution surface for " ++ Text.quoted url ++ ": " ++ cause
  | .arithmetic fault => fault.message
  | .clock fault => fault.message
  | .unfinished => ""

/-- An action on the world: its result, or what ended it, and the world afterwards. -/
def Act (α : Type) : Type := World → Except RunFault α × World

namespace Act

/-- An action that only has a result. -/
def pure {α : Type} (a : α) : Act α := fun w => (.ok a, w)

/-- One action after another. -/
def bind {α β : Type} (first : Act α) (next : α → Act β) : Act β := fun w =>
  match first w with
  | (.ok a, w) => next a w
  | (.error fault, w) => (.error fault, w)

instance : Monad Act where
  pure := pure
  bind := bind

/-- An action that ends the run. -/
def stop {α : Type} (fault : RunFault) : Act α := fun w => (.error fault, w)

/-- What an action sees of the world. -/
def see {α : Type} (look : World → α) : Act α := fun w => (.ok (look w), w)

/-- A change of the world. -/
def change (step : World → World) : Act Unit := fun w => (.ok (), step w)

/-- A number that arithmetic may fail to give. -/
def number {α : Type} : Except ArithmeticFault α → Act α
  | .ok a => pure a
  | .error fault => stop (.arithmetic fault)

/-- The timestamp of the present reading. -/
def timestamp : Act Timestamp := fun w =>
  match Timestamp.ofReading w.now with
  | .ok t => (.ok t, w)
  | .error fault => (.error (.clock fault), w)

/-- A wait of some milliseconds. -/
def sleep (ms : Number) : Act Unit := do
  let quotient ← number (ms.divide (.int 1000))
  let seconds ← number quotient.toFloat
  change (·.sleep seconds)

end Act

end StepGraph
