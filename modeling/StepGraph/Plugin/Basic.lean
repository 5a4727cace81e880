import StepGraph.Plugin.Signature

/-!
# Plugins

A plugin executes the blocks of one name: the values of a block are bound to its signature and
handed to its body. One plugin is always there; it does nothing but wait.
-/

namespace StepGraph

/-- What a plugin did. -/
structure Performance where
  /-- The time it took, in seconds; none if it replied at once. -/
  seconds : Option Float := none
  /-- What it replied. -/
  reply : Value

/-- A plugin. -/
structure Plugin where
  /-- The name of the plugin itself. -/
  className : String
  /-- The name of the blocks that it executes, unless it is the plugin's own. -/
  pluginName : Option String := none
  /-- The values that it takes. -/
  signature : Signature
  /-- What it does with the values of a call. -/
  body : List (String × Value) → Except Raised Performance

namespace Plugin

/-- The name of the blocks that a plugin executes. -/
def blockName (p : Plugin) : String := (p.pluginName.filter (!·.isEmpty)).getD p.className

/-- A plugin called with bound values. -/
def call (p : Plugin) (bound : List (String × Value)) : Except Raised Performance :=
  match p.signature.complaint? (p.className ++ ".execute") bound with
  | some complaint => .error (.withMessage .type complaint)
  | none => p.body (p.signature.complete bound)

/-- A plugin called with the values of a block. -/
def perform (p : Plugin) (values : List (String × Value)) : Except Raised Performance :=
  match p.signature.bind values with
  | .error fault => .error (.ofConversion fault)
  | .ok bound => p.call bound

/-- A duration in milliseconds as a number. -/
def durationOf (v : Value) : Except Raised Number :=
  match v with
  | .number n => .ok n
  | .bool b => .ok (.int (if b then 1 else 0))
  | v => .error (.withMessage .type
      ("'<' not supported between instances of '" ++ v.kindName ++ "' and 'int'"))

/-- The reply after a wait of some milliseconds; a wait that is not positive takes no time. -/
def waitFor (duration : Number) : Except Raised Performance :=
  if duration.less (.int 0) then
    .error (.withMessage .value ("duration must not be negative, got " ++ duration.shownText))
  else
    match duration.divide (.int 1000) with
    | .error fault => .error (.ofArithmetic fault)
    | .ok quotient =>
      match quotient.toFloat with
      | .error fault => .error (.ofArithmetic fault)
      | .ok seconds => .ok
          { seconds := if quotient.isPositive then some seconds else none
            reply := .mapping [("data", .bool true)] }

/-- The plugin that waits for the milliseconds given as its duration. -/
def wait : Plugin where
  className := "WaitBlock"
  pluginName := some "wait"
  signature := { parameters := [{ name := "duration", accepts := ⟨[.decimal]⟩ }] }
  body values := do
    let duration ← durationOf ((Entries.get? values "duration").getD .null)
    waitFor duration

/-- The plugin that others are made from, which has no body of its own. -/
def base : Plugin where
  className := "PluginBase"
  signature := { acceptsOthers := true }
  body _ := .error (.withMessage .bodiless "Plugins must implement the execute method")

end Plugin

end StepGraph
