import StepGraph.Run.Action
import StepGraph.Value.Reply

/-!
# Running a block

A block is resolved against the context and dispatched, again and again until it succeeds or its
policy gives up. A repeat does so for every item and gathers what comes of it.
-/

namespace StepGraph

/-- What running a block came to. -/
structure Outcome where
  /-- The result that is recorded. -/
  result : Value := .null
  /-- Whether the block succeeded. -/
  success : Bool := true
  /-- The message for the trace. -/
  message : Value := .text ""
  /-- The number of dispatches tried. -/
  attempts : Nat := 0

/-- The outcome that a reply stands for. -/
def Outcome.ofReply (reply : Value) : Outcome :=
  let r := BlockResult.ofValue reply
  { result := .mapping r.entries
    success := r.succeeded
    message := if r.message.isPresent then r.message else .text ""
    attempts := 1 }

/-- The outcome of an attempt that raised a failure; a failure without a message gets one. -/
def Outcome.ofFailure (raised : String) : Outcome :=
  let message : Value := .text (if raised.isEmpty then "Workflow step error" else raised)
  { result := .mapping [("hasError", .bool true), ("message", message)]
    success := false, message := message, attempts := 1 }

/-- How values are resolved against a context; resolving may fail with a message. -/
abbrev Resolver := Context → Value → Except String Value

/-- The resolver that fills in templates and bindings, which never fails. -/
def Resolver.template : Resolver := fun ctx v => .ok (Template.resolve ctx v)

/-- Everything that stays the same while a block is tried. -/
structure Call where
  /-- Who executes the block. -/
  executor : Executor
  /-- How its bindings are resolved. -/
  resolver : Resolver
  /-- The block as the step gives it. -/
  block : List (String × Value)
  /-- The surface it is meant for. -/
  surface : Value
  /-- How often it is tried. -/
  policy : RetryPolicy
  /-- How long one attempt may take, in milliseconds. -/
  timeoutMs : Option Number

namespace Call

/-- One attempt: the block is resolved and dispatched. -/
def attempt (call : Call) (ctx : Context) : Act Outcome := fun w =>
  match call.resolver ctx (.mapping call.block) with
  | .error raised => (.ok (.ofFailure raised), w)
  | .ok payload =>
    match w.dispatch call.executor ⟨payload, call.surface⟩ call.timeoutMs with
    | (.ok reply, w) => (.ok (.ofReply reply), w)
    | (.error raised, w) => (.ok (.ofFailure raised), w)

/-- The wait after a failed attempt, counted from one. -/
def pause (call : Call) (failed : Nat) : Act Unit := do
  Act.change (·.askRetry call.policy failed)
  let delay ← Act.number (call.policy.delayAfter failed)
  if delay.isPositive then Act.sleep delay

/-- One attempt more than a given number, as long as none succeeds, after some that have
failed. -/
def attempts (call : Call) (ctx : Context) : Nat → Nat → Act Outcome
  | more, failed => do
    let tried ← call.attempt ctx
    let outcome := { tried with attempts := failed + 1 }
    match more with
    | 0 => return outcome
    | more + 1 =>
      if outcome.success then return outcome
      else
        call.pause (failed + 1)
        call.attempts ctx more (failed + 1)

/-- The block run through its retry policy. -/
def run (call : Call) (ctx : Context) : Act Outcome :=
  call.attempts ctx (call.policy.maxAttempts - 1) 0

end Call

/-- The mapping by which a summary is recorded. -/
def summary (hasError : Bool) (message : String) (data : Value) : Value :=
  .mapping [("hasError", .bool hasError), ("message", .text message), ("data", data)]

/-- The outcome of a repeat that cannot start. -/
def Outcome.ofRepeatFault (fault : RepeatFault) : Outcome where
  result := summary true fault.message .null
  success := false
  message := .text fault.message

/-- What the iterations of a block have come to so far. -/
structure Tally where
  /-- The results in order, null for a failed iteration. -/
  results : List Value := []
  /-- The failed iterations. -/
  errors : List Value := []
  /-- The number of dispatches tried. -/
  attempts : Nat := 0

namespace Tally

/-- The tally after one more iteration, except for its result. -/
def spend (tally : Tally) (outcome : Outcome) : Tally :=
  { tally with attempts := tally.attempts + outcome.attempts }

/-- The tally with a result. -/
def record (tally : Tally) (result : Value) : Tally :=
  { tally with results := tally.results ++ [result] }

/-- The tally with a failed iteration. -/
def fail (tally : Tally) (index : Nat) (item : Value) (outcome : Outcome) : Tally :=
  { tally with errors := tally.errors
      ++ [.mapping [("index", .int index), ("item", item), ("error", outcome.result)]] }

/-- The outcome of a repeat that ends with a failed iteration. -/
def stopped (tally : Tally) (index : Nat) (last : Outcome) : Outcome :=
  let message := "Repeat failed at index " ++ toString index ++ ": " ++ last.message.display
  let data : Value := .mapping
    [("results", .list tally.results), ("errors", .list tally.errors), ("stoppedAt", .int index)]
  { result := summary true message data, success := false, message := .text message,
    attempts := tally.attempts }

/-- The outcome of a repeat that went over all its items. -/
def finished (tally : Tally) (total : Nat) : Outcome :=
  let message :=
    if tally.errors.isEmpty then "Completed " ++ toString total ++ " iteration(s)"
    else "Completed with " ++ toString tally.errors.length ++ " error(s) out of " ++ toString total
  { result := summary false message (.list tally.results), success := true,
    message := .text message,
    attempts := tally.attempts }

end Tally

/-- The wait between two iterations; there is none after the last one. -/
def RepeatConfig.pause (config : RepeatConfig) (isLast : Bool) : Act Unit :=
  if !config.delayBetween.isZero && !isLast then Act.sleep config.delayBetween else pure ()

namespace Call

/-- The iterations of a block over the items from an index on. -/
def iterations (call : Call) (config : RepeatConfig) (source : RepeatSource) (total : Nat) :
    List Value → Nat → Context → Tally → Act (Outcome × Context)
  | [], _, ctx, tally => return (tally.finished total, ctx.exitLoop)
  | item :: rest, index, ctx, tally => do
    let inside := source.enter ctx item index total
    let outcome ← call.run inside
    let tally := tally.spend outcome
    if outcome.success then
      config.pause rest.isEmpty
      call.iterations config source total rest (index + 1) inside (tally.record outcome.result)
    else
      let tally := tally.fail index item outcome
      if config.continueOnError then
        config.pause rest.isEmpty
        call.iterations config source total rest (index + 1) inside (tally.record .null)
      else
        return (tally.stopped index outcome, inside.exitLoop)

/-- The block run once per item, and the context outside of the iterations. -/
def repeated (call : Call) (config : RepeatConfig) (ctx : Context) : Act (Outcome × Context) :=
  match config.source with
  | .error fault => return (.ofRepeatFault fault, ctx)
  | .ok source =>
    match source.itemsIn ctx with
    | .error fault => return (.ofRepeatFault fault, ctx)
    | .ok items => do
      let done ← call.iterations config source items.length items 0 ctx {}
      Act.change World.leaveRepeat
      return done

end Call

end StepGraph
