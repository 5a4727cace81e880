import StepGraph.Value.Lookup

/-!
# The context of a run

The context holds the results of the steps so far, the variables and the state of the innermost
iteration. It is read by dotted paths: `steps.` and `vars.` start paths to results and
variables, `forEach` and `loop` are the iteration states. Every setter gives a new context.
-/

namespace StepGraph

/-- What the steps of a run can see. -/
structure Context where
  /-- Results of executed steps, by step id, in order of first execution. -/
  steps : List (String × StepResult) := []
  /-- Variables, in order of first assignment. -/
  vars : List (String × Value) := []
  /-- State of the innermost iteration over items. -/
  each : Option EachState := none
  /-- State of the innermost counted iteration. -/
  loop : Option LoopState := none

namespace Context

/-- The context with a step's result written. -/
def setStepResult (ctx : Context) (id : String) (result : StepResult) : Context :=
  { ctx with steps := Entries.insert id result ctx.steps }

/-- The context with one variable written. -/
def setVar (ctx : Context) (key : String) (value : Value) : Context :=
  { ctx with vars := Entries.insert key value ctx.vars }

/-- The context with several variables written. -/
def setVars (ctx : Context) (values : List (String × Value)) : Context :=
  { ctx with vars := Entries.merge ctx.vars values }

/-- The context inside an iteration over items; a counted iteration stays visible. -/
def enterEach (ctx : Context) (item : Value) (index total : Int) : Context :=
  { ctx with each := some ⟨item, index, total⟩ }

/-- The context inside a counted iteration; an iteration over items stays visible. -/
def enterLoop (ctx : Context) (index count : Int) : Context :=
  { ctx with loop := some ⟨index, count⟩ }

/-- The context outside all iterations. -/
def exitLoop (ctx : Context) : Context := { ctx with each := none, loop := none }

/-- The results of all steps as one value. -/
def stepsValue (ctx : Context) : Value :=
  .mapping (ctx.steps.map fun (id, result) => (id, result.toValue))

/-- The variables as one value. -/
def varsValue (ctx : Context) : Value := .mapping ctx.vars

/-- The state of the iteration over items, undefined outside of one. -/
def eachValue (ctx : Context) : Value := .ofOption (ctx.each.map EachState.toValue)

/-- The state of the counted iteration, undefined outside of one. -/
def loopValue (ctx : Context) : Value := .ofOption (ctx.loop.map LoopState.toValue)

end Context

namespace Path

/-- The segments of a path: the texts between its dots, as characters. -/
def segmentsOf : List Char → List (List Char)
  | [] => [[]]
  | c :: rest =>
    match segmentsOf rest with
    | [] => [[c]]
    | segment :: others => if c = '.' then [] :: segment :: others else (c :: segment) :: others

/-- The segments of a path. -/
def segments (path : String) : List String := (segmentsOf path.toList).map String.ofList

/-- The segments of a path are what its dots split it into. -/
theorem segments_eq_splitOn (path : String) :
    segments path = (path.toList.splitOn '.').map String.ofList := by
  unfold segments
  congr 1
  induction path.toList with
  | nil => rfl
  | cons c rest ih =>
    rw [segmentsOf, List.splitOn_cons_eq_if_modifyHead, ih]
    cases hrest : rest.splitOn '.' with
    | nil => exact absurd hrest (List.splitOn_ne_nil '.' rest)
    | cons segment others => by_cases hdot : c = '.' <;> simp [hdot]

/-- A part of the context that answers paths. -/
inductive Area where
  | steps
  | vars
  | iteration
  deriving DecidableEq, Repr

/-- The part of the context that a list of segments belongs to. Results and variables need a dot
after their root; the iteration states are themselves values. -/
def areaOf? : List String → Option Area
  | "steps" :: _ :: _ => some .steps
  | "vars" :: _ :: _ => some .vars
  | "forEach" :: _ => some .iteration
  | "loop" :: _ => some .iteration
  | _ => none

end Path

namespace Context

/-- Whether a part of the context answers a path. -/
def owns (area : Path.Area) (path : String) : Bool :=
  Path.areaOf? (Path.segments path) == some area

/-- The value at a list of segments, undefined for an unknown root and for a path that ends at
the dot after its root. -/
def read (ctx : Context) : List String → Value
  | ["steps", ""] => .undefined
  | "steps" :: key :: rest => ctx.stepsValue.walk (key :: rest)
  | ["vars", ""] => .undefined
  | "vars" :: key :: rest => ctx.varsValue.walk (key :: rest)
  | "forEach" :: rest => ctx.eachValue.walk rest
  | "loop" :: rest => ctx.loopValue.walk rest
  | _ => .undefined

/-- The value at a dotted path. -/
def resolve (ctx : Context) (path : String) : Value := ctx.read (Path.segments path)

/-- The value at a path given as a value; only a text is a path. -/
def resolveValue (ctx : Context) : Value → Value
  | .text path => ctx.resolve path
  | _ => .undefined

/-- What one part of the context answers to a path. -/
def resolveIn (ctx : Context) (area : Path.Area) (path : String) : Value :=
  if owns area path then ctx.resolve path else .undefined

/-- The result of a step. -/
def stepResult? (ctx : Context) (id : String) : Option StepResult := Entries.get? ctx.steps id

/-- The value of a variable. -/
def var? (ctx : Context) (key : String) : Option Value := Entries.get? ctx.vars key

/-- What is found under a name among the results. -/
theorem get?_stepsValue (ctx : Context) (key : String) :
    Entries.get? (ctx.steps.map fun (id, result) => (id, result.toValue)) key =
      (ctx.stepResult? key).map StepResult.toValue := by
  unfold stepResult?
  induction ctx.steps with
  | nil => rfl
  | cons first rest ih =>
    obtain ⟨name, result⟩ := first
    by_cases hname : name = key <;> simp [Entries.get?, hname, ih]

/-- What a path reads from the results begins with the result of the step that it names. -/
theorem walk_stepsValue (ctx : Context) (key : String) (rest : List String) :
    ctx.stepsValue.walk (key :: rest) =
      (Value.ofOption ((ctx.stepResult? key).map StepResult.toValue)).walk rest := by
  rw [← get?_stepsValue]
  rfl

/-- What a path reads from the variables begins with the variable that it names. -/
theorem walk_varsValue (ctx : Context) (key : String) (rest : List String) :
    ctx.varsValue.walk (key :: rest) = (Value.ofOption (ctx.var? key)).walk rest := rfl

end Context

end StepGraph
