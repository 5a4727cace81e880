import Mathlib.Data.List.DropRight
import StepGraph.Context

/-!
# What a context reads back

A context is written by six setters and read by paths. Whatever was written, in whatever order, a
path into the results or the variables goes on from what was written last under its second segment,
and a path into the state of an iteration from the one entered last since all iterations were left.
Every other path is undefined. So a setter is of consequence only for the paths under its own root.
-/

namespace StepGraph

namespace Context

/-- A write to a context. -/
inductive Write where
  /-- The result of a step. -/
  | stepResult (id : String) (result : StepResult)
  /-- A variable. -/
  | var (key : String) (value : Value)
  /-- Several variables. -/
  | vars (values : List (String × Value))
  /-- Entering an iteration over items. -/
  | enterEach (item : Value) (index total : Int)
  /-- Entering a counted iteration. -/
  | enterLoop (index count : Int)
  /-- Leaving all iterations. -/
  | exitLoop

/-- The context after a write. -/
def write (ctx : Context) : Write → Context
  | .stepResult id result => ctx.setStepResult id result
  | .var key value => ctx.setVar key value
  | .vars values => ctx.setVars values
  | .enterEach item index total => ctx.enterEach item index total
  | .enterLoop index count => ctx.enterLoop index count
  | .exitLoop => ctx.exitLoop

/-- The context after some writes, one after the other. -/
def writeAll (ctx : Context) (writes : List Write) : Context := writes.foldl write ctx

namespace Write

/-- The result that a write gives to a step. -/
def result? (id : String) : Write → Option StepResult
  | .stepResult other result => if other = id then some result else none
  | _ => none

/-- The value that a write gives to a variable; of several values for it the last one. -/
def value? (key : String) : Write → Option Value
  | .var other value => if other = key then some value else none
  | .vars values => Entries.get? values.reverse key
  | _ => none

/-- The iteration over items that a write enters. -/
def each? : Write → Option EachState
  | .enterEach item index total => some ⟨item, index, total⟩
  | _ => none

/-- The counted iteration that a write enters. -/
def loop? : Write → Option LoopState
  | .enterLoop index count => some ⟨index, count⟩
  | _ => none

/-- Whether a write leaves all iterations. -/
def exits : Write → Bool
  | .exitLoop => true
  | _ => false

/-- What was given last by some writes, of which not all need give anything. -/
def last? {α : Type} (given : Write → Option α) (writes : List Write) : Option α :=
  writes.reverse.findSome? given

/-- The writes since all iterations were left. -/
def sinceExit (writes : List Write) : List Write := writes.rtakeWhile (!·.exits)

/-- The last write comes before all others. -/
theorem last?_concat {α : Type} (given : Write → Option α) (writes : List Write) (w : Write) :
    last? given (writes ++ [w]) = (given w).or (last? given writes) := by
  unfold last?
  rw [List.reverse_append, List.reverse_singleton, List.singleton_append, List.findSome?_cons]
  cases given w <;> rfl

end Write

/-- A place of the context that is empty at first and that every write leaves alone, fills or
empties, holds what was given last since it was emptied. -/
theorem look_writeAll {α : Type} (look : Context → Option α) (given : Write → Option α)
    (empties : Write → Bool) (hempty : look {} = none)
    (hwrite : ∀ ctx w, look (ctx.write w) = if empties w then none else (given w).or (look ctx))
    (writes : List Write) :
    look (writeAll {} writes) = Write.last? given (writes.rtakeWhile (!empties ·)) := by
  induction writes using List.reverseRecOn with
  | nil => exact hempty
  | append_singleton writes w ih =>
    have hlast : writeAll {} (writes ++ [w]) = (writeAll {} writes).write w :=
      List.foldl_append
    rw [hlast, hwrite, List.rtakeWhile_concat, ih]
    -- A write that empties the place ends the part that counts; any other one comes first in it.
    cases empties w with
    | true => rfl
    | false => exact (Write.last?_concat given _ w).symm

/-- A place that no write empties holds what was given last. -/
theorem look_writeAll_of_kept {α : Type} (look : Context → Option α) (given : Write → Option α)
    (hempty : look {} = none) (hwrite : ∀ ctx w, look (ctx.write w) = (given w).or (look ctx))
    (writes : List Write) : look (writeAll {} writes) = Write.last? given writes := by
  have hall : writes.rtakeWhile (fun _ => !false) = writes :=
    List.rtakeWhile_eq_self_iff.mpr fun _ _ => rfl
  rw [look_writeAll look given (fun _ => false) hempty hwrite writes, hall]

/-- A result is read back until another one is written for the same step. -/
theorem stepResult?_write (id : String) (ctx : Context) (w : Write) :
    (ctx.write w).stepResult? id = (w.result? id).or (ctx.stepResult? id) := by
  cases w with
  | stepResult other result =>
    unfold write Write.result? setStepResult stepResult?
    dsimp only
    rw [Entries.get?_insert]
    split <;> rfl
  | _ => rfl

/-- A variable is read back until it is written again. -/
theorem var?_write (key : String) (ctx : Context) (w : Write) :
    (ctx.write w).var? key = (w.value? key).or (ctx.var? key) := by
  cases w with
  | var other value =>
    unfold write Write.value? setVar var?
    dsimp only
    rw [Entries.get?_insert]
    split <;> rfl
  | vars values => exact Entries.get?_merge ctx.vars values key
  | _ => rfl

/-- The state of an iteration over items is there until another one is entered or all are left. -/
theorem each_write (ctx : Context) (w : Write) :
    (ctx.write w).each = if w.exits then none else w.each?.or ctx.each := by
  cases w <;> rfl

/-- So is that of a counted iteration. -/
theorem loop_write (ctx : Context) (w : Write) :
    (ctx.write w).loop = if w.exits then none else w.loop?.or ctx.loop := by
  cases w <;> rfl

/-- What the segments of a path read back after some writes. Into the results or the variables they
go on from what was written last under the second segment, and into the state of an iteration from
the one entered last since all iterations were left; where nothing was written they go on from
nothing, and all others are undefined. -/
def readBack (writes : List Write) : List String → Value
  | ["steps", ""] => .undefined
  | "steps" :: id :: rest =>
    (Value.ofOption ((Write.last? (·.result? id) writes).map StepResult.toValue)).walk rest
  | ["vars", ""] => .undefined
  | "vars" :: key :: rest => (Value.ofOption (Write.last? (·.value? key) writes)).walk rest
  | "forEach" :: rest =>
    (Value.ofOption ((Write.last? Write.each? (Write.sinceExit writes)).map
      EachState.toValue)).walk rest
  | "loop" :: rest =>
    (Value.ofOption ((Write.last? Write.loop? (Write.sinceExit writes)).map
      LoopState.toValue)).walk rest
  | _ => .undefined

/-- A context reads back what was written last. -/
theorem resolve_writeAll (writes : List Write) (path : String) :
    (writeAll {} writes).resolve path =
      readBack writes ((path.toList.splitOn '.').map String.ofList) := by
  rw [resolve, Path.segments_eq_splitOn]
  generalize (path.toList.splitOn '.').map String.ofList = segments
  fun_cases readBack writes segments with
  | case1 => rfl
  | case2 id rest h =>
    have hresult := look_writeAll_of_kept (·.stepResult? id) _ rfl (stepResult?_write id) writes
    rw [read, walk_stepsValue, hresult]
    exact h
  | case3 => rfl
  | case4 key rest h =>
    have hvalue := look_writeAll_of_kept (·.var? key) _ rfl (var?_write key) writes
    rw [read, walk_varsValue, hvalue]
    exact h
  | case5 rest =>
    have heach := look_writeAll each _ _ rfl each_write writes
    rw [read, eachValue, heach]
    rfl
  | case6 rest =>
    have hloop := look_writeAll loop _ _ rfl loop_write writes
    rw [read, loopValue, hloop]
    rfl
  | case7 segments =>
    rw [read] <;> assumption

end Context

end StepGraph
