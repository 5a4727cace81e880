import StepGraph.Proofs.Executions
import StepGraph.Proofs.Summary

/-!
# Whether a repeated subtree is complete

A summary without errors says that a repeated subtree has completed as many iterations as there are
items. This is so as long as the run goes on. A guard that halts the run in the middle of a round
cuts that round short and lets no other one begin, and the summary says the same as before.
-/

namespace StepGraph

/-- A round is cut short if the guard halts the run in the middle of it. -/
def Round.CutShort {α : Type} (round : Round α) : Prop :=
  round.before.guard.halted = none ∧ round.after.guard.halted ≠ none

namespace RepeatConfig

variable {config : RepeatConfig} {α : Type} {w left : World} {rounds : List (Round α)}

/-- The wait between two iterations leaves the guard alone. -/
theorem Rests.guard_eq (h : config.Rests w left) : left.guard = w.guard := by
  unfold Rests at h
  split at h
  · rw [h]
  · obtain ⟨seconds, -, rfl⟩ := h
    obtain ⟨now, late, events, heq⟩ := w.sleep_eq seconds
    rw [heq]

/-- Rounds in a run that stays halted do not set it going again. -/
theorem stays_halted_of_follow (h : config.Follow w rounds left)
    (hstays : ∀ round ∈ rounds, round.before.guard.halted ≠ none → round.after.guard.halted ≠ none)
    (hw : w.guard.halted ≠ none) : left.guard.halted ≠ none := by
  induction h with
  | none w => exact hw
  | last round => exact hstays round List.mem_cons_self hw
  | next hrest h ih =>
    obtain ⟨hfirst, hlater⟩ := List.forall_mem_cons.mp hstays
    refine ih hlater ?_
    rw [hrest.guard_eq]
    exact hfirst hw

/-- Rounds that begin in a run that is going on leave it going exactly if none of them is cut
short. -/
theorem going_iff_of_follow (h : config.Follow w rounds left)
    (hstays : ∀ round ∈ rounds, round.before.guard.halted ≠ none → round.after.guard.halted ≠ none)
    (hw : w.guard.halted = none) :
    left.guard.halted = none ↔ ∀ round ∈ rounds, ¬ round.CutShort := by
  unfold Round.CutShort
  induction h with
  | none w => simpa using hw
  | last round => simp [hw]
  | @next round round' later rested left hrest h ih =>
    obtain ⟨hfirst, hlater⟩ := List.forall_mem_cons.mp hstays
    rw [List.forall_mem_cons]
    by_cases hround : round.after.guard.halted = none
    · have hrested : rested.guard.halted = none := by rw [hrest.guard_eq, hround]
      rw [ih hlater hrested]
      simp [hround]
    · have hrested : rested.guard.halted ≠ none := by rwa [hrest.guard_eq]
      have hleft := stays_halted_of_follow h hlater hrested
      simp [hw, hround, hleft]

end RepeatConfig

namespace SubtreeRepeat

variable {r : SubtreeRepeat} {walker : Walker} {frames : List Frame} {ctx : Context} {w : World}
  {rounds : List (Round Segment)} {segment : Segment} {left : World}

/-- The message of a summary without errors. -/
def completedMessage (r : SubtreeRepeat) : String :=
  "Subtree repeat completed " ++ toString r.items.length ++ " iteration(s)"

/-- A summary without errors that is recorded tells of success. It says that there were as many
iterations as items, and this is so, and none of them was cut short, exactly if the guard has not
halted the run. -/
def CompleteUnlessHalted (r : SubtreeRepeat) (rounds : List (Round Segment)) (segment : Segment)
    (left : World) : Prop :=
  ∀ hasError message iterations success skipped,
    segment.context.stepResult? r.step.id = some ⟨summary hasError message (.mapping
      [("iterations", .list iterations), ("errors", .list [])]), success, skipped⟩ →
    hasError = false ∧ success = true ∧ message = r.completedMessage ∧
      (iterations.length = r.items.length ∧ (∀ round ∈ rounds, ¬ round.CutShort) ↔
        left.guard.halted = none)

/-- What is recorded of a repeat is the summary of what was gathered. -/
theorem run_records (r : SubtreeRepeat) (walker : Walker) (frames : List Frame) (ctx : Context)
    (w : World) :
    (r.run walker frames ctx).Ends w
      (fun segment _ => ∃ harvest, segment.context.stepResult? r.step.id =
        some ⟨r.result harvest, !r.failed harvest, r.items.isEmpty⟩)
      (fun _ _ => True) := by
  rw [run_eq, Act.ends_bind]
  refine Act.ends_of_ok (fun done left _ => ?_)
  unfold close
  dsimp only
  rw [Act.ends_bind, Act.ends_change, Act.ends_bind]
  refine Act.ends_of_ok (fun traces after _ => ⟨done.1, ?_⟩)
  exact (Entries.get?_insert _ _ _ _).trans (if_pos rfl)

/-- The rounds of a repeat do not set a halted run going again. -/
theorem Ran.stays_halted {stage : Stage} {workflow : Workflow} {depth : Nat} {items : List Value}
    {index : Nat} (h : r.Ran (walk stage workflow depth) frames items index ctx rounds) :
    ∀ round ∈ rounds, round.before.guard.halted ≠ none → round.after.guard.halted ≠ none := by
  intro round hround hhalted
  obtain ⟨i, hi⟩ := List.mem_iff_getElem?.mp hround
  obtain ⟨item, before, -, -, hrun⟩ := h i round hi
  have hfollows : round.before.beginIteration.Follows round.after :=
    ((follows_rule stage workflow).walk_does depth _ _ _ _).of_ok hrun
  rw [hfollows.halted (Option.isSome_iff_ne_none.mpr hhalted)]
  exact hhalted

/-- What a summary of rounds says can be read off it. -/
theorem summary_inj {hasError hasError' : Bool} {message message' : String}
    {iterations iterations' errors errors' : List Value}
    (h : summary hasError message
        (.mapping [("iterations", .list iterations), ("errors", .list errors)]) =
      summary hasError' message'
        (.mapping [("iterations", .list iterations'), ("errors", .list errors')])) :
    hasError = hasError' ∧ message = message' ∧ iterations = iterations' ∧ errors = errors' := by
  cases h
  exact ⟨rfl, rfl, rfl, rfl⟩

/-- A summary without errors has the message of a repeat that is complete. -/
theorem message_of_no_errors (r : SubtreeRepeat) {harvest : Harvest} (h : harvest.errors = []) :
    r.message harvest = r.completedMessage := by
  unfold message
  rw [h]
  rfl

/-- It tells of success. -/
theorem failed_of_no_errors (r : SubtreeRepeat) {harvest : Harvest} (h : harvest.errors = []) :
    r.failed harvest = false := by
  unfold failed
  rw [h]
  rfl

/-- If all rounds succeeded there is one for every item, unless the guard has halted the run. -/
theorem Summed.length_eq (h : r.Summed walker frames ctx w rounds segment left)
    (herrors : Round.errors 0 rounds = []) (hgoing : left.guard.halted = none) :
    rounds.length = r.items.length := by
  refine Nat.le_antisymm h.within (Nat.not_lt.mp fun hfewer => ?_)
  obtain ⟨-, round, hround, hfailed⟩ := h.early hfewer hgoing
  have hall : rounds.all (·.result.succeeded) = true := by
    rw [← Round.errors_isEmpty 0, herrors]
    rfl
  rw [List.all_eq_true.mp hall round hround] at hfailed
  cases hfailed

/-- A repeat that begins in a run that is going on is complete unless the run is halted. -/
theorem Summed.completeUnlessHalted {stage : Stage} {workflow : Workflow} {depth : Nat}
    (h : r.Summed (walk stage workflow depth) frames ctx w rounds segment left)
    (hrecords : ∃ harvest, segment.context.stepResult? r.step.id =
      some ⟨r.result harvest, !r.failed harvest, r.items.isEmpty⟩)
    (hw : w.guard.halted = none) : r.CompleteUnlessHalted rounds segment left := by
  intro hasError message iterations success skipped hresult
  obtain ⟨harvest, hharvest⟩ := hrecords
  obtain ⟨failed, _, summed, _, -, rfl, hsummed, -⟩ := h.recorded
  obtain ⟨hgathered, hsuccess, -⟩ :=
    StepResult.mk.inj (Option.some.inj (hharvest.symm.trans hresult))
  obtain ⟨hlisted, -, -⟩ := StepResult.mk.inj (Option.some.inj (hsummed.symm.trans hresult))
  obtain ⟨hfailed, hmessage, -, hnone⟩ := summary_inj hgathered
  obtain ⟨-, -, hiterations, herrors⟩ := summary_inj hlisted
  have hgoing := RepeatConfig.going_iff_of_follow h.follow h.ran.stays_halted hw
  have hlength : iterations.length = rounds.length := by
    rw [← hiterations]
    unfold Round.entries
    simp
  refine ⟨?_, ?_, ?_, ?_⟩
  · rw [← hfailed, r.failed_of_no_errors hnone]
  · rw [← hsuccess, r.failed_of_no_errors hnone]
    rfl
  · rw [← hmessage, r.message_of_no_errors hnone]
  · rw [hlength, hgoing]
    exact and_iff_right_of_imp fun huncut => h.length_eq herrors (hgoing.mpr huncut)

/-- A repeat that begins in a run that is going on has rounds and a summary which says that it is
complete, if there are no errors in it, and is right exactly if the run was not halted. -/
theorem run_completes (r : SubtreeRepeat) (stage : Stage) (workflow : Workflow) (depth : Nat)
    (frames : List Frame) (ctx : Context) {w : World} (hw : w.guard.halted = none) :
    (r.run (walk stage workflow depth) frames ctx).Ends w
      (fun segment after => ∃ rounds left, after = left.leaveRepeat ∧
        r.Summed (walk stage workflow depth) frames ctx w rounds segment left ∧
        r.CompleteUnlessHalted rounds segment left)
      (fun _ _ => True) := by
  have hsummed := r.run_summed (walk stage workflow depth) frames ctx w
  have hrecords := r.run_records (walk stage workflow depth) frames ctx w
  refine (hsummed.and hrecords).imp (fun segment after h => ?_) (fun _ _ _ => trivial)
  obtain ⟨⟨rounds, left, hafter, hsummed⟩, hrecorded⟩ := h
  exact ⟨rounds, left, hafter, hsummed, hsummed.completeUnlessHalted hrecorded hw⟩

end SubtreeRepeat

section
variable {stage : Stage} {workflow : Workflow} {depth : Nat} {frames : List Frame}
  {next : Option String} {ctx : Context} {w : World} {step : Step} {config : RepeatConfig}
  {r : SubtreeRepeat}

/-- A repeated subtree that is reported complete is complete unless the guard has halted the run.
Whenever a walk comes to a repeat with items at hand and the summary that is recorded for it has no
errors, the summary tells of success and of as many iterations as there are items. It lists that
many of them, and none was cut short, exactly if the run was not halted before the repeat was left;
it was not if the walk ends in a run that is still going on. -/
theorem walk_complete_iff (hreach : workflow.Reaches frames next w step)
    (hrepeat : step.startingRepeat? frames = some config)
    (hstart : SubtreeRepeat.start? step config ctx = .ok r) :
    (walk stage workflow (depth + 1) frames next ctx).Ends w
      (fun whole after => ∃ rounds first left rest,
        r.Summed (walk stage workflow depth) frames ctx (w.enterRepeat step ctx frames) rounds first
          left ∧
        walk stage workflow depth frames (some r.stop) first.context left.leaveRepeat =
          (.ok rest, after) ∧
        whole = { rest with traces := first.traces ++ rest.traces } ∧
        r.CompleteUnlessHalted rounds first left ∧
        (after.guard.halted = none → left.guard.halted = none))
      (fun _ _ => True) := by
  have hallowed := hreach.allowed
  rw [World.asked_of_allows hallowed] at hallowed
  have hentered : (w.enterRepeat step ctx frames).guard.halted = none :=
    Option.isNone_iff_eq_none.mp hallowed
  rw [Act.ends_congr (walk_of_repeat hreach hrepeat hstart), Act.ends_bind, Act.ends_change,
    Act.ends_bind]
  refine (r.run_completes stage workflow depth frames ctx hentered).imp
    (fun first between hfirst => ?_) (fun _ _ _ => trivial)
  obtain ⟨rounds, left, rfl, hsummed, hcomplete⟩ := hfirst
  rw [Act.ends_bind, hsummed.next]
  refine Act.ends_of_ok (fun rest after hrest => ?_)
  have hfollows : left.leaveRepeat.Follows after :=
    ((follows_rule stage workflow).walk_does depth _ _ _ _).of_ok hrest
  refine ⟨rounds, first, left, rest, hsummed, hrest, rfl, hcomplete, fun hafter => ?_⟩
  cases hhalted : left.guard.halted with
  | none => rfl
  | some limit =>
    have hstill : left.leaveRepeat.guard.halted.isSome = true := Option.isSome_of_eq_some hhalted
    rw [← hfollows.halted hstill, hafter] at hstill
    cases hstill

end

/-- A step that runs its block for every order. -/
def perOrder : Step where
  id := "each"
  block := some [("name", .text "x")]
  repetition := some
    { forEach := some "vars.orders", scope := .subtree, subtreeEnd := some "end" }
  next := some "end"

/-- A workflow of this step alone, with three orders. -/
def orders : Workflow where
  start := "each"
  steps := [perOrder]
  vars := [("orders", .list [.int 7, .int 8, .int 9])]
  targetUrl := some "u"

/-- The repeat of this step over these orders. -/
def ordersRepeat : SubtreeRepeat where
  step := perOrder
  config := { forEach := some "vars.orders", scope := .subtree, subtreeEnd := some "end" }
  stop := "end"
  source := .items "vars.orders"
  items := [.int 7, .int 8, .int 9]

/-- Without limits the repeat is complete. -/
theorem orders_complete :
    orders.Reaches [] (some "each") {} perOrder ∧
      perOrder.startingRepeat? [] = some ordersRepeat.config ∧
      SubtreeRepeat.start? perOrder ordersRepeat.config Call.threeOrders = .ok ordersRepeat ∧
      ∃ whole after rounds first left,
        walk .willing orders 3 [] (some "each") Call.threeOrders {} = (.ok whole, after) ∧
        ordersRepeat.Summed (walk .willing orders 2) [] Call.threeOrders
          (World.enterRepeat {} perOrder Call.threeOrders []) rounds first left ∧
        ordersRepeat.CompleteUnlessHalted rounds first left ∧ left.guard.halted = none := by
  have hreach : orders.Reaches [] (some "each") {} perOrder := ⟨rfl, rfl, rfl, rfl⟩
  have hrepeat : perOrder.startingRepeat? [] = some ordersRepeat.config := rfl
  have hstart : SubtreeRepeat.start? perOrder ordersRepeat.config Call.threeOrders =
      .ok ordersRepeat := rfl
  have hgoing : (walk .willing orders 3 [] (some "each") Call.threeOrders {}).1.isOk = true ∧
      (walk .willing orders 3 [] (some "each") Call.threeOrders {}).2.guard.halted = none := by
    decide +kernel
  cases hrun : walk .willing orders 3 [] (some "each") Call.threeOrders {} with
  | mk result after =>
    rw [hrun] at hgoing
    obtain ⟨hok, hafter⟩ := hgoing
    cases result with
    | error fault => cases hok
    | ok whole =>
      obtain ⟨rounds, first, left, rest, hsummed, -, -, hcomplete, hleft⟩ :=
        Act.Ends.of_ok (walk_complete_iff hreach hrepeat hstart) hrun
      exact ⟨hreach, hrepeat, hstart, whole, after, rounds, first, left, rfl, hsummed, hcomplete,
        hleft hafter⟩

/-- The message and the iterations of a summary that tells of success and lists no errors. -/
def Value.completed? : Value → Option (String × List Value)
  | .mapping [(flagKey, .bool false), (messageKey, .text message), (dataKey, .mapping
      [(iterationsKey, .list iterations), (errorsKey, .list [])])] =>
    if [flagKey, messageKey, dataKey, iterationsKey, errorsKey] =
        ["hasError", "message", "data", "iterations", "errors"] then
      some (message, iterations)
    else none
  | _ => none

/-- A value with such a message and such iterations is the summary with them. -/
theorem Value.eq_of_completed? {v : Value} {message : String} {iterations : List Value}
    (h : v.completed? = some (message, iterations)) : v = summary false message
      (.mapping [("iterations", .list iterations), ("errors", .list [])]) := by
  unfold completed? at h
  split at h
  · split at h
    · rename_i hkeys
      simp only [List.cons.injEq, and_true] at hkeys
      obtain ⟨rfl, rfl, rfl, rfl, rfl⟩ := hkeys
      cases h
      rfl
    · cases h
  · cases h

/-- A run that is halted after one step reports three orders to be completed; it lists two, and
the second one is empty. -/
theorem orders_not_complete : ¬ ∀ result iterations,
    (orders.run .willing { maxSteps := some 1 } {} 20 {}).1 = .ok result →
      result.context.stepResult? "each" = some ⟨summary false
        "Subtree repeat completed 3 iteration(s)" (.mapping
          [("iterations", .list iterations), ("errors", .list [])]), true, false⟩ →
      iterations.length = 3 := by
  intro hall
  have hok : (orders.run .willing { maxSteps := some 1 } {} 20 {}).1.isOk = true := by
    decide +kernel
  obtain ⟨result, hrun⟩ := Act.exists_of_isOk hok
  have hread : ((orders.run .willing { maxSteps := some 1 } {} 20 {}).1.toOption.bind fun r =>
      (r.context.stepResult? "each").bind fun recorded =>
        recorded.result.completed?.map fun done =>
          (done.1, done.2.length, recorded.success, recorded.skipped)) =
      some ("Subtree repeat completed 3 iteration(s)", 2, true, false) := by decide +kernel
  rw [hrun] at hread
  obtain ⟨_, ⟨⟩, hread⟩ := Option.bind_eq_some_iff.mp hread
  obtain ⟨⟨v, success, skipped⟩, hrecorded, hread⟩ := Option.bind_eq_some_iff.mp hread
  obtain ⟨⟨message, iterations⟩, hcompleted, hread⟩ := Option.map_eq_some_iff.mp hread
  cases Value.eq_of_completed? hcompleted
  obtain ⟨rfl, htwo, rfl, rfl⟩ : message = "Subtree repeat completed 3 iteration(s)" ∧
    iterations.length = 2 ∧ success = true ∧ skipped = false := by simpa using hread
  have hthree := hall result iterations hrun hrecorded
  omega

end StepGraph
