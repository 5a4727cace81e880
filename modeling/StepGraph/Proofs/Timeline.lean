import StepGraph.Proofs.Course
import StepGraph.Proofs.Instants
import StepGraph.Proofs.TraceContext

/-!
# The times of a trace

Every entry of a trace has its times from two readings of the clock, and nothing moves the clock
back. So the entries stand in the order of their times, however repeats, retries, time limits and
waits are nested. The summary of a repeat that takes the place of a result leaves the times of the
entry alone, and one with an entry of its own is timed when the repeat is over.
-/

namespace StepGraph

namespace World

/-- The clock moves on. -/
theorem advance_ticks (w : World) (target : Float) : Ticks w.now (w.advance target).now :=
  Ticks.later w.now target

/-- A wait never moves the clock back. -/
theorem sleep_ticks (w : World) (seconds : Float) : Ticks w.now (w.sleep seconds).now := by
  unfold sleep
  dsimp only
  split
  · exact advance_ticks _ _
  · exact .refl _

/-- Neither does a dispatch, whether its reply settles in time or not. -/
theorem dispatch_ticks (w : World) (executor : Executor) (d : Dispatch)
    (timeoutMs : Option Number) : Ticks w.now (w.dispatch executor d timeoutMs).2.now := by
  unfold dispatch
  dsimp only
  split
  · exact .refl _
  · split
    · exact advance_ticks _ _
    · exact advance_ticks _ _

end World

/-- In the course of a walk the clock never goes back. -/
theorem clock_rule (first : Float) : CourseRule fun w => Ticks first w.now where
  sleep := fun w seconds h => h.trans (w.sleep_ticks seconds)
  dispatch := fun w executor d timeoutMs h => h.trans (w.dispatch_ticks executor d timeoutMs)
  askRetry := fun _ _ _ h => h
  ask := fun _ h => h
  enterStep := fun _ _ _ _ h => h
  enterRepeat := fun _ _ _ _ h => h
  begin := fun _ h => h
  leave := fun _ h => h

/-- Entries that are timed by readings which a clock goes through from one reading to another. -/
inductive Dated : Float → List StepTrace → Float → Prop where
  /-- No entry. -/
  | rest {first last : Float} : Ticks first last → Dated first [] last
  /-- An entry with the readings at its start and at its finish, before the others. -/
  | entry {first started finished last : Float} {t : StepTrace} {traces : List StepTrace} :
      Ticks first started → Timestamp.ofReading started = .ok t.startedAt →
      Ticks started finished → Timestamp.ofReading finished = .ok t.finishedAt →
      Dated finished traces last → Dated first (t :: traces) last

namespace Dated

variable {first middle last : Float} {t : StepTrace} {traces later : List StepTrace}

/-- Entries after a time without any. -/
theorem after (hfirst : Ticks first middle) (h : Dated middle traces last) :
    Dated first traces last := by
  cases h with
  | rest hlast => exact .rest (hfirst.trans hlast)
  | entry hstart hstarted hwork hfinished hrest =>
    exact .entry (hfirst.trans hstart) hstarted hwork hfinished hrest

/-- One stretch after another. -/
theorem append (h : Dated first traces middle) (h' : Dated middle later last) :
    Dated first (traces ++ later) last := by
  induction h with
  | rest hticks => exact h'.after hticks
  | entry hstart hstarted hwork hfinished _ ih =>
    exact .entry hstart hstarted hwork hfinished (ih h')

/-- An entry whose step is started and finished at the same reading. -/
theorem instant {now : Float} (hstarted : Timestamp.ofReading now = .ok t.startedAt)
    (hfinished : Timestamp.ofReading now = .ok t.finishedAt) : Dated now [t] now :=
  .entry (.refl now) hstarted (.refl now) hfinished (.rest (.refl now))

/-- Nothing but its times counts of an entry. -/
theorem replace {t' : StepTrace} (hstarted : t'.startedAt = t.startedAt)
    (hfinished : t'.finishedAt = t.finishedAt) (h : Dated first (traces ++ ([t] ++ later)) last) :
    Dated first (traces ++ ([t'] ++ later)) last := by
  induction traces generalizing first with
  | nil =>
    cases h with
    | entry hstart hreading hwork hreading' hrest =>
      rw [← hstarted] at hreading
      rw [← hfinished] at hreading'
      exact .entry hstart hreading hwork hreading' hrest
  | cons _ _ ih =>
    cases h with
    | entry hstart hreading hwork hreading' hrest =>
      exact .entry hstart hreading hwork hreading' (ih hrest)

/-- No entry is finished before it is started. -/
theorem started_le_finished (h : Dated first traces last) :
    ∀ t ∈ traces, t.startedAt.milliseconds ≤ t.finishedAt.milliseconds := by
  induction h with
  | rest _ => simp
  | entry _ hstarted hwork hfinished _ ih =>
    intro t ht
    rcases List.mem_cons.mp ht with rfl | hrest
    · exact Timestamp.ofReading_mono hwork hstarted hfinished
    · exact ih t hrest

/-- No entry is started before the one in front of it is finished. -/
theorem isChain (h : Dated first traces last) :
    traces.IsChain fun t u => t.finishedAt.milliseconds ≤ u.startedAt.milliseconds := by
  induction h with
  | rest _ => exact .nil
  | entry _ _ _ hfinished hrest ih =>
    cases hrest with
    | rest _ => exact .singleton _
    | entry hstart hstarted _ _ _ =>
      exact .cons_cons (Timestamp.ofReading_mono hstart hfinished hstarted) ih

end Dated

section
variable (stage : Stage) (workflow : Workflow) {step : Step} (ctx : Context) (w : World)

/-- A step that is executed is timed where it starts and where its work is done. -/
theorem Stage.execute_dated (hstep : step ∈ workflow.steps) :
    (stage.execute step ctx).Ends w (fun outcome after => Dated w.now [outcome.trace] after.now)
      (fun _ _ => True) := by
  refine Act.ends_of_ok (fun done after hrun => ?_)
  obtain ⟨startedAt, worked, finishedAt, hstarted, hwork, hfinished, rfl⟩ :=
    Stage.execute_eq_ok_iff.mp hrun
  have hticks : Ticks w.now after.now :=
    ((clock_rule w.now).work_keeps stage hstep ctx (.refl w.now)).of_ok hwork
  exact .entry (.refl w.now) hstarted hticks hfinished (.rest (.refl after.now))

/-- The wait after a step comes behind its entry. -/
theorem Stage.visit_dated (hstep : step ∈ workflow.steps) (frames : List Frame) :
    (stage.visit workflow step frames ctx).Ends w
      (fun segment after => Dated w.now segment.traces after.now) (fun _ _ => True) := by
  unfold Stage.visit
  rw [Act.ends_bind, Act.ends_change, Act.ends_bind]
  refine (stage.execute_dated workflow ctx _ hstep).imp (fun outcome after hdated => ?_)
    (fun _ _ => id)
  have hpause := (clock_rule after.now).pauseAfter_keeps stage hstep outcome (.refl after.now)
  rw [Act.ends_bind]
  refine hpause.imp (fun _ last hticks => ?_) (fun _ _ _ => trivial)
  have hboth := hdated.append (.rest hticks)
  rw [List.append_nil] at hboth
  exact hboth

end

/-- A repeat that cannot start has its entry at once. -/
theorem Step.failRepeat_dated (step : Step) (fault : RepeatFault) (ctx : Context) (w : World) :
    (step.failRepeat fault ctx).Ends w
      (fun segment after => Dated w.now segment.traces after.now) (fun _ _ => True) := by
  unfold Step.failRepeat
  dsimp only
  rw [Act.ends_bind]
  exact Act.ends_timestamp (fun _ hnow => .instant hnow hnow) (fun _ _ => trivial)

/-- The summary of a repeat leaves the times of an entry alone or comes last. -/
theorem SubtreeRepeat.close_dated (r : SubtreeRepeat) {first : Float} {done : Harvest × Context}
    {w : World} (h : Dated first done.1.traces w.now) :
    (r.close done).Ends w (fun segment after => Dated first segment.traces after.now)
      (fun _ _ => True) := by
  obtain ⟨harvest, last⟩ := done
  unfold SubtreeRepeat.close SubtreeRepeat.traces
  dsimp only at h ⊢
  rw [Act.ends_bind, Act.ends_change, Act.ends_bind]
  split
  · rename_i replaced hreplaced
    obtain ⟨earlier, t, later, hentries, -, -, rfl⟩ := exists_of_replaceLast? hreplaced
    rw [hentries] at h
    exact Dated.replace (t := t) rfl rfl h
  · rw [Act.ends_bind]
    exact Act.ends_timestamp (fun _ hnow => h.append (.instant hnow hnow)) (fun _ _ => trivial)

/-- Every stretch of a walk is timed by the readings that the clock goes through. -/
theorem dated_rule (stage : Stage) (workflow : Workflow) :
    StretchRule stage workflow (fun _ w traces _ after => Dated w.now traces after.now) where
  rest := fun _ w => .rest (.refl w.now)
  append := Dated.append
  ask := fun _ w => .rest (.refl w.now)
  enterRepeat := fun _ _ w _ => .rest (.refl w.now)
  sleep := fun _ w seconds => .rest (w.sleep_ticks seconds)
  visit := fun hreach _ => stage.visit_dated workflow _ _ hreach.mem _
  failRepeat := fun ctx w step fault => step.failRepeat_dated fault ctx w
  begin := fun _ w _ => .rest (.refl w.now)
  close := fun _ _ _ r _ h => r.close_dated h

/-- A result whose trace is in the order of time. -/
structure RunResult.InTimeOrder (r : RunResult) : Prop where
  /-- No entry is finished before it is started. -/
  entries : ∀ t ∈ r.traces, t.startedAt.milliseconds ≤ t.finishedAt.milliseconds
  /-- No entry is started before the one in front of it is finished. -/
  chain : r.traces.IsChain fun t u => t.finishedAt.milliseconds ≤ u.startedAt.milliseconds

/-- The trace of a run is in the order of time. -/
theorem run_inTimeOrder {workflow : Workflow} {c : Collaborators} {options : Options}
    {request : Request} {depth : Nat} {w : World} {r : RunResult}
    (h : (workflow.run c options request depth w).1 = .ok r) : r.InTimeOrder := by
  obtain ⟨template, surface, segment, last, -, -, hwalk, -, rfl⟩ := Workflow.run_ok h
  have hdated := ((dated_rule { executor := c.executor, surface } workflow).walk_does depth [] _ _
    _).of_ok hwalk
  exact ⟨hdated.started_le_finished, hdated.isChain⟩

/-- Two rounds of a step with two blocks and a step that is tried twice, with waits in between. -/
def timedRounds : Workflow where
  start := "rounds"
  steps :=
    [{ id := "rounds", next := some "pair", repetition := some
        { count := some (.times 2), continueOnError := true, delayBetween := .int 250
          scope := .subtree, subtreeEnd := some "end" } },
     { id := "pair", block := some [("name", .text "x")], next := some "slow"
       repetition := some { count := some (.times 2), delayBetween := .int 125 } },
     { id := "slow", block := some [("name", .text "y")], next := some "end"
       timeoutMs := some (.int 1500), retry := some { attempts := 2, delayMs := .int 500 }
       delayAfterMs := some (.int 1000) }]
  targetUrl := some "u"

/-- Collaborators that open any surface, and an executor that takes two seconds for each block. -/
def Collaborators.slow : Collaborators where
  executor := fun _ _ => { delay := some 2, answer := .ok .null }
  openSurface := fun _ _ _ _ => .ok (.text "surface")

/-- The entries of both rounds are in the order of time, with the waits between them. -/
theorem timedRounds_inTimeOrder : ∃ r, (timedRounds.run .slow {} {} 20 {}).1 = .ok r ∧
    r.InTimeOrder ∧
    r.traces.map (fun t => (t.stepId, t.startedAt.milliseconds, t.finishedAt.milliseconds)) =
      [("rounds", 0, 0), ("pair", 0, 4125), ("slow", 4125, 7625),
        ("rounds", 8875, 8875), ("pair", 8875, 13000), ("slow", 13000, 16500)] := by
  have hok : (timedRounds.run .slow {} {} 20 {}).1.isOk = true := by decide +kernel
  obtain ⟨r, hr⟩ := Act.exists_of_isOk hok
  have htimes : (timedRounds.run .slow {} {} 20 {}).1.toOption.map (fun r =>
      r.traces.map (fun t => (t.stepId, t.startedAt.milliseconds, t.finishedAt.milliseconds))) =
        some [("rounds", 0, 0), ("pair", 0, 4125), ("slow", 4125, 7625),
          ("rounds", 8875, 8875), ("pair", 8875, 13000), ("slow", 13000, 16500)] := by
    decide +kernel
  rw [hr] at htimes
  exact ⟨r, hr, run_inTimeOrder hr, Option.some.inj htimes⟩

end StepGraph
