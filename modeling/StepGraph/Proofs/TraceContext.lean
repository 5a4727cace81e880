import StepGraph.Proofs.Stretch
import StepGraph.Proofs.Verdict

/-!
# The trace tells what the context holds

Every entry of a trace goes together with a result that is written into the context, and an entry
whose result is replaced by a summary is the last one of its step. So after any stretch of a walk
the context holds, for each step, what the last entry of the step says, and for a step without an
entry what it held before.
-/

namespace StepGraph

/-- The last entry of a step. -/
def lastOf? (id : String) (traces : List StepTrace) : Option StepTrace :=
  traces.reverse.find? (·.stepId == id)

/-- The last entry of a longer trace is that of its end, if there is one. -/
theorem lastOf?_append (id : String) (traces later : List StepTrace) :
    lastOf? id (traces ++ later) = (lastOf? id later).or (lastOf? id traces) := by
  unfold lastOf?
  rw [List.reverse_append, List.find?_append]

theorem lastOf?_singleton (id : String) (t : StepTrace) :
    lastOf? id [t] = if t.stepId = id then some t else none := by
  by_cases ht : t.stepId = id <;> simp [lastOf?, ht]

/-- A step has a last entry if it has any. -/
theorem lastOf?_isSome {id : String} {traces : List StepTrace} :
    (lastOf? id traces).isSome = true ↔ id ∈ traces.map (·.stepId) := by
  simp [lastOf?, List.find?_isSome]

/-- Where nothing is replaced, no entry is one of the step. -/
theorem ne_of_replaceLast?_none {id : String} {replace : StepTrace → StepTrace}
    {traces : List StepTrace} (h : replaceLast? id replace traces = none) :
    ∀ t ∈ traces, t.stepId ≠ id := by
  induction traces with
  | nil => exact fun _ ht => nomatch ht
  | cons first rest ih =>
    unfold replaceLast? at h
    split at h
    · cases h
    · rename_i hrest
      split at h
      · cases h
      · rename_i hfirst
        intro t ht
        rcases List.mem_cons.mp ht with rfl | ht
        · simpa using hfirst
        · exact ih hrest t ht

/-- What is replaced is an entry of the step with none of its entries behind it. -/
theorem exists_of_replaceLast? {id : String} {replace : StepTrace → StepTrace}
    {traces replaced : List StepTrace} (h : replaceLast? id replace traces = some replaced) :
    ∃ earlier t later, traces = earlier ++ ([t] ++ later) ∧ t.stepId = id ∧
      (∀ u ∈ later, u.stepId ≠ id) ∧ replaced = earlier ++ ([replace t] ++ later) := by
  induction traces generalizing replaced with
  | nil => cases h
  | cons first rest ih =>
    unfold replaceLast? at h
    split at h
    · rename_i hrest
      cases h
      obtain ⟨earlier, t, later, rfl, ht, hlater, rfl⟩ := ih hrest
      exact ⟨first :: earlier, t, later, rfl, ht, hlater, rfl⟩
    · rename_i hrest
      split at h
      · rename_i hfirst
        cases h
        exact ⟨[], first, rest, rfl, by simpa using hfirst, ne_of_replaceLast?_none hrest, rfl⟩
      · cases h

theorem lastOf?_eq_none {id : String} {traces : List StepTrace}
    (h : ∀ t ∈ traces, t.stepId ≠ id) : lastOf? id traces = none := by
  unfold lastOf?
  rw [List.find?_eq_none]
  intro t ht
  have hne := h t (List.mem_reverse.mp ht)
  simpa using hne

section
variable {β : Type} {kept : StepResult → β} {told : StepTrace → β} {Good : StepTrace → Prop}
  {ctx ctx' ctx'' : Context} {traces later : List StepTrace}

/-- The entries of a stretch account for what it has written: what is kept of a step is what its
last entry tells, and what was kept before for a step without an entry. -/
def Accounts (kept : StepResult → β) (told : StepTrace → β) (ctx : Context)
    (traces : List StepTrace) (ctx' : Context) : Prop :=
  ∀ id, (ctx'.stepResult? id).map kept =
    ((lastOf? id traces).map told).or ((ctx.stepResult? id).map kept)

namespace Accounts

/-- Nothing was written. -/
theorem of_same (h : ctx'.steps = ctx.steps) : Accounts kept told ctx [] ctx' := by
  intro id
  unfold Context.stepResult?
  rw [h]
  rfl

/-- One stretch after another. -/
theorem append (h : Accounts kept told ctx traces ctx') (h' : Accounts kept told ctx' later ctx'') :
    Accounts kept told ctx (traces ++ later) ctx'' := by
  intro id
  rw [h' id, h id, lastOf?_append, Option.map_or, Option.or_assoc]

/-- A result is written that the last entry of its step tells, and the last entries of the other
steps are as they were. -/
theorem record {id : String} {result : StepResult} (h : Accounts kept told ctx traces ctx')
    (hsteps : ctx''.steps = Entries.insert id result ctx'.steps)
    (hlast : (lastOf? id later).map told = some (kept result))
    (hother : ∀ other, other ≠ id → lastOf? other later = lastOf? other traces) :
    Accounts kept told ctx later ctx'' := by
  intro other
  unfold Context.stepResult?
  rw [hsteps, Entries.get?_insert]
  by_cases hid : id = other
  · subst hid
    rw [if_pos rfl, hlast]
    rfl
  · rw [if_neg hid, hother other (Ne.symm hid)]
    exact h other

end Accounts

/-- What a trace tells: its entries account for what is written, and each of them is good. -/
structure Tells (kept : StepResult → β) (told : StepTrace → β) (Good : StepTrace → Prop)
    (ctx : Context) (traces : List StepTrace) (ctx' : Context) : Prop where
  /-- What is written. -/
  accounts : Accounts kept told ctx traces ctx'
  /-- What holds of every entry. -/
  good : ∀ t ∈ traces, Good t

namespace Tells

/-- Nothing was written, and nothing is told. -/
theorem of_same (h : ctx'.steps = ctx.steps) : Tells kept told Good ctx [] ctx' :=
  ⟨.of_same h, nofun⟩

/-- One stretch after another. -/
theorem append (h : Tells kept told Good ctx traces ctx')
    (h' : Tells kept told Good ctx' later ctx'') :
    Tells kept told Good ctx (traces ++ later) ctx'' := by
  refine ⟨h.accounts.append h'.accounts, fun t ht => ?_⟩
  rcases List.mem_append.mp ht with ht | ht
  · exact h.good t ht
  · exact h'.good t ht

/-- A single entry tells what is written for its step. -/
theorem entry {t : StepTrace} {result : StepResult}
    (hsteps : ctx'.steps = Entries.insert t.stepId result ctx.steps)
    (htold : told t = kept result) (ht : Good t) : Tells kept told Good ctx [t] ctx' := by
  constructor
  · refine (Accounts.of_same rfl).record hsteps ?_ ?_
    · rw [lastOf?_singleton, if_pos rfl, ← htold]
      rfl
    · intro other hother
      rw [lastOf?_singleton, if_neg (Ne.symm hother)]
      rfl
  · intro u hu
    rw [List.mem_singleton.mp hu]
    exact ht

/-- The last entry of a step is replaced by one that tells what is written for the step now. -/
theorem replace {id : String} {replace : StepTrace → StepTrace} {result : StepResult}
    (h : Tells kept told Good ctx traces ctx')
    (hreplace : replaceLast? id replace traces = some later)
    (hsteps : ctx''.steps = Entries.insert id result ctx'.steps)
    (hid : ∀ t, (replace t).stepId = t.stepId)
    (htold : ∀ t, told (replace t) = kept result) (hgood : ∀ t, Good (replace t)) :
    Tells kept told Good ctx later ctx'' := by
  obtain ⟨earlier, t, rest, rfl, ht, hrest, rfl⟩ := exists_of_replaceLast? hreplace
  -- No entry of the step stands behind the replaced one, so it remains the last one.
  have hnone := lastOf?_eq_none hrest
  constructor
  · refine h.accounts.record hsteps ?_ ?_
    · rw [lastOf?_append, lastOf?_append, hnone, lastOf?_singleton,
        if_pos ((hid t).trans ht), ← htold t]
      rfl
    · intro other hother
      have hne : t.stepId ≠ other := fun heq => hother (heq.symm.trans ht)
      rw [lastOf?_append, lastOf?_append, lastOf?_append, lastOf?_append,
        lastOf?_singleton, lastOf?_singleton, hid, if_neg hne, if_neg hne]
  · intro u hu
    rcases List.mem_append.mp hu with hu | hu
    · exact h.good u (List.mem_append_left _ hu)
    · rcases List.mem_append.mp hu with hu | hu
      · rw [List.mem_singleton.mp hu]
        exact hgood t
      · exact h.good u (List.mem_append_right _ (List.mem_append_right _ hu))

/-- After a stretch from a context without results, what is kept of a step is what its last entry
tells. -/
theorem last (h : Tells kept told Good ctx traces ctx') (hnone : ∀ id, ctx.stepResult? id = none)
    (id : String) : (ctx'.stepResult? id).map kept = (lastOf? id traces).map told := by
  rw [h.accounts id, hnone, Option.map_none, Option.or_none]

end Tells

end

/-- The result and the success of a step. -/
def StepResult.verdict (result : StepResult) : Value × Bool := (result.result, result.success)

/-- The result and the success that an entry tells. -/
def StepTrace.verdict (t : StepTrace) : Value × Bool := (t.result, t.success)

/-- An entry whose result agrees with its success. -/
def StepTrace.Agrees (t : StepTrace) : Prop := t.result.AgreesOn t.success

/-- A trace tells the verdicts: those of the last entries are written, and all of them agree with
their results. -/
abbrev TellsVerdict : Context → List StepTrace → Context → Prop :=
  Tells StepResult.verdict StepTrace.verdict StepTrace.Agrees

/-- A step that was executed has its result recorded. -/
theorem Stage.settle_steps (stage : Stage) (step : Step) (skipped : Bool) (outcome : Outcome)
    (ctx : Context) : (stage.settle step skipped outcome ctx).steps =
      Entries.insert step.id ⟨outcome.result, outcome.success, skipped⟩ ctx.steps := by
  cases skipped <;> rfl

/-- The entry of a step that was executed tells what was recorded. -/
theorem Stage.execute_tells (stage : Stage) (step : Step) (ctx : Context) (w : World) :
    (stage.execute step ctx).Ends w
      (fun outcome _ => TellsVerdict ctx [outcome.trace] outcome.context) (fun _ _ => True) := by
  refine Act.ends_of_ok (fun done after hrun => ?_)
  obtain ⟨startedAt, ⟨skipped, outcome, left⟩, finishedAt, -, hwork, -, rfl⟩ :=
    Stage.execute_eq_ok_iff.mp hrun
  obtain ⟨hagrees, hleft⟩ := Act.Ends.of_ok (stage.work_agrees step ctx w) hwork
  have hsteps := stage.settle_steps step skipped outcome left
  rw [hleft] at hsteps
  exact Tells.entry hsteps rfl hagrees

/-- A visit tells what its step tells. -/
theorem Stage.visit_tells (stage : Stage) (workflow : Workflow) (step : Step) (frames : List Frame)
    (ctx : Context) (w : World) :
    (stage.visit workflow step frames ctx).Ends w
      (fun segment _ => TellsVerdict ctx segment.traces segment.context) (fun _ _ => True) := by
  unfold Stage.visit
  rw [Act.ends_bind, Act.ends_change, Act.ends_bind]
  refine (stage.execute_tells step ctx _).imp (fun outcome after htells => ?_) (fun _ _ => id)
  rw [Act.ends_bind]
  exact Act.ends_of_ok (fun _ _ _ => htells)

/-- The entry of a repeat that cannot start tells what was recorded. -/
theorem Step.failRepeat_tells (step : Step) (fault : RepeatFault) (ctx : Context) (w : World) :
    (step.failRepeat fault ctx).Ends w
      (fun segment _ => TellsVerdict ctx segment.traces segment.context) (fun _ _ => True) := by
  unfold Step.failRepeat
  dsimp only
  rw [Act.ends_bind]
  refine Act.ends_timestamp (fun now _ => ?_) (fun _ _ => trivial)
  exact Tells.entry rfl rfl (summary_agreesOn true fault.message .null)

/-- The summary of a repeat takes the place of the last result of its step, in the trace and in the
context, or it is the first one. -/
theorem SubtreeRepeat.close_tells (r : SubtreeRepeat) {ctx : Context} {done : Harvest × Context}
    (h : TellsVerdict ctx done.1.traces done.2) (w : World) :
    (r.close done).Ends w (fun segment _ => TellsVerdict ctx segment.traces segment.context)
      (fun _ _ => True) := by
  obtain ⟨harvest, last⟩ := done
  have hagrees : (r.result harvest).AgreesOn (!r.failed harvest) := summary_agreesOn _ _ _
  unfold SubtreeRepeat.close SubtreeRepeat.traces
  dsimp only at h ⊢
  rw [Act.ends_bind, Act.ends_change, Act.ends_bind]
  split
  · rename_i replaced hreplaced
    exact h.replace hreplaced rfl (fun _ => rfl) (fun _ => rfl) (fun _ => hagrees)
  · rw [Act.ends_bind]
    refine Act.ends_timestamp (fun now _ => ?_) (fun _ _ => trivial)
    exact h.append (Tells.entry rfl rfl hagrees)

/-- Every stretch of a walk tells what it writes. -/
theorem tells_rule (stage : Stage) (workflow : Workflow) :
    StretchRule stage workflow (fun ctx _ traces ctx' _ => TellsVerdict ctx traces ctx') where
  rest := fun _ _ => .of_same rfl
  append := Tells.append
  ask := fun _ _ => .of_same rfl
  enterRepeat := fun _ _ _ _ => .of_same rfl
  sleep := fun _ _ _ => .of_same rfl
  visit := fun _ _ => stage.visit_tells workflow _ _ _ _
  failRepeat := fun ctx w step fault => step.failRepeat_tells fault ctx w
  begin := by
    intro ctx _ frame
    refine .of_same ?_
    unfold Frame.enter RepeatSource.enter
    split <;> rfl
  close := fun _ _ _ r _ h => r.close_tells h _

/-- A result whose trace and context agree. -/
structure RunResult.Agrees (r : RunResult) : Prop where
  /-- The steps of the trace are those of the context. -/
  ids : ∀ id, id ∈ r.traces.map (·.stepId) ↔ id ∈ r.context.steps.map (·.1)
  /-- The context holds for each step the result and the success that its last entry tells. -/
  last : ∀ id t, lastOf? id r.traces = some t → ∃ result, r.context.stepResult? id = some result ∧
    result.result = t.result ∧ result.success = t.success
  /-- A result is a mapping that is flagged as an error exactly if its step did not succeed. -/
  flags : ∀ t ∈ r.traces, t.result ≠ .null → ∃ entries flag, t.result = .mapping entries ∧
    Entries.get? entries "hasError" = some flag ∧ (flag.isPresent = true ↔ t.success = false)

section
variable {workflow : Workflow} {c : Collaborators} {options : Options} {request : Request}
  {depth : Nat} {w : World} {r : RunResult}

/-- The trace of a run tells what its context holds. -/
theorem run_tells (h : (workflow.run c options request depth w).1 = .ok r) :
    TellsVerdict workflow.initial r.traces r.context := by
  obtain ⟨template, surface, segment, last, -, -, hwalk, -, rfl⟩ := Workflow.run_ok h
  exact ((tells_rule { executor := c.executor, surface } workflow).walk_does depth [] _ _ _).of_ok
    hwalk

/-- The trace and the context of every run with a result agree: they are about the same steps, the
last entry of a step tells the result and the success that the context holds for it, and a result
is flagged as an error exactly if there was no success. -/
theorem run_traceAgrees (h : (workflow.run c options request depth w).1 = .ok r) : r.Agrees := by
  have htells := run_tells h
  -- A run begins without results, so whatever the context holds at the end has an entry.
  have hnone : ∀ id, workflow.initial.stepResult? id = none := fun _ => rfl
  have hlast := htells.last hnone
  refine ⟨fun id => ?_, fun id t ht => ?_, fun t ht hresult => ?_⟩
  · have hsome := congrArg Option.isSome (hlast id)
    rw [Option.isSome_map, Option.isSome_map] at hsome
    rw [← lastOf?_isSome, ← hsome]
    exact Entries.hasKey_iff_mem
  · have hsame := hlast id
    rw [ht] at hsame
    obtain ⟨result, hresult, hverdict⟩ := Option.map_eq_some_iff.mp hsame
    exact ⟨result, hresult, congrArg Prod.fst hverdict, congrArg Prod.snd hverdict⟩
  · rcases htells.good t ht with hnull | ⟨entries, flag, hentries, hflag, hpresent⟩
    · exact absurd hnull hresult
    · refine ⟨entries, flag, hentries, hflag, ?_⟩
      rw [hpresent]
      cases t.success <;> simp

end

/-- Two rounds of a step that succeeds and a step whose block has no name. -/
def twoRounds : Workflow where
  start := "try"
  steps :=
    [{ id := "try", block := some [("name", .text "x")], next := some "check"
       repetition := some
        { count := some (.times 2), scope := .subtree, subtreeEnd := some "end" } },
     { id := "check", block := some [("value", .text "no name")], next := some "end" }]
  targetUrl := some "u"

/-- Collaborators that open any surface, and an executor that knows no block without a name. -/
def Collaborators.naming : Collaborators where
  executor := fun _ d =>
    if d.name.isEmpty then { answer := .error "no name" } else { answer := .ok .null }
  openSurface := fun _ _ _ _ => .ok (.text "surface")

/-- After the first round, in which the second step failed, the summary takes the place of the
result of the first step; the trace still agrees with the context. -/
theorem twoRounds_traceAgrees : ∃ r, (twoRounds.run .naming {} {} 20 {}).1 = .ok r ∧ r.Agrees ∧
    r.traces.map (fun t => (t.stepId, t.success)) = [("try", false), ("check", false)] := by
  have hok : (twoRounds.run .naming {} {} 20 {}).1.isOk = true := by decide +kernel
  obtain ⟨r, hr⟩ := Act.exists_of_isOk hok
  have htraces : (twoRounds.run .naming {} {} 20 {}).1.toOption.map (fun r =>
      r.traces.map (fun t => (t.stepId, t.success))) =
        some [("try", false), ("check", false)] := by
    decide +kernel
  rw [hr] at htraces
  exact ⟨r, hr, run_traceAgrees hr, Option.some.inj htraces⟩

end StepGraph
