import StepGraph.Proofs.Rounds
import StepGraph.Proofs.TraceContext

/-!
# The summary of a repeated subtree

The repeat of a subtree runs in rounds, each of them a walk from the step that is repeated, in the
context that the round before has left. Its summary tells what ran: every round with its number, its
success and the steps of its trace, and the rounds that failed. It is recorded as the result of the
step, in the context and in the trace, and the walk goes on at the end of the subtree. Only a round
that failed or the guard ends the rounds before the items do.
-/

namespace StepGraph

namespace Segment

/-- The steps of the entries in the trace. -/
def ids (segment : Segment) : List String := segment.traces.map (·.stepId)

/-- What a summary tells of an iteration. -/
def entry (segment : Segment) (index : Nat) : Value := .mapping
  [("index", .int index), ("success", .bool segment.succeeded),
    ("steps", .list (segment.traces.map StepTrace.digest))]

/-- What a summary tells of an iteration that failed. -/
def errorEntry (segment : Segment) (index : Nat) : Value :=
  .mapping [("index", .int index), ("message", segment.failureMessage)]

end Segment

/-- What a summary tells of rounds that are numbered from an index on. -/
def Round.entries (index : Nat) (rounds : List (Round Segment)) : List Value :=
  (rounds.zipIdx index).map fun (round, i) => round.result.entry i

/-- What it tells of those among them that failed. -/
def Round.errors (index : Nat) (rounds : List (Round Segment)) : List Value :=
  ((rounds.zipIdx index).filter fun (round, _) => !round.result.succeeded).map
    fun (round, i) => round.result.errorEntry i

/-- There are no errors if all rounds succeeded. -/
theorem Round.errors_isEmpty (index : Nat) (rounds : List (Round Segment)) :
    (errors index rounds).isEmpty = rounds.all (·.result.succeeded) := by
  unfold errors
  induction rounds generalizing index with
  | nil => rfl
  | cons round later ih =>
    cases hsuccess : round.result.succeeded with
    | true => simpa [hsuccess] using ih (index + 1)
    | false => simp [hsuccess]

namespace Harvest

/-- What the iterations have come to after some more rounds. -/
def extend (harvest : Harvest) (index : Nat) (rounds : List (Round Segment)) : Harvest where
  traces := harvest.traces ++ rounds.flatMap (·.result.traces)
  iterations := harvest.iterations ++ Round.entries index rounds
  errors := harvest.errors ++ Round.errors index rounds

/-- No rounds add nothing. -/
theorem extend_nil (harvest : Harvest) (index : Nat) : harvest.extend index [] = harvest := by
  unfold extend Round.entries Round.errors
  simp

/-- Rounds are gathered one after the other. -/
theorem extend_cons (harvest : Harvest) (index : Nat) (round : Round Segment)
    (later : List (Round Segment)) :
    harvest.extend index (round :: later) =
      (harvest.gather index round.result).extend (index + 1) later := by
  unfold extend gather Round.entries Round.errors Segment.entry Segment.errorEntry
  cases hsuccess : round.result.succeeded with
  | true => simp [hsuccess]
  | false => simp [hsuccess]

end Harvest

namespace SubtreeRepeat

/-- Rounds that are walks from the step that is repeated, each inside of the iteration for its item
and in the context that the one before has left; they are numbered from an index on. -/
def Ran (r : SubtreeRepeat) (walker : Walker) (frames : List Frame) (items : List Value)
    (index : Nat) (ctx : Context) (rounds : List (Round Segment)) : Prop :=
  ∀ i round, rounds[i]? = some round → ∃ item before, items[i]? = some item ∧
    (ctx :: rounds.map (·.result.context))[i]? = some before ∧
    walker (r.frame item (index + i) :: frames) (some r.step.id)
      ((r.frame item (index + i)).enter before) round.before.beginIteration =
        (.ok round.result, round.after)

/-- The iterations of a subtree from an index on: the rounds, what is gathered after a harvest, the
context of the last one and the world that is left. -/
structure Iterated (r : SubtreeRepeat) (walker : Walker) (frames : List Frame)
    (items : List Value) (index : Nat) (ctx : Context) (harvest : Harvest) (w : World)
    (rounds : List (Round Segment)) (done : Harvest × Context) (left : World) : Prop where
  /-- The rounds follow one another. -/
  follow : r.config.Follow w rounds left
  /-- Each of them is a walk from the step. -/
  ran : r.Ran walker frames items index ctx rounds
  /-- What they came to is gathered. -/
  gathered : done.1 = harvest.extend index rounds
  /-- There is a first one if there are items. -/
  begun : rounds.isEmpty = items.isEmpty
  /-- There are no more of them than items. -/
  within : rounds.length ≤ items.length
  /-- Unless errors are passed over, only the last one may have failed. -/
  last : r.config.continueOnError = false → ∀ i round, rounds[i]? = some round →
    round.result.succeeded = false → i + 1 = rounds.length
  /-- There are fewer of them than items only after an error or if the guard has halted the run. -/
  early : rounds.length < items.length → left.guard.halted = none →
    r.config.continueOnError = false ∧ ∃ round ∈ rounds, round.result.succeeded = false

/-- Iterations of a subtree that are broken off by a fault: the rounds before it, which let the next
one begin, and the fault of that one or of the wait before it. -/
structure BrokenOff (r : SubtreeRepeat) (walker : Walker) (frames : List Frame)
    (items : List Value) (index : Nat) (ctx : Context) (w : World) (rounds : List (Round Segment))
    (fault : RunFault) (after : World) : Prop where
  /-- The rounds are walks from the step. -/
  ran : r.Ran walker frames items index ctx rounds
  /-- None of them stopped the repeat. -/
  goes : ∀ round ∈ rounds, (round.result.succeeded = true ∨ r.config.continueOnError = true) ∧
    round.after.guard.halted = none
  /-- The next round has a fault, or the wait after the last one has. -/
  broken :
    (∃ before item inside, r.config.Comes w rounds before ∧ items[rounds.length]? = some item ∧
      (ctx :: rounds.map (·.result.context))[rounds.length]? = some inside ∧
      walker (r.frame item (index + rounds.length) :: frames) (some r.step.id)
        ((r.frame item (index + rounds.length)).enter inside) before.beginIteration =
          (.error fault, after)) ∨
    (r.config.Overruns fault ∧ rounds ≠ [] ∧ r.config.Follow w rounds after)

section
variable {r : SubtreeRepeat} {walker : Walker} {frames : List Frame} {item : Value}
  {rest : List Value} {index : Nat} {ctx : Context} {harvest : Harvest}

/-- No rounds are walks from any step. -/
theorem Ran.nil {items : List Value} : r.Ran walker frames items index ctx [] :=
  fun _ _ h => nomatch h

/-- One round more at the beginning. -/
theorem Ran.cons {round : Round Segment} {later : List (Round Segment)}
    (hrun : walker (r.frame item index :: frames) (some r.step.id) ((r.frame item index).enter ctx)
      round.before.beginIteration = (.ok round.result, round.after))
    (h : r.Ran walker frames rest (index + 1) round.result.context later) :
    r.Ran walker frames (item :: rest) index ctx (round :: later) := by
  intro i found hfound
  cases i with
  | zero =>
    cases hfound
    exact ⟨item, ctx, rfl, rfl, hrun⟩
  | succ i =>
    obtain ⟨item', before, hitem, hbefore, hrun'⟩ := h i found hfound
    have hindex : index + 1 + i = index + (i + 1) := by omega
    rw [hindex] at hrun'
    exact ⟨item', before, hitem, hbefore, hrun'⟩

/-- Without any items there are no rounds. -/
theorem Iterated.nil (w : World) :
    r.Iterated walker frames [] index ctx harvest w [] (harvest, ctx) w where
  follow := .none w
  ran := .nil
  gathered := (harvest.extend_nil index).symm
  begun := rfl
  within := Nat.le_refl 0
  last := fun _ _ _ h => nomatch h
  early := fun h => absurd h (Nat.lt_irrefl 0)

/-- A round after which the repeat stops. -/
theorem Iterated.stop (round : Round Segment)
    (hrun : walker (r.frame item index :: frames) (some r.step.id) ((r.frame item index).enter ctx)
      round.before.beginIteration = (.ok round.result, round.after))
    (hstops : (round.result.succeeded = false ∧ r.config.continueOnError = false) ∨
      round.after.guard.allows = false) :
    r.Iterated walker frames (item :: rest) index ctx harvest round.before [round]
      (harvest.gather index round.result, round.result.context) round.after where
  follow := .last round
  ran := .cons hrun .nil
  gathered := by rw [Harvest.extend_cons, Harvest.extend_nil]
  begun := rfl
  within := by simp
  last := by
    intro _ i found hfound _
    obtain ⟨rfl, rfl⟩ := eq_of_getElem?_singleton hfound
    rfl
  early := by
    intro _ hrunning
    rcases hstops with ⟨hfailed, hconfig⟩ | hhalted
    · exact ⟨hconfig, round, List.mem_cons_self, hfailed⟩
    · unfold Guard.allows at hhalted
      rw [hrunning] at hhalted
      cases hhalted

/-- After a round that does not stop the repeat come the rounds for the other items. -/
theorem Iterated.cons (round : Round Segment) {rested left : World}
    {later : List (Round Segment)} {done : Harvest × Context}
    (hrun : walker (r.frame item index :: frames) (some r.step.id) ((r.frame item index).enter ctx)
      round.before.beginIteration = (.ok round.result, round.after))
    (hgoes : round.result.succeeded = true ∨ r.config.continueOnError = true)
    (hrest : if rest.isEmpty then rested = round.after else r.config.Rests round.after rested)
    (h : r.Iterated walker frames rest (index + 1) round.result.context
      (harvest.gather index round.result) rested later done left) :
    r.Iterated walker frames (item :: rest) index ctx harvest round.before (round :: later) done
      left where
  follow := RepeatConfig.Follow.cons (h.begun ▸ hrest) h.follow
  ran := .cons hrun h.ran
  gathered := by rw [h.gathered, Harvest.extend_cons]
  begun := rfl
  within := by
    have hwithin := h.within
    rw [List.length_cons, List.length_cons]
    omega
  last := by
    intro hconfig i found hfound hfailed
    cases i with
    | zero =>
      cases hfound
      rcases hgoes with hsuccess | hcontinue
      · rw [hfailed] at hsuccess
        cases hsuccess
      · rw [hconfig] at hcontinue
        cases hcontinue
    | succ i =>
      have hlast := h.last hconfig i found hfound hfailed
      rw [List.length_cons]
      omega
  early := by
    intro hfewer hrunning
    have hfewer' : later.length < rest.length := by simpa using hfewer
    obtain ⟨hconfig, found, hfound, hfailed⟩ := h.early hfewer' hrunning
    exact ⟨hconfig, found, List.mem_cons_of_mem _ hfound, hfailed⟩

/-- The rounds before a fault, with one more at the beginning. -/
theorem BrokenOff.cons (round : Round Segment) {rested after : World}
    {later : List (Round Segment)} {fault : RunFault}
    (hrun : walker (r.frame item index :: frames) (some r.step.id) ((r.frame item index).enter ctx)
      round.before.beginIteration = (.ok round.result, round.after))
    (hgoes : (round.result.succeeded = true ∨ r.config.continueOnError = true) ∧
      round.after.guard.halted = none)
    (hrest : if rest.isEmpty then rested = round.after else r.config.Rests round.after rested)
    (h : r.BrokenOff walker frames rest (index + 1) round.result.context rested later fault after) :
    r.BrokenOff walker frames (item :: rest) index ctx round.before (round :: later) fault
      after where
  ran := .cons hrun h.ran
  goes := List.forall_mem_cons.mpr ⟨hgoes, h.goes⟩
  broken := by
    -- A next round has an item, so there was a wait before it.
    have hrests : ∀ (i : Nat) item', rest[i]? = some item' →
        r.config.Rests round.after rested := by
      intro i item' hitem'
      cases rest with
      | nil => cases hitem'
      | cons _ _ => exact hrest
    have hindex : index + 1 + later.length = index + (later.length + 1) := by omega
    rcases h.broken with ⟨before, item', inside, hcomes, hitem', hinside, hbroken⟩ |
      ⟨hfault, hsome, hfollow⟩
    · rw [hindex] at hbroken
      exact Or.inl ⟨before, item', inside, .later (hrests _ _ hitem') hcomes, hitem', hinside,
        hbroken⟩
    · obtain ⟨round', later', rfl⟩ := List.exists_cons_of_ne_nil hsome
      obtain ⟨item', _, hitem', _⟩ := h.ran 0 round' rfl
      exact Or.inr ⟨hfault, List.cons_ne_nil _ _, .next (hrests _ _ hitem') hfollow⟩

end

/-- The iterations of a subtree are rounds over the items, unless a fault breaks them off. -/
theorem iterations_iterated (r : SubtreeRepeat) (walker : Walker) (frames : List Frame)
    (items : List Value) (index : Nat) (ctx : Context) (harvest : Harvest) (w : World) :
    (r.iterations walker frames items index ctx harvest).Ends w
      (fun done left => ∃ rounds,
        r.Iterated walker frames items index ctx harvest w rounds done left)
      (fun fault after => ∃ rounds,
        r.BrokenOff walker frames items index ctx w rounds fault after) := by
  induction items generalizing index ctx harvest w with
  | nil => exact ⟨[], .nil w⟩
  | cons item rest ih =>
    rw [iterations_cons, Act.ends_bind, Act.ends_change]
    cases hrun : walker (r.frame item index :: frames) (some r.step.id)
        ((r.frame item index).enter ctx) w.beginIteration with
    | mk result after =>
      cases result with
      | error fault =>
        exact (Act.ends_bind_of_error hrun).mpr ⟨[], .nil, fun _ h => absurd h List.not_mem_nil,
          Or.inl ⟨w, item, ctx, .first w, rfl, rfl, hrun⟩⟩
      | ok segment =>
        rw [Act.ends_bind_of_ok hrun]
        have hstop : ((segment.succeeded = false ∧ r.config.continueOnError = false) ∨
            after.guard.allows = false) →
            r.Iterated walker frames (item :: rest) index ctx harvest w [⟨w, segment, after⟩]
              (harvest.gather index segment, segment.context) after :=
          fun hstops => .stop ⟨w, segment, after⟩ hrun hstops
        unfold afterIteration
        dsimp only
        split
        · rename_i hfailed
          have hfailed : segment.succeeded = false ∧ r.config.continueOnError = false := by
            simpa using hfailed
          exact ⟨_, hstop (Or.inl hfailed)⟩
        · rename_i hgoes
          have hgoes : segment.succeeded = true ∨ r.config.continueOnError = true := by
            cases hsuccess : segment.succeeded with
            | true => exact Or.inl rfl
            | false => exact Or.inr (by simpa [hsuccess] using hgoes)
          rw [Act.ends_bind, Act.ends_see]
          split
          · rename_i hhalted
            exact ⟨_, hstop (Or.inr (by simpa using hhalted))⟩
          · rename_i hallows
            have hrunning : after.guard.halted = none := by simpa [Guard.allows] using hallows
            rw [Act.ends_bind]
            refine (r.config.pause_rests rest.isEmpty after).imp (fun _ rested hrest => ?_)
              (fun fault left hpause => ?_)
            · refine (ih (index + 1) segment.context (harvest.gather index segment) rested).imp
                (fun done left hdone => ?_) (fun fault left hbroken => ?_)
              · obtain ⟨rounds, hrounds⟩ := hdone
                exact ⟨_, .cons ⟨w, segment, after⟩ hrun hgoes hrest hrounds⟩
              · obtain ⟨rounds, hrounds⟩ := hbroken
                exact ⟨_, .cons ⟨w, segment, after⟩ hrun ⟨hgoes, hrunning⟩ hrest hrounds⟩
            · obtain ⟨rfl, hfault⟩ := hpause
              refine ⟨[⟨w, segment, left⟩], .cons hrun .nil, ?_,
                Or.inr ⟨hfault, List.cons_ne_nil _ _, .last ⟨w, segment, left⟩⟩⟩
              exact List.forall_mem_cons.mpr
                ⟨⟨hgoes, hrunning⟩, fun _ h => absurd h List.not_mem_nil⟩

/-- What the repeat of a subtree comes to: the rounds, what the walk goes on with and the world in
which the repeat is left. -/
structure Summed (r : SubtreeRepeat) (walker : Walker) (frames : List Frame) (ctx : Context)
    (w : World) (rounds : List (Round Segment)) (segment : Segment) (left : World) : Prop where
  /-- The rounds follow one another. -/
  follow : r.config.Follow w rounds left
  /-- Each of them is a walk from the step, and they are numbered from zero on. -/
  ran : r.Ran walker frames r.items 0 ctx rounds
  /-- There are no more of them than items. -/
  within : rounds.length ≤ r.items.length
  /-- The summary lists them and those of them that failed. It is an error if there is one and
  errors are not passed over. In the context and in the trace it is the result of the step. -/
  recorded : ∃ failed message summed entry,
    failed = (!rounds.all (·.result.succeeded) && !r.config.continueOnError) ∧
    summed = summary failed message (.mapping
      [("iterations", .list (Round.entries 0 rounds)), ("errors", .list (Round.errors 0 rounds))]) ∧
    segment.context.stepResult? r.step.id = some ⟨summed, !failed, r.items.isEmpty⟩ ∧
    lastOf? r.step.id segment.traces = some entry ∧ entry.result = summed
  /-- The trace has the entries of the rounds, and one more for the step if it has none in them. -/
  traced : segment.traces.map (·.stepId) = rounds.flatMap (·.result.ids) ++
    if r.step.id ∈ rounds.flatMap (·.result.ids) then [] else [r.step.id]
  /-- Unless errors are passed over, only the last round may have failed. -/
  last : r.config.continueOnError = false → ∀ i round, rounds[i]? = some round →
    round.result.succeeded = false → i + 1 = rounds.length
  /-- There are fewer rounds than items only after an error or if the guard has halted the run. -/
  early : rounds.length < r.items.length → left.guard.halted = none →
    r.config.continueOnError = false ∧ ∃ round ∈ rounds, round.result.succeeded = false
  /-- The walk goes on at the end of the subtree. -/
  next : segment.next = some r.stop

/-- How a repeat ends the run: its rounds are broken off, or there is no timestamp for its
summary. -/
inductive EndsRun (r : SubtreeRepeat) (walker : Walker) (frames : List Frame) (ctx : Context)
    (w : World) : RunFault → World → Prop where
  /-- A fault of a round or of the wait before it. -/
  | round {rounds : List (Round Segment)} {fault : RunFault} {after : World}
      (h : r.BrokenOff walker frames r.items 0 ctx w rounds fault after) :
      EndsRun r walker frames ctx w fault after
  /-- The reading of the clock after all rounds. -/
  | reading {rounds : List (Round Segment)} {done : Harvest × Context} {left : World}
      {cause : ClockFault} (h : r.Iterated walker frames r.items 0 ctx {} w rounds done left)
      (hclock : Timestamp.ofReading left.leaveRepeat.now = .error cause) :
      EndsRun r walker frames ctx w (.clock cause) left.leaveRepeat

/-- A repeat failed if one of its rounds did and errors are not passed over. -/
theorem failed_extend (r : SubtreeRepeat) (rounds : List (Round Segment)) :
    r.failed (({} : Harvest).extend 0 rounds) =
      (!rounds.all (·.result.succeeded) && !r.config.continueOnError) := by
  have herrors : (({} : Harvest).extend 0 rounds).errors = Round.errors 0 rounds :=
    List.nil_append _
  unfold failed
  rw [herrors, Round.errors_isEmpty]

/-- The trace of a repeat has the entries of its rounds, and one more for the step if it has none in
them; the last one of the step has the summary. -/
theorem traces_ends_ids (r : SubtreeRepeat) (harvest : Harvest) (w : World) :
    (r.traces harvest).Ends w
      (fun traces after => after = w ∧
        (traces.map (·.stepId) = harvest.traces.map (·.stepId) ++
          if r.step.id ∈ harvest.traces.map (·.stepId) then [] else [r.step.id]) ∧
        ∃ entry, lastOf? r.step.id traces = some entry ∧ entry.result = r.result harvest)
      (fun fault after => after = w ∧
        ∃ cause, Timestamp.ofReading w.now = .error cause ∧ fault = .clock cause) := by
  unfold traces
  dsimp only
  split
  · rename_i replaced hreplaced
    obtain ⟨earlier, t, later, htraces, ht, hlater, rfl⟩ := exists_of_replaceLast? hreplaced
    have hmem : r.step.id ∈ harvest.traces.map (·.stepId) := by
      rw [htraces]
      simp [ht]
    refine ⟨rfl, ?_, t.summarised (r.result harvest) (!r.failed harvest)
      (r.message harvest), ?_, rfl⟩
    · rw [if_pos hmem, htraces]
      simp [StepTrace.summarised]
    · have hid : (t.summarised (r.result harvest) (!r.failed harvest) (r.message harvest)).stepId =
          r.step.id := ht
      rw [lastOf?_append, lastOf?_append, lastOf?_eq_none hlater, lastOf?_singleton, if_pos hid]
      rfl
  · rename_i hnone
    have hnot : r.step.id ∉ harvest.traces.map (·.stepId) := by
      intro hmem
      obtain ⟨t, ht, hid⟩ := List.mem_map.mp hmem
      exact ne_of_replaceLast?_none hnone t ht hid
    rw [Act.ends_bind]
    refine Act.ends_timestamp (fun now _ => ⟨rfl, ?_, ?_⟩)
      (fun cause hcause => ⟨rfl, cause, hcause, rfl⟩)
    · rw [if_neg hnot]
      simp
    · rw [lastOf?_append, lastOf?_singleton, if_pos rfl]
      exact ⟨_, rfl, rfl⟩

/-- All of this follows from the iterations from the first one on, and from what comes after
them. -/
theorem Iterated.close_ends {r : SubtreeRepeat} {walker : Walker} {frames : List Frame}
    {ctx : Context} {w left : World} {rounds : List (Round Segment)} {done : Harvest × Context}
    (h : r.Iterated walker frames r.items 0 ctx {} w rounds done left) :
    (r.close done).Ends left
      (fun segment after => after = left.leaveRepeat ∧
        r.Summed walker frames ctx w rounds segment left)
      (r.EndsRun walker frames ctx w) := by
  rcases done with ⟨harvest, last⟩
  have hgathered : harvest = ({} : Harvest).extend 0 rounds := h.gathered
  have hfailed : r.failed harvest =
      (!rounds.all (·.result.succeeded) && !r.config.continueOnError) := by
    rw [hgathered, failed_extend]
  have hids : harvest.traces.map (·.stepId) = rounds.flatMap (·.result.ids) := by
    rw [hgathered]
    unfold Harvest.extend Segment.ids
    simp [List.map_flatMap]
  have hsummed : r.result harvest = summary (r.failed harvest) (r.message harvest) (.mapping
      [("iterations", .list (Round.entries 0 rounds)),
        ("errors", .list (Round.errors 0 rounds))]) := by
    unfold result
    rw [hgathered]
    unfold Harvest.extend
    simp
  unfold close
  dsimp only
  rw [Act.ends_bind, Act.ends_change, Act.ends_bind]
  refine (r.traces_ends_ids harvest left.leaveRepeat).imp (fun traces after htraces => ?_)
    (fun fault after hfault => ?_)
  · obtain ⟨rfl, htraced, entry, hentry, hresult⟩ := htraces
    rw [hids] at htraced
    refine ⟨rfl, ?_⟩
    exact {
      follow := h.follow
      ran := h.ran
      within := h.within
      recorded := by
        refine ⟨r.failed harvest, r.message harvest, r.result harvest, entry, hfailed, hsummed, ?_,
          hentry, hresult⟩
        change Entries.get? (Entries.insert _ _ _) _ = _
        rw [Entries.get?_insert, if_pos rfl]
      traced := htraced
      last := h.last
      early := h.early
      next := rfl }
  · obtain ⟨rfl, cause, hcause, rfl⟩ := hfault
    exact .reading h hcause

/-- A repeat whose items are known comes to its rounds and their summary, unless it ends the run. -/
theorem run_summed (r : SubtreeRepeat) (walker : Walker) (frames : List Frame) (ctx : Context)
    (w : World) :
    (r.run walker frames ctx).Ends w
      (fun segment after => ∃ rounds left, after = left.leaveRepeat ∧
        r.Summed walker frames ctx w rounds segment left)
      (r.EndsRun walker frames ctx w) := by
  rw [run_eq, Act.ends_bind]
  refine (r.iterations_iterated walker frames r.items 0 ctx {} w).imp (fun done left hdone => ?_)
    (fun fault after hbroken => ?_)
  · obtain ⟨rounds, hrounds⟩ := hdone
    exact hrounds.close_ends.imp (fun segment after hsegment => ⟨rounds, left, hsegment⟩)
      (fun _ _ => id)
  · obtain ⟨rounds, hrounds⟩ := hbroken
    exact .round hrounds

end SubtreeRepeat

section
variable {stage : Stage} {workflow : Workflow} {depth : Nat} {frames : List Frame}
  {next : Option String} {ctx : Context} {w : World} {step : Step} {config : RepeatConfig}
  {r : SubtreeRepeat}

/-- A walk that has come to a repeat with items at hand is the repeat and the walk after it. -/
theorem walk_of_repeat (hreach : workflow.Reaches frames next w step)
    (hrepeat : step.startingRepeat? frames = some config)
    (hstart : SubtreeRepeat.start? step config ctx = .ok r) :
    walk stage workflow (depth + 1) frames next ctx w =
      (do
        Act.change (·.enterRepeat step ctx frames)
        let first ← r.run (walk stage workflow depth) frames ctx
        let rest ← walk stage workflow depth frames first.next first.context
        return { rest with traces := first.traces ++ rest.traces } : Act Segment) w := by
  have hturn := @turn_of_reaches stage workflow (walk stage workflow depth) frames next ctx w step
    hreach
  have hrun : step.walkRepeat config (walk stage workflow depth) frames ctx =
      r.run (walk stage workflow depth) frames ctx := by
    unfold Step.walkRepeat
    rw [hstart]
  rw [hrepeat] at hturn
  dsimp only at hturn
  rw [hrun] at hturn
  have hentered : Act.change (·.enterRepeat step ctx frames) w =
      (.ok (), w.enterRepeat step ctx frames) := rfl
  conv => lhs; unfold walk
  rw [Act.bind_ok hentered] at hturn ⊢
  cases hfirst : r.run (walk stage workflow depth) frames ctx (w.enterRepeat step ctx frames) with
  | mk result after =>
    cases result with
    | ok first =>
      rw [Act.bind_ok hfirst] at hturn
      rw [Act.bind_ok hfirst, Act.bind_ok hturn]
    | error fault =>
      rw [Act.bind_error hfirst] at hturn
      rw [Act.bind_error hfirst, Act.bind_error hturn]

end

end StepGraph
