import Mathlib.Algebra.GroupWithZero.Nat
import StepGraph.Proofs.Attempts
import StepGraph.Proofs.RepeatScopes

/-!
# The rounds of a repeat

The iterations of a repeat are rounds that follow one another: each begins where the one before has
left the world, after the wait between two iterations, and after the last one nothing is waited
for. The repeat of a block accounts for all of its items by its rounds. Either there is one for each
item, and the outcome lists what they came to; or the last of them failed where the repeat does not
go on after errors, and the outcome tells which one and what was before it.
-/

namespace StepGraph

/-- An iteration that ran: the world in which it began, what it came to and the world that it
left. -/
structure Round (α : Type) where
  /-- The world in which it began. -/
  before : World
  /-- What it came to. -/
  result : α
  /-- The world that it left. -/
  after : World

namespace RepeatConfig

variable {config : RepeatConfig} {α : Type}

/-- The wait between two iterations, if there is one to make. -/
def Rests (config : RepeatConfig) (w after : World) : Prop :=
  if config.delayBetween.isZero then after = w
  else ∃ seconds, Act.secondsOf config.delayBetween = .ok seconds ∧ after = w.sleep seconds

/-- Rounds that follow one another from one world to another: between two of them is the wait of the
repeat, and there is none before the first one or after the last one. -/
inductive Follow (config : RepeatConfig) : World → List (Round α) → World → Prop where
  /-- Without any rounds nothing happens. -/
  | none (w : World) : Follow config w [] w
  /-- The last round. -/
  | last (r : Round α) : Follow config r.before [r] r.after
  /-- A round before another one. -/
  | next {r r' : Round α} {later : List (Round α)} {rested left : World}
      (hrest : config.Rests r.after rested) (h : Follow config rested (r' :: later) left) :
      Follow config r.before (r :: r' :: later) left

/-- The world in which a round begins that comes after others. -/
inductive Comes (config : RepeatConfig) : World → List (Round α) → World → Prop where
  /-- The first round. -/
  | first (w : World) : Comes config w [] w
  /-- A later one. -/
  | later {r : Round α} {rounds : List (Round α)} {rested before : World}
      (hrest : config.Rests r.after rested) (h : Comes config rested rounds before) :
      Comes config r.before (r :: rounds) before

/-- A fault of the wait between two iterations. -/
def Overruns (config : RepeatConfig) (fault : RunFault) : Prop :=
  config.delayBetween.isZero = false ∧
    ∃ cause, Act.secondsOf config.delayBetween = .error cause ∧ fault = .arithmetic cause

/-- After an iteration there is a wait if another one comes. -/
theorem pause_rests (config : RepeatConfig) (isLast : Bool) (w : World) :
    (config.pause isLast).Ends w
      (fun _ after => if isLast then after = w else config.Rests w after)
      (fun fault after => after = w ∧ config.Overruns fault) := by
  unfold RepeatConfig.pause Rests
  cases isLast with
  | true =>
    have hnone : (!config.delayBetween.isZero && !true) = false := Bool.and_false _
    rw [hnone, if_neg Bool.false_ne_true]
    exact rfl
  | false =>
    cases hzero : config.delayBetween.isZero with
    | true => exact rfl
    | false =>
      exact Act.ends_sleep (fun seconds hseconds => ⟨seconds, hseconds, rfl⟩)
        (fun cause hcause => ⟨rfl, hzero, cause, hcause, rfl⟩)

/-- A round before others that begin after the wait, if there are any. -/
theorem Follow.cons {r : Round α} {later : List (Round α)} {rested left : World}
    (hrest : if later.isEmpty then rested = r.after else config.Rests r.after rested)
    (h : config.Follow rested later left) : config.Follow r.before (r :: later) left := by
  cases later with
  | nil =>
    have hsame : rested = r.after := hrest
    cases h
    rw [hsame]
    exact .last r
  | cons r' later =>
    have hrest : config.Rests r.after rested := hrest
    exact .next hrest h

end RepeatConfig

/-- An iteration entered from inside of another one is the same as from outside. -/
theorem RepeatSource.enter_enter (source : RepeatSource) (ctx : Context) (item item' : Value)
    (index index' total : Nat) :
    source.enter (source.enter ctx item index total) item' index' total =
      source.enter ctx item' index' total := by
  cases source with
  | items path => rfl
  | count amount => rfl

/-- What a repeat lists of an iteration: its result, or null if it failed. -/
def Outcome.slot (outcome : Outcome) : Value := if outcome.success then outcome.result else .null

/-- What a repeat tells of an iteration that failed. -/
def Outcome.errorEntry (outcome : Outcome) (index : Nat) (item : Value) : Value :=
  .mapping [("index", .int index), ("item", item), ("error", outcome.result)]

/-- An outcome with a mapping as its result fills its slot with null exactly if it failed. -/
theorem Outcome.slot_eq_null_iff {outcome : Outcome}
    (h : ∃ entries, outcome.result = .mapping entries) :
    outcome.slot = .null ↔ outcome.success = false := by
  obtain ⟨entries, hresult⟩ := h
  unfold slot
  cases hsuccess : outcome.success with
  | true =>
    rw [if_pos rfl, hresult]
    simp
  | false => simp

namespace Tally

/-- One tally is another one with an iteration more. -/
structure Adds (before after : Tally) (index : Nat) (item : Value) (outcome : Outcome) : Prop where
  /-- Its slot is filled. -/
  results : after.results = before.results ++ [outcome.slot]
  /-- An error is listed if it failed. -/
  errors : after.errors =
    before.errors ++ if outcome.success then [] else [outcome.errorEntry index item]
  /-- Its dispatches are counted. -/
  attempts : after.attempts = before.attempts + outcome.attempts

/-- A successful iteration is added by its result. -/
theorem adds_of_success (tally : Tally) (index : Nat) (item : Value) {outcome : Outcome}
    (h : outcome.success = true) :
    tally.Adds ((tally.spend outcome).record outcome.result) index item outcome where
  results := by
    unfold Outcome.slot
    rw [if_pos h]
    rfl
  errors := by
    rw [if_pos h, List.append_nil]
    rfl
  attempts := rfl

/-- A failed one is added by an error and null. -/
theorem adds_of_failure (tally : Tally) (index : Nat) (item : Value) {outcome : Outcome}
    (h : outcome.success = false) :
    tally.Adds (((tally.spend outcome).fail index item outcome).record .null) index item
      outcome where
  results := by
    unfold Outcome.slot
    rw [h]
    rfl
  errors := by
    rw [h]
    rfl
  attempts := rfl

end Tally

namespace Call

/-- Rounds that are runs of the block, each inside of the iteration for its item; they are numbered
from an index on. -/
def Ran (call : Call) (source : RepeatSource) (total : Nat) (items : List Value) (index : Nat)
    (ctx : Context) (rounds : List (Round Outcome)) : Prop :=
  ∀ i r, rounds[i]? = some r → ∃ item, items[i]? = some item ∧
    call.run (source.enter ctx item (index + i) total) r.before = (.ok r.result, r.after)

/-- The iterations of a block from an index on: the rounds, what they come to after a tally and the
world that is left. -/
structure Iterated (call : Call) (config : RepeatConfig) (source : RepeatSource) (total : Nat)
    (items : List Value) (index : Nat) (ctx : Context) (tally : Tally) (w : World)
    (rounds : List (Round Outcome)) (outcome : Outcome) (left : World) : Prop where
  /-- The rounds follow one another. -/
  follow : config.Follow w rounds left
  /-- Each of them is a run of the block. -/
  ran : call.Ran source total items index ctx rounds
  /-- All items were gone over, or the last round failed and none before it. -/
  ending :
    (rounds.length = items.length ∧
      (config.continueOnError = true ∨ ∀ r ∈ rounds, r.result.success = true) ∧
      ∃ errors, errors.length = rounds.countP (!·.result.success) ∧
        outcome = Tally.finished ⟨tally.results ++ rounds.map (·.result.slot),
          tally.errors ++ errors, tally.attempts + (rounds.map (·.result.attempts)).sum⟩ total) ∨
    (config.continueOnError = false ∧ ∃ earlier last item, rounds = earlier ++ [last] ∧
      (∀ r ∈ earlier, r.result.success = true) ∧ last.result.success = false ∧
      items[earlier.length]? = some item ∧
      outcome = Tally.stopped ⟨tally.results ++ earlier.map (·.result.slot),
        tally.errors ++ [last.result.errorEntry (index + earlier.length) item],
        tally.attempts + (rounds.map (·.result.attempts)).sum⟩ (index + earlier.length) last.result)

/-- Iterations of a block that are broken off by a fault: the rounds before it, which let the next
one begin, and the fault of that one or of the wait before it. -/
structure BrokenOff (call : Call) (config : RepeatConfig) (source : RepeatSource) (total : Nat)
    (items : List Value) (index : Nat) (ctx : Context) (w : World) (rounds : List (Round Outcome))
    (fault : RunFault) (after : World) : Prop where
  /-- The rounds are runs of the block. -/
  ran : call.Ran source total items index ctx rounds
  /-- None of them stopped the repeat. -/
  goes : ∀ r ∈ rounds, r.result.success = true ∨ config.continueOnError = true
  /-- The next round has a fault, which is that of a wait between two attempts, or the wait after
  the last one has. -/
  broken :
    (call.policy.Overruns fault ∧ ∃ before item, config.Comes w rounds before ∧
      items[rounds.length]? = some item ∧
      call.run (source.enter ctx item (index + rounds.length) total) before =
        (.error fault, after)) ∨
    (config.Overruns fault ∧ rounds ≠ [] ∧ config.Follow w rounds after)

section
variable {call : Call} {config : RepeatConfig} {source : RepeatSource} {total : Nat}
  {item : Value} {rest : List Value} {index : Nat} {ctx : Context} {tally : Tally}

/-- No rounds are runs of any block. -/
theorem Ran.nil {items : List Value} : call.Ran source total items index ctx [] :=
  fun _ _ h => nomatch h

/-- One round more at the beginning. -/
theorem Ran.cons {r : Round Outcome} {later : List (Round Outcome)}
    (hrun : call.run (source.enter ctx item index total) r.before = (.ok r.result, r.after))
    (h : call.Ran source total rest (index + 1) (source.enter ctx item index total) later) :
    call.Ran source total (item :: rest) index ctx (r :: later) := by
  intro i r' hr'
  cases i with
  | zero =>
    cases hr'
    exact ⟨item, rfl, hrun⟩
  | succ i =>
    obtain ⟨item', hitem', hrun'⟩ := h i r' hr'
    have hindex : index + 1 + i = index + (i + 1) := by omega
    rw [RepeatSource.enter_enter, hindex] at hrun'
    exact ⟨item', hitem', hrun'⟩

/-- Without any items there are no rounds. -/
theorem Iterated.nil (w : World) : call.Iterated config source total [] index ctx tally w []
    (tally.finished total) w where
  follow := .none w
  ran := .nil
  ending := Or.inl ⟨rfl, Or.inr fun _ h => absurd h List.not_mem_nil, [], rfl, by simp⟩

/-- There are rounds if there are items. -/
theorem Iterated.isEmpty_eq {items : List Value} {w left : World} {rounds : List (Round Outcome)}
    {outcome : Outcome}
    (h : call.Iterated config source total items index ctx tally w rounds outcome left) :
    rounds.isEmpty = items.isEmpty := by
  rw [Bool.eq_iff_iff, List.isEmpty_iff_length_eq_zero, List.isEmpty_iff_length_eq_zero]
  rcases h.ending with ⟨hlength, _⟩ | ⟨_, earlier, last, item, rfl, _, _, hitem, _⟩
  · rw [hlength]
  · have hitems : earlier.length < items.length := (List.getElem?_eq_some_iff.mp hitem).1
    rw [List.length_append, List.length_singleton]
    omega

/-- A round that fails where errors are not passed over is the last one. -/
theorem Iterated.stop (r : Round Outcome)
    (hrun : call.run (source.enter ctx item index total) r.before = (.ok r.result, r.after))
    (hfailed : r.result.success = false) (hconfig : config.continueOnError = false) :
    call.Iterated config source total (item :: rest) index ctx tally r.before [r]
      (((tally.spend r.result).fail index item r.result).stopped index r.result) r.after where
  follow := .last r
  ran := .cons hrun .nil
  ending := by
    refine Or.inr ⟨hconfig, [], r, item, rfl, fun _ h => absurd h List.not_mem_nil,
      hfailed, rfl, ?_⟩
    simp [Tally.spend, Tally.fail, Outcome.errorEntry]

/-- After a round that does not stop the repeat come the rounds for the other items. -/
theorem Iterated.cons (r : Round Outcome) {tally' : Tally} {rested left : World}
    {later : List (Round Outcome)} {outcome : Outcome}
    (hrun : call.run (source.enter ctx item index total) r.before = (.ok r.result, r.after))
    (hgoes : r.result.success = true ∨ config.continueOnError = true)
    (hadds : tally.Adds tally' index item r.result)
    (hrest : if rest.isEmpty then rested = r.after else config.Rests r.after rested)
    (h : call.Iterated config source total rest (index + 1) (source.enter ctx item index total)
      tally' rested later outcome left) :
    call.Iterated config source total (item :: rest) index ctx tally r.before (r :: later) outcome
      left where
  follow := RepeatConfig.Follow.cons (h.isEmpty_eq ▸ hrest) h.follow
  ran := .cons hrun h.ran
  ending := by
    rcases h.ending with ⟨hlength, hall, errors, herrors, hfinished⟩ |
      ⟨hconfig, earlier, last, item', rfl, hearlier, hlast, hitem', hstopped⟩
    · refine Or.inl ⟨?_, ?_, (if r.result.success then [] else [r.result.errorEntry index item]) ++
        errors, ?_, ?_⟩
      · rw [List.length_cons, List.length_cons, hlength]
      · rcases hgoes with hsuccess | hcontinue
        · exact hall.imp_right fun hall => List.forall_mem_cons.mpr ⟨hsuccess, hall⟩
        · exact Or.inl hcontinue
      · rw [List.length_append, List.countP_cons, herrors]
        cases r.result.success <;> simp [Nat.add_comm]
      · rw [hfinished, hadds.results, hadds.errors, hadds.attempts]
        simp [Nat.add_assoc]
    · have hsuccess : r.result.success = true :=
        hgoes.resolve_right (by rw [hconfig]; exact Bool.false_ne_true)
      have hindex : index + 1 + earlier.length = index + (earlier.length + 1) := by omega
      refine Or.inr ⟨hconfig, r :: earlier, last, item', rfl,
        List.forall_mem_cons.mpr ⟨hsuccess, hearlier⟩, hlast, hitem', ?_⟩
      rw [hstopped, hadds.results, hadds.errors, hadds.attempts, hsuccess, List.length_cons, hindex]
      simp [Nat.add_assoc]

/-- The rounds before a fault, with one more at the beginning. -/
theorem BrokenOff.cons (r : Round Outcome) {rested after : World} {later : List (Round Outcome)}
    {fault : RunFault}
    (hrun : call.run (source.enter ctx item index total) r.before = (.ok r.result, r.after))
    (hgoes : r.result.success = true ∨ config.continueOnError = true)
    (hrest : if rest.isEmpty then rested = r.after else config.Rests r.after rested)
    (h : call.BrokenOff config source total rest (index + 1) (source.enter ctx item index total)
      rested later fault after) :
    call.BrokenOff config source total (item :: rest) index ctx r.before (r :: later) fault
      after where
  ran := .cons hrun h.ran
  goes := List.forall_mem_cons.mpr ⟨hgoes, h.goes⟩
  broken := by
    -- A next round has an item, so there was a wait before it.
    have hrests : ∀ (i : Nat) item', rest[i]? = some item' → config.Rests r.after rested := by
      intro i item' hitem'
      cases rest with
      | nil => cases hitem'
      | cons _ _ => exact hrest
    have hindex : index + 1 + later.length = index + (later.length + 1) := by omega
    rcases h.broken with ⟨hfault, before, item', hcomes, hitem', hbroken⟩ |
      ⟨hfault, hsome, hfollow⟩
    · rw [RepeatSource.enter_enter, hindex] at hbroken
      exact Or.inl ⟨hfault, before, item', .later (hrests _ _ hitem') hcomes, hitem', hbroken⟩
    · obtain ⟨r', later', rfl⟩ := List.exists_cons_of_ne_nil hsome
      obtain ⟨item', hitem', _⟩ := h.ran 0 r' rfl
      exact Or.inr ⟨hfault, List.cons_ne_nil _ _, .next (hrests _ _ hitem') hfollow⟩

end

/-- The iterations of a block are rounds over the items, unless a fault breaks them off. -/
theorem iterations_iterated (call : Call) (config : RepeatConfig) (source : RepeatSource)
    (total : Nat) (items : List Value) (index : Nat) (ctx : Context) (tally : Tally) (w : World) :
    (call.iterations config source total items index ctx tally).Ends w
      (fun done after => done.2 = ctx.exitLoop ∧ ∃ rounds,
        call.Iterated config source total items index ctx tally w rounds done.1 after)
      (fun fault after => ∃ rounds,
        call.BrokenOff config source total items index ctx w rounds fault after) := by
  induction items generalizing index ctx tally w with
  | nil => exact ⟨rfl, [], .nil w⟩
  | cons item rest ih =>
    have hexit := source.exitLoop_enter ctx item index total
    rw [iterations_cons]
    cases hrun : call.run (source.enter ctx item index total) w with
    | mk result after =>
      cases result with
      | error fault =>
        have hfault := (call.run_answers (source.enter ctx item index total) w).of_error hrun
        exact (Act.ends_bind_of_error hrun).mpr ⟨[], .nil, fun _ h => absurd h List.not_mem_nil,
          Or.inl ⟨hfault, w, item, .first w, rfl, hrun⟩⟩
      | ok outcome =>
        rw [Act.ends_bind_of_ok hrun]
        -- Whether the round failed or not, the next one begins after the wait.
        have hnext : ∀ tally', outcome.success = true ∨ config.continueOnError = true →
            tally.Adds tally' index item outcome →
            (config.pause rest.isEmpty >>= fun _ =>
              call.iterations config source total rest (index + 1)
                (source.enter ctx item index total) tally').Ends after
              (fun done left => done.2 = ctx.exitLoop ∧ ∃ rounds,
                call.Iterated config source total (item :: rest) index ctx tally w rounds done.1
                  left)
              (fun fault left => ∃ rounds,
                call.BrokenOff config source total (item :: rest) index ctx w rounds fault
                  left) := by
          intro tally' hgoes hadds
          rw [Act.ends_bind]
          refine (config.pause_rests rest.isEmpty after).imp (fun _ rested hrest => ?_)
            (fun fault left hpause => ?_)
          · refine (ih (index + 1) _ tally' rested).imp (fun done left hdone => ?_)
              (fun fault left hbroken => ?_)
            · obtain ⟨hctx, rounds, hrounds⟩ := hdone
              exact ⟨hctx.trans hexit, _,
                .cons ⟨w, outcome, after⟩ hrun hgoes hadds hrest hrounds⟩
            · obtain ⟨rounds, hrounds⟩ := hbroken
              exact ⟨_, .cons ⟨w, outcome, after⟩ hrun hgoes hrest hrounds⟩
          · obtain ⟨rfl, hfault⟩ := hpause
            refine ⟨[⟨w, outcome, left⟩], .cons hrun .nil, ?_,
              Or.inr ⟨hfault, List.cons_ne_nil _ _, .last ⟨w, outcome, left⟩⟩⟩
            exact List.forall_mem_cons.mpr ⟨hgoes, fun _ h => absurd h List.not_mem_nil⟩
        unfold afterIteration
        dsimp only
        split
        · rename_i hsuccess
          exact hnext _ (Or.inl hsuccess) (tally.adds_of_success index item hsuccess)
        · rename_i hfailed
          have hfailed : outcome.success = false := Bool.eq_false_iff.mpr hfailed
          split
          · rename_i hcontinue
            exact hnext _ (Or.inr hcontinue) (tally.adds_of_failure index item hfailed)
          · rename_i hstops
            exact ⟨hexit, _,
              .stop ⟨w, outcome, after⟩ hrun hfailed (Bool.eq_false_iff.mpr hstops)⟩

/-- What the repeat of a block comes to: the rounds, the outcome and the world in which the repeat
is left. -/
structure Repeated (call : Call) (config : RepeatConfig) (source : RepeatSource)
    (items : List Value) (ctx : Context) (w : World) (rounds : List (Round Outcome))
    (outcome : Outcome) (left : World) : Prop where
  /-- The rounds follow one another. -/
  follow : config.Follow w rounds left
  /-- Each of them is a run of the block with the loop state of its item, numbered from zero on. -/
  ran : call.Ran source items.length items 0 ctx rounds
  /-- The dispatches of all of them are counted. -/
  attempts : outcome.attempts = (rounds.map (·.result.attempts)).sum
  /-- An iteration is listed as null exactly if it failed. -/
  slots : ∀ r ∈ rounds, r.result.slot = .null ↔ r.result.success = false
  /-- If errors are passed over or there are none, all items are gone over and listed. -/
  finished : config.continueOnError = true ∨ (∀ r ∈ rounds, r.result.success = true) →
    rounds.length = items.length ∧ outcome.success = true ∧ ∃ message,
      outcome.result = summary false message (.list (rounds.map (·.result.slot)))
  /-- Otherwise the repeat has stopped at the first error, and tells of it. -/
  stopped : config.continueOnError = false → (∃ r ∈ rounds, r.result.success = false) →
    ∃ earlier last item message, rounds = earlier ++ [last] ∧
      (∀ r ∈ earlier, r.result.success = true) ∧ last.result.success = false ∧
      items[earlier.length]? = some item ∧ outcome.success = false ∧
      outcome.result = summary true message (.mapping
        [("results", .list (earlier.map (·.result.result))),
          ("errors", .list [last.result.errorEntry earlier.length item]),
          ("stoppedAt", .int earlier.length)])

/-- All of this follows from the iterations from the first one on. -/
theorem Iterated.repeated {call : Call} {config : RepeatConfig} {source : RepeatSource}
    {items : List Value} {ctx : Context} {w left : World} {rounds : List (Round Outcome)}
    {outcome : Outcome}
    (h : call.Iterated config source items.length items 0 ctx {} w rounds outcome left) :
    call.Repeated config source items ctx w rounds outcome left where
  follow := h.follow
  ran := h.ran
  attempts := by
    have hstart : ({} : Tally).attempts + (rounds.map (·.result.attempts)).sum =
        (rounds.map (·.result.attempts)).sum := Nat.zero_add _
    rcases h.ending with ⟨_, _, _, _, hfinished⟩ | ⟨_, _, _, _, _, _, _, _, hstopped⟩
    · rw [hfinished]
      exact hstart
    · rw [hstopped]
      exact hstart
  slots := by
    intro r hr
    obtain ⟨i, hi⟩ := List.getElem?_of_mem hr
    obtain ⟨item, _, hrun⟩ := h.ran i r hi
    obtain ⟨answer, n, hanswer⟩ := (call.run_answers _ _).of_ok hrun
    rw [hanswer]
    exact Outcome.slot_eq_null_iff (Outcome.ofAnswer_mapping answer)
  finished := by
    intro hall
    rcases h.ending with ⟨hlength, _, errors, _, hfinished⟩ |
      ⟨hconfig, earlier, last, _, rfl, _, hlast, _, _⟩
    · rw [hfinished]
      exact ⟨hlength, rfl, _, rfl⟩
    · rcases hall with hcontinue | hall
      · rw [hconfig] at hcontinue
        cases hcontinue
      · have hsuccess := hall last (List.mem_append_right _ List.mem_cons_self)
        rw [hlast] at hsuccess
        cases hsuccess
  stopped := by
    rintro hconfig ⟨r, hr, hfailed⟩
    rcases h.ending with ⟨_, hall, _⟩ |
      ⟨_, earlier, last, item, hrounds, hearlier, hlast, hitem, hstopped⟩
    · rcases hall with hcontinue | hall
      · rw [hconfig] at hcontinue
        cases hcontinue
      · rw [hall r hr] at hfailed
        cases hfailed
    · have hslots : earlier.map (·.result.slot) = earlier.map (·.result.result) :=
        List.map_congr_left fun r hr => if_pos (hearlier r hr)
      rw [hslots, Nat.zero_add] at hstopped
      rw [hstopped]
      exact ⟨earlier, last, item, _, hrounds, hearlier, hlast, hitem, rfl, rfl⟩

/-- A context with three orders. -/
def threeOrders : Context := { vars := [("orders", .list [.int 7, .int 8, .int 9])] }

end Call

end StepGraph
