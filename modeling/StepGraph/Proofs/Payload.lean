import StepGraph.Proofs.Attempts
import StepGraph.Proofs.Dependence

/-!
# The payload of a dispatch

What is dispatched is the block of a step as it is resolved in the context at hand or in that of an
iteration. A block is resolved as a whole, and so a block with a key of a binding is itself one: it
is replaced by what it is bound to, which need not have its keys and need not be a mapping at all.
Every other block keeps its keys.
-/

namespace StepGraph

/-- A mapping with the keys of a block and no others. -/
def Value.HasKeysOf (v : Value) (block : List (String × Value)) : Prop :=
  ∃ entries, v = .mapping entries ∧ ∀ key, Entries.hasKey entries key = Entries.hasKey block key

/-- A block that is no binding keeps its keys. -/
theorem Template.resolve_hasKeysOf {block : List (String × Value)} (h : isBinding block = false)
    (ctx : Context) : (resolve ctx (.mapping block)).HasKeysOf block := by
  have hkeys : (resolveEntries ctx block).map (·.1) = block.map (·.1) := by
    rw [resolveEntries_eq_map, List.map_map]
    exact List.map_congr_left fun _ _ => rfl
  refine ⟨resolveEntries ctx block, ?_, fun key => ?_⟩
  · rw [resolve, h, if_neg Bool.false_ne_true]
  · rw [Bool.eq_iff_iff, Entries.hasKey_iff_mem, Entries.hasKey_iff_mem, hkeys]

/-- A block that is a binding is replaced by what it is bound to. -/
theorem Template.resolve_binding {block : List (String × Value)} (h : isBinding block = true)
    (ctx : Context) : resolve ctx (.mapping block) = resolveBinding block ctx := by
  rw [resolve, h, if_pos rfl]

/-- An action all of whose dispatches are of a kind. -/
def Act.Sends {α : Type} (Kind : Dispatch → Prop) (action : Act α) : Prop :=
  ∀ w, Adds Kind w.dispatches (action w).2.dispatches

namespace Act.Sends

variable {α β : Type} {Kind : Dispatch → Prop}

/-- An action that dispatches nothing. -/
theorem of_quiet {action : Act α} (h : ∀ w, (action w).2.dispatches = w.dispatches) :
    Sends Kind action := fun w => (h w).symm ▸ Adds.refl _

/-- One action after another. -/
theorem bind {first : Act α} {next : α → Act β} (hfirst : Sends Kind first)
    (hnext : ∀ a, Sends Kind (next a)) : Sends Kind (first >>= next) := by
  intro w
  have hgrows := hfirst w
  cases h : first w with
  | mk result after =>
    rw [h] at hgrows
    cases result with
    | ok a =>
      rw [bind_ok h]
      exact hgrows.trans (hnext a after)
    | error fault =>
      rw [bind_error h]
      exact hgrows

/-- What a run does besides its attempts dispatches nothing. -/
theorem congruence (Kind : Dispatch → Prop) :
    Act.Congruence fun _ action _ => Act.Sends Kind action where
  pure := fun _ => of_quiet fun _ => rfl
  stop := fun _ => of_quiet fun _ => rfl
  bind := bind
  timestamp := of_quiet fun w => by
    unfold Act.timestamp
    cases Timestamp.ofReading w.now <;> rfl
  sleep := fun seconds => of_quiet fun w => by
    obtain ⟨_, _, _, h⟩ := w.sleep_eq seconds
    change (w.sleep seconds).dispatches = _
    rw [h]
  askRetry := fun _ _ => of_quiet fun _ => rfl
  enterStep := fun _ _ _ => of_quiet fun _ => rfl
  leaveRepeat := of_quiet fun _ => rfl

end Act.Sends

/-- The dispatches of a block for a surface: what it is resolved to in some context. -/
def Dispatch.Fills (resolver : Resolver) (block : List (String × Value)) (surface : Value)
    (d : Dispatch) : Prop :=
  d.surface = surface ∧ ∃ ctx, resolver ctx (.mapping block) = .ok d.payload

namespace Call

variable (call : Call)

/-- An attempt dispatches the block as it is resolved. -/
theorem attempt_sends (ctx : Context) :
    (call.attempt ctx).Sends (Dispatch.Fills call.resolver call.block call.surface) := by
  intro w
  unfold attempt
  cases hpayload : call.resolver ctx (.mapping call.block) with
  | error raised => exact Adds.refl _
  | ok payload =>
    have hsent := w.dispatch_dispatches call.executor ⟨payload, call.surface⟩ call.timeoutMs
    have hgrows : Adds (Dispatch.Fills call.resolver call.block call.surface) w.dispatches
        (w.dispatch call.executor ⟨payload, call.surface⟩ call.timeoutMs).2.dispatches :=
      hsent ▸ (Adds.refl _).cons ⟨rfl, ctx, hpayload⟩
    dsimp only
    cases hanswer : w.dispatch call.executor ⟨payload, call.surface⟩ call.timeoutMs with
    | mk answer after =>
      rw [hanswer] at hgrows
      cases answer <;> exact hgrows

/-- So does every further one. -/
theorem attempts_sends (ctx : Context) (more failed : Nat) :
    (call.attempts ctx more failed).Sends
      (Dispatch.Fills call.resolver call.block call.surface) := by
  have hrest := Act.Sends.congruence (Dispatch.Fills call.resolver call.block call.surface)
  induction more generalizing failed with
  | zero => exact (call.attempt_sends ctx).bind fun _ => hrest.pure _
  | succ more ih =>
    refine (call.attempt_sends ctx).bind fun tried => ?_
    dsimp only
    split
    · exact hrest.pure _
    · exact Act.Sends.bind (hrest.retryPause call _) fun _ => ih _

/-- So do the iterations of a repeat. -/
theorem iterations_sends (config : RepeatConfig) (source : RepeatSource) (total : Nat)
    (items : List Value) (index : Nat) (ctx : Context) (tally : Tally) :
    (call.iterations config source total items index ctx tally).Sends
      (Dispatch.Fills call.resolver call.block call.surface) := by
  have hrest := Act.Sends.congruence (Dispatch.Fills call.resolver call.block call.surface)
  induction items generalizing index ctx tally with
  | nil => exact hrest.pure _
  | cons item rest ih =>
    unfold iterations
    refine (call.attempts_sends _ _ _).bind fun outcome => ?_
    dsimp only
    split
    · exact Act.Sends.bind (hrest.repeatPause config _) fun _ => ih _ _ _
    · split
      · exact Act.Sends.bind (hrest.repeatPause config _) fun _ => ih _ _ _
      · exact hrest.pure _

/-- And so does a repeat, if it can start. -/
theorem repeated_sends (config : RepeatConfig) (ctx : Context) :
    (call.repeated config ctx).Sends (Dispatch.Fills call.resolver call.block call.surface) := by
  have hrest := Act.Sends.congruence (Dispatch.Fills call.resolver call.block call.surface)
  unfold repeated
  split
  · exact hrest.pure _
  · split
    · exact hrest.pure _
    · exact (call.iterations_sends _ _ _ _ _ _ _).bind fun _ =>
        Act.Sends.bind hrest.leaveRepeat fun _ => hrest.pure _

end Call

namespace Stage

variable (stage : Stage) {step : Step} {block : List (String × Value)}

/-- All that a step dispatches is its block as it is resolved. -/
theorem execute_sends (hblock : step.block = some block) (ctx : Context) :
    (stage.execute step ctx).Sends (Dispatch.Fills stage.resolver block stage.surface) := by
  have hrest := Act.Sends.congruence (Dispatch.Fills stage.resolver block stage.surface)
  have hwork : (stage.work step ctx).Sends
      (Dispatch.Fills stage.resolver block stage.surface) := by
    unfold work
    split
    · exact hrest.pure _
    · rename_i found hdue
      have hfound : found = block := by
        unfold due? at hdue
        split at hdue
        · rw [hblock] at hdue
          exact (Option.some.inj hdue).symm
        · cases hdue
      subst hfound
      split
      · exact ((stage.call step found).repeated_sends _ ctx).bind fun _ => hrest.pure _
      · exact ((stage.call step found).attempts_sends ctx _ _).bind fun _ => hrest.pure _
  unfold execute
  refine Act.Sends.bind hrest.timestamp fun _ => ?_
  refine hwork.bind fun _ => ?_
  exact Act.Sends.bind hrest.timestamp fun _ => hrest.pure _

/-- A step that has a block and nothing else dispatches it once. -/
theorem execute_plain {payload : Value} {ctx : Context} {w : World}
    (hpayload : stage.resolver ctx (.mapping block) = .ok payload)
    (hstarted : (Timestamp.ofReading w.now).isOk = true) :
    (stage.execute { block := some block } ctx w).2.dispatches =
      ⟨payload, stage.surface⟩ :: w.dispatches := by
  suffices hends : (stage.execute { block := some block } ctx).Ends w
      (fun _ after => after.dispatches = ⟨payload, stage.surface⟩ :: w.dispatches)
      (fun _ after => after.dispatches = ⟨payload, stage.surface⟩ :: w.dispatches) from
    (Act.ends_world _).mp hends
  have hwork : stage.work { block := some block } ctx =
      (stage.call { block := some block } block).run ctx >>= fun outcome =>
        pure (false, outcome, ctx) := rfl
  have hsent : ((stage.call { block := some block } block).run ctx w).2.dispatches =
      ⟨payload, stage.surface⟩ :: w.dispatches := by
    have hrun : (stage.call { block := some block } block).run ctx =
        (stage.call { block := some block } block).attempt ctx >>= fun tried =>
          pure { tried with attempts := 1 } := rfl
    rw [hrun, Act.bind_ok (Call.attempt_eq hpayload w)]
    exact w.dispatch_dispatches _ _ _
  unfold execute
  rw [Act.ends_bind]
  refine Act.ends_timestamp (fun _ _ => ?_) (fun fault hfault => ?_)
  · rw [Act.ends_bind, hwork, Act.ends_bind]
    refine ((Act.ends_world _).mpr hsent).imp (fun outcome after hafter => ?_) (fun _ _ => id)
    rw [Act.ends_pure, Act.ends_bind]
    exact Act.ends_timestamp (fun _ _ => hafter) (fun _ _ => hafter)
  · rw [hfault] at hstarted
    cases hstarted

end Stage

/-- A dispatch that was added is one since then. -/
theorem World.mem_dispatchesSince {w after : World} {d : Dispatch}
    (h : after.dispatches = d :: w.dispatches) : d ∈ after.dispatchesSince w := by
  have hsince : after.dispatchesSince w = [d] := by
    unfold dispatchesSince
    rw [h]
    exact entriesSince_append w.dispatches [d]
  rw [hsince]
  exact List.mem_cons_self

/-- The payload of a dispatch has the keys of its block, whatever the step, the context and the
executor are, exactly if the block is no binding or is bound to a mapping with its own keys in every
context. -/
theorem execute_keepsKeys_iff (block : List (String × Value)) :
    (∀ (executor : Executor) (surface : Value) (step : Step) (ctx : Context) (w : World),
      step.block = some block →
        ∀ d ∈ (Stage.execute { executor, surface } step ctx w).2.dispatchesSince w,
          d.payload.HasKeysOf block) ↔
      (Template.isBinding block = true →
        ∀ ctx, (Template.resolveBinding block ctx).HasKeysOf block) := by
  constructor
  · intro hkeeps hbinding ctx
    have hstarted : (Timestamp.ofReading ({} : World).now).isOk = true := by decide +kernel
    have hpayload : Stage.willing.resolver ctx (.mapping block) =
        .ok (Template.resolve ctx (.mapping block)) := rfl
    have hsent := Stage.willing.execute_plain hpayload hstarted
    have hmem : ⟨Template.resolve ctx (.mapping block), .null⟩ ∈
        (Stage.willing.execute { block := some block } ctx {}).2.dispatchesSince {} :=
      World.mem_dispatchesSince hsent
    rw [← Template.resolve_binding hbinding]
    exact hkeeps Stage.willing.executor .null { block := some block } ctx {} rfl _ hmem
  · intro hbound executor surface step ctx w hblock d hd
    have hsends := Stage.execute_sends { executor, surface } hblock ctx w
    obtain ⟨_, inside, hfills⟩ := hsends.since hd
    have hpayload : Template.resolve inside (.mapping block) = d.payload := Except.ok.inj hfills
    rw [← hpayload]
    cases hbinding : Template.isBinding block with
    | true =>
      rw [Template.resolve_binding hbinding]
      exact hbound hbinding inside
    | false => exact Template.resolve_hasKeysOf hbinding inside

/-- A block with a name and a template among its parameters. -/
def greeting : List (String × Value) := [("name", .text "x"), ("template", .text "hi")]

/-- Its template is dispatched alone, which is no mapping. -/
theorem greeting_loses_keys :
    ∃ d ∈ (Stage.willing.execute { block := some greeting } {} {}).2.dispatchesSince {},
      d.payload = .text "hi" ∧ ¬ d.payload.HasKeysOf greeting := by
  have hstarted : (Timestamp.ofReading ({} : World).now).isOk = true := by decide +kernel
  have hpayload : Resolver.template {} (.mapping greeting) = .ok (.text "hi") := by
    have hresolved : Template.resolve {} (.mapping greeting) = .text "hi" := by cbv
    exact congrArg Except.ok hresolved
  have hsent := Stage.willing.execute_plain hpayload hstarted
  refine ⟨⟨.text "hi", .null⟩, World.mem_dispatchesSince hsent, rfl, ?_⟩
  rintro ⟨_, hmapping, _⟩
  cases hmapping

end StepGraph
