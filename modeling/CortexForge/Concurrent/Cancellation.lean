import CortexForge.Concurrent.Lookup

/-!
Contract: what becomes of a cancelled task.

`task_cancel` stores CANCELLED and `-ECANCELED` into the slot and leaves it on the
queue of its accelerator. The worker never looks at the state before it stores
RUNNING, nor before it stores COMPLETE, so either store undoes the cancellation.

Owns: durable cancellation as a property of runs, the side condition under which
it holds, and the run in which it does not.
-/

namespace CortexForge.Concurrent

open CortexForge.Foundation

/-- The event is a worker's store of a state into a CANCELLED slot. -/
def overwritesCancelled (system : System) : Event → Bool
  | ⟨.worker _, .store slot (.state _)⟩ => (system.dev.tasks slot).state == .cancelled
  | _ => false

/-- The step does not overwrite a cancellation. -/
def NoOverwrite (system : System) (event : Event) : Prop :=
  overwritesCancelled system event = false

instance (system : System) (event : Event) : Decidable (NoOverwrite system event) :=
  inferInstanceAs (Decidable (_ = _))

/-- A CANCEL that meets a PENDING or RUNNING task is durable: from its store on,
in every continuation whose steps are `Good`, the slot reads CANCELLED, and once
the call has returned 0 it holds `-ECANCELED`. The signal is the last step of the
call before it returns. -/
def DurableCancel (kernel : Kernel) (Good : System → Event → Prop) : Prop :=
  ∀ trace system thread taskId slot input event next events finish,
    (machine kernel).Run trace system →
    system.clients thread = .cancel taskId (.writeState slot) →
    (system.dev.tasks slot).state = .pending ∨ (system.dev.tasks slot).state = .running →
    (machine kernel).step (.client thread input) system = some (event, next) →
    (machine kernel).StepsWhere Good next events finish →
    (finish.dev.tasks slot).state = .cancelled ∧
      (⟨.client thread, .store slot .done⟩ ∈ events →
        (finish.dev.tasks slot).errorCode = ecanceledCode)

/-! ## The invariant of a cancelled task -/

/-- The owner of a slot has brought it no further than RUNNING. -/
def Unfinished (life : Life) : Prop :=
  life.point.state = .pending ∨ life.point.state = .running

/-- A cancelled slot whose owner has not completed it stays so, unless the owner
stores a state. -/
theorem Enabled.keeps_cancelled {slot : Slot} {life : Life} {event : Event} {task : Task}
    (enabled : Enabled slot life event) (about : event.action.slot? = some slot)
    (unfinished : Unfinished life) (cancelled : task.state = .cancelled)
    (noStore : ∀ accel value, event ≠ ⟨.worker accel, .store slot (.state value)⟩) :
    Unfinished (life.advance event) ∧ (event.action.onTask task).state = .cancelled ∧
      ((event.action.onTask task).errorCode = task.errorCode ∨
        (event.action.onTask task).errorCode = ecanceledCode) := by
  unfold Unfinished at unfinished ⊢
  cases enabled with
  | elsewhere _ other => exact absurd about other
  | run accel point => exact absurd rfl (noStore accel _)
  | complete accel point => exact absurd rfl (noStore accel _)
  | cancelState thread visible => exact ⟨unfinished, rfl, Or.inl rfl⟩
  | cancelError thread visible => exact ⟨unfinished, cancelled, Or.inr rfl⟩
  | cancelDone thread visible => exact ⟨unfinished, cancelled, Or.inl rfl⟩
  | stamp thread now point => exact ⟨Or.inl rfl, cancelled, Or.inl rfl⟩
  | enqueue thread accel point target => exact ⟨Or.inl rfl, cancelled, Or.inl rfl⟩
  | dequeue accel point => exact ⟨Or.inl rfl, cancelled, Or.inl rfl⟩
  | time accel now point => exact ⟨Or.inr rfl, cancelled, Or.inl rfl⟩
  | _ => simp_all [Point.state]

/-- Where the cancelling call stands: it has not stored the error code yet, or
the slot holds it. -/
def ErrorPending (thread : Nat) (taskId : UInt32) (slot : Slot) (since : List Event)
    (system : System) : Prop :=
  (system.clients thread = .cancel taskId (.writeError slot) ∧
      ⟨.client thread, .store slot .done⟩ ∉ since) ∨
    (system.dev.tasks slot).errorCode = ecanceledCode

/-- One step keeps a cancellation. -/
theorem cancelled_step {kernel : Kernel} {history since : List Event} {system next : System}
    {event : Event} {thread : Nat} {taskId : UInt32} {slot : Slot} (inv : Inv history system)
    (stepped : Stepped kernel system event next) (good : NoOverwrite system event)
    (unfinished : Unfinished (ledger history slot))
    (cancelled : (system.dev.tasks slot).state = .cancelled)
    (pending : ErrorPending thread taskId slot since system) :
    Unfinished (ledger (history ++ [event]) slot) ∧
      (next.dev.tasks slot).state = .cancelled ∧
      ErrorPending thread taskId slot (since ++ [event]) next := by
  have noStore (accel : AccelIndex) (value : TaskState) :
      event ≠ ⟨.worker accel, .store slot (.state value)⟩ := by
    intro overwrites
    rw [NoOverwrite, overwrites] at good
    simp [overwritesCancelled, cancelled] at good
  -- The slot itself first.
  have kept : Unfinished (ledger (history ++ [event]) slot) ∧
      (next.dev.tasks slot).state = .cancelled ∧
      ((next.dev.tasks slot).errorCode = (system.dev.tasks slot).errorCode ∨
        (next.dev.tasks slot).errorCode = ecanceledCode) := by
    rw [stepped.dev, Action.apply_tasks]
    by_cases about : event.action.slot? = some slot
    · rw [if_pos about, ledger_of_about about]
      exact (inv.enabled stepped slot).keeps_cancelled about unfinished cancelled noStore
    · rw [if_neg about, ledger_of_elsewhere about]
      exact ⟨unfinished, cancelled, Or.inl rfl⟩
  refine ⟨kept.1, kept.2.1, ?_⟩
  rcases pending with ⟨atError, notYet⟩ | stored
  · by_cases own : event.actor = .client thread
    · -- The call's own next step stores the error code.
      obtain ⟨input, taken⟩ := stepped.clientStep_of_actor own
      rw [atError] at taken
      cases input with
      | call call copied => simp [clientStep] at taken
      | advance choice =>
          simp only [clientStep, cancelStep, Option.some.injEq, Prod.mk.injEq] at taken
          refine Or.inr ?_
          rw [stepped.dev, ← taken.1]
          simp [Action.apply, Store.apply]
    · refine Or.inl ⟨by rw [stepped.clients_of_foreign own, atError], ?_⟩
      intro member
      rcases List.mem_append.mp member with before | isEvent
      · exact notYet before
      · rw [List.mem_singleton] at isEvent
        exact own (by rw [← isEvent])
  · refine Or.inr ?_
    rcases kept.2.2 with same | now
    · rw [same, stored]
    · exact now

/-! ## Durable cancellation -/

/-- Cancellation is durable in every run in which no worker stores a state into a
CANCELLED slot. -/
theorem durableCancel_of_noOverwrite (kernel : Kernel) : DurableCancel kernel NoOverwrite := by
  intro trace system thread taskId slot input event next events finish run atStore
    unfinished taken steps
  obtain ⟨action, pc, moved, rfl, rfl⟩ := step_client_inv taken
  rw [atStore] at moved
  cases input with
  | call call copied => simp [clientStep] at moved
  | advance choice =>
      simp only [clientStep, cancelStep, Option.some.injEq, Prod.mk.injEq] at moved
      obtain ⟨rfl, rfl⟩ := moved
      have inv := inv_of_run run
      have begun : Unfinished (ledger (trace ++
          [⟨.client thread, .store slot (.state .cancelled)⟩]) slot) := by
        rw [ledger_of_about rfl]
        have stored := (inv.facts slot).state
        rcases unfinished with isPending | isRunning
        · rw [isPending] at stored
          exact Or.inl (stored.resolve_right fun cancelled => by cases cancelled.1).symm
        · rw [isRunning] at stored
          exact Or.inr (stored.resolve_right fun cancelled => by cases cancelled.1).symm
      have followed := steps.invariant_since (fun since state =>
        Unfinished (ledger (trace ++ [⟨.client thread, .store slot (.state .cancelled)⟩] ++
            since) slot) ∧
          (state.dev.tasks slot).state = .cancelled ∧
          ErrorPending thread taskId slot since state)
        (run.extend (Machine.Steps.single _ taken))
        ⟨by simpa using begun, by simp [System.moveClient, Action.apply, Store.apply],
          Or.inl ⟨by simp [System.moveClient], List.not_mem_nil⟩⟩ ?_
      · obtain ⟨-, cancelled, pending⟩ := followed
        refine ⟨cancelled, fun signalled => ?_⟩
        exact pending.resolve_left fun notYet => notYet.2 signalled
      · rintro since state label event next reached ⟨unfinished, cancelled, pending⟩ good taken
        rw [← List.append_assoc]
        exact cancelled_step (inv_of_run reached) (stepped_of_step taken) good unfinished
          cancelled pending

/-- A CANCEL is about to store CANCELLED into a queued task. -/
def cancelSchedule : Schedule Kernel.hz1000 (initial 0) where
  labels := callSchedule 0 (.submit TaskDesc.zero) 10 ++ callSchedule 1 (.cancel 1) 2
  enabled := by decide +kernel

theorem cancelSchedule_stores :
    (machine Kernel.hz1000).step (.client 1 (.advance true)) cancelSchedule.final =
      some (⟨.client 1, .store 0 (.state .cancelled)⟩,
        cancelSchedule.final.moveClient 1 (.store 0 (.state .cancelled))
          (.cancel 1 (.writeError 0))) :=
  step_client (by decide +kernel)

/-- The call returns while the worker dequeues the task. -/
def dequeueCancelledSchedule : Schedule Kernel.hz1000
    (cancelSchedule.final.moveClient 1 (.store 0 (.state .cancelled))
      (.cancel 1 (.writeError 0))) where
  labels := workSchedule 0 6 ++ List.replicate 2 (.client 1 (.advance true))
  enabled := by decide +kernel

theorem durableCancel_dequeued :
    (dequeueCancelledSchedule.final.dev.tasks 0).state = .cancelled ∧
      (dequeueCancelledSchedule.final.dev.tasks 0).errorCode = ecanceledCode := by
  have steps := dequeueCancelledSchedule.stepsWhere NoOverwrite (by decide +kernel)
  obtain ⟨cancelled, error⟩ := durableCancel_of_noOverwrite Kernel.hz1000 _ _ 1 1 0 _ _ _ _ _
    cancelSchedule.run (by decide +kernel) (Or.inl (by decide +kernel)) cancelSchedule_stores
    steps
  exact ⟨cancelled, error (by decide +kernel)⟩

/-- The call returns, and the worker takes the task through its round. -/
def runCancelledSchedule : Schedule Kernel.hz1000
    (cancelSchedule.final.moveClient 1 (.store 0 (.state .cancelled))
      (.cancel 1 (.writeError 0))) where
  labels := List.replicate 2 (.client 1 (.advance true)) ++ roundSchedule 0
  enabled := by decide +kernel

/-- Without the side condition a task cancelled before it was started is run,
ends COMPLETE and carries no error. -/
theorem cancelled_task_completes : ¬ DurableCancel Kernel.hz1000 (fun _ _ => True) := by
  intro durable
  have steps := Machine.steps_of_execute runCancelledSchedule.executed
  obtain ⟨cancelled, -⟩ := durable _ _ 1 1 0 _ _ _ _ _ cancelSchedule.run (by decide +kernel)
    (Or.inl (by decide +kernel)) cancelSchedule_stores steps
  have complete : (runCancelledSchedule.final.dev.tasks 0).state = .complete := by
    decide +kernel
  rw [complete] at cancelled
  cases cancelled

end CortexForge.Concurrent
