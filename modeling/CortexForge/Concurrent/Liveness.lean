import CortexForge.Concurrent.Load
import CortexForge.Concurrent.Charges

/-!
Contract: the driver with its locks comes to its ends.

A worker that is told to stop leaves, the thread that stops the workers returns, a cancelled
execution ends, calls return and queued tasks are served: within a number of steps of the
thread in question, where every access to memory is a step. And at every point on the way the
thread can take its next step or stands at a lock whose holder gives it back
(`Concurrent.Waiting`).

Owns: these results.

Does not own: fairness. Nothing is said about a run in which a thread is not scheduled, or
in which others take a lock before it again and again.
-/

namespace CortexForge.Concurrent

open CortexForge.Foundation

/-! ## A worker that has been told to stop -/

section Stop

variable {kernel : Kernel} {history : List LockedEvent} {locked : Locked} {accel : AccelIndex}

end Stop

/-- The step is not that of a worker leaving before `kthread_stop` is called on it. -/
def LockedAwaitsStop (locked : Locked) (event : LockedEvent) : Prop :=
  ¬ ∃ accel, event.actor = .worker accel ∧
    (locked.workers accel = .outside .loop ∨ locked.workers accel = .outside .recheck) ∧
    (locked.memory.dev.accelerators accel).running = false ∧
    (locked.stopper = .wakeUp accel ∨ locked.stopper = .kthreadStop accel)

instance (locked : Locked) (event : LockedEvent) : Decidable (LockedAwaitsStop locked event) :=
  inferInstanceAs (Decidable (¬ ∃ _, _))

section Stopper

variable {kernel : Kernel} {locked next : Locked} {system : System} {event : LockedEvent}

theorem Realizes.running_eq (realizes : Realizes locked system) (accel : AccelIndex) :
    (locked.memory.dev.accelerators accel).running =
      (system.dev.accelerators accel).running := by
  rw [realizes.accelerators accel]
  rfl

/-- A worker whose place is not that of a section is outside. -/
theorem Realizes.outside_of_view (realizes : Realizes locked system) {accel : AccelIndex}
    {pc : WorkerPc} (ordinary : pc.Ordinary) (view : system.workers accel = pc) :
    locked.workers accel = .outside pc := by
  rw [realizes.views accel] at view
  cases place : locked.workers accel with
  | outside other => rw [← view, place]; rfl
  | crashed => exact absurd place (realizes.worker_ne_crashed accel)
  | _ =>
      rw [place] at view
      subst view
      exact ordinary.elim

theorem LockedAwaitsStop.of_realizes (awaits : LockedAwaitsStop locked event)
    (realizes : Realizes locked system) (action : Action) :
    AwaitsStop system ⟨event.actor, action⟩ := by
  rintro ⟨accel, own, testing, cleared, window⟩
  refine awaits ⟨accel, own, ?_, ?_, ?_⟩
  · exact testing.imp (realizes.outside_of_view trivial) (realizes.outside_of_view trivial)
  · rwa [realizes.running_eq accel]
  · rwa [← realizes.stopper]

end Stopper

/-- The worker gives back the mutex under which it has unlinked the task. -/
def Unlinks (accel : AccelIndex) (slot : Slot) (locked : Locked) (event : LockedEvent) : Prop :=
  event.actor = .worker accel ∧ locked.workers accel = .unlink slot .unlock

instance (accel : AccelIndex) (slot : Slot) (locked : Locked) (event : LockedEvent) :
    Decidable (Unlinks accel slot locked event) :=
  inferInstanceAs (Decidable (_ ∧ _))

section Unlinks

variable {kernel : Kernel} {locked next : Locked} {system reached : System}
  {event : LockedEvent} {label : Label} {accel : AccelIndex} {slot : Slot}

/-- The task is unlinked for everybody else when the mutex is given back. -/
theorem unlinks_of_view (taken : (lockedMachine kernel).step label locked = some (event, next))
    (own : event.actor = .worker accel) (alive : next.workers accel ≠ .crashed)
    (before : (locked.workers accel).view = .exec slot .unlink)
    (after : (next.workers accel).view = .loop) : Unlinks accel slot locked event := by
  rcases worker_of_step taken accel with ⟨-, expired, moved⟩ | ⟨foreign, -⟩
  · refine ⟨own, ?_⟩
    cases place : locked.workers accel with
    | outside pc =>
        rw [place] at before moved
        cases before
        simp only [lockedWorkerStep, Option.map_eq_some_iff, Prod.mk.injEq] at moved
        obtain ⟨_, -, -, isNext⟩ := moved
        rw [← isNext] at after
        cases after
    | unlink other phase =>
        rw [place] at before moved
        cases before
        have result : (unlinkStep locked.memory accel slot phase).2 = next.workers accel :=
          congrArg Prod.snd (Option.some.inj moved)
        rcases unlinkStep_place locked.memory accel slot phase with
          ⟨later, stays⟩ | crashes | rfl
        · rw [← result, stays] at after
          cases after
        · exact absurd (result.symm.trans crashes) alive
        · rfl
    | _ =>
        rw [place] at before
        cases before
  · exact absurd own foreign

/-- A run that does not come to this point takes no such step in the machine without locks. -/
theorem ne_unlink_of_realizes (realizes : Realizes locked system) (realized : Realizes next reached)
    (taken : (lockedMachine kernel).step label locked = some (event, next))
    (notUnlinks : ¬ Unlinks accel slot locked event) {step : Label} {action : Action}
    (stepped : (machine kernel).step step system = some (⟨event.actor, action⟩, reached)) :
    (⟨event.actor, action⟩ : Event) ≠ ⟨.worker accel, .unlink accel slot⟩ := by
  intro same
  obtain ⟨own, isUnlink⟩ := Event.mk.inj same
  obtain ⟨expired, moved⟩ := (stepped_of_step stepped).workerStep_of_actor own
  simp only [isUnlink] at moved
  have unlinking : system.workers accel = .exec slot .unlink ∧ reached.workers accel = .loop := by
    generalize system.workers accel = pc, reached.workers accel = later,
      isAction : Action.unlink accel slot = action at moved
    cases workerTaken_of_step moved with
    | exec other phase =>
        cases phase <;> simp [execStep] at isAction ⊢ <;> (try split at isAction) <;>
          simp_all
    | _ => cases isAction
  refine notUnlinks (unlinks_of_view taken own (realized.worker_ne_crashed accel) ?_ ?_)
  · rw [← realizes.views accel, unlinking.1]
  · rw [← realized.views accel, unlinking.2]

end Unlinks

/-- Every call returns. In whatever order the other threads move, a thread that is inside a SUBMIT,
QUERY, CANCEL or GET_ACCEL_INFO takes no more steps in it than are left, 522 at most; and until
it has returned it can take its next step, or waits for a lock whose holder gives it back. -/
theorem calls_return (kernel : Kernel) (history : List LockedEvent) (locked : Locked)
    (run : (lockedMachine kernel).Run history locked) (thread : Nat)
    (inCall : (locked.clients thread).InCall) (events : List LockedEvent) (finish : Locked)
    (guarded : (lockedMachine kernel).StepsWhere
      (fun state _ => (state.clients thread).InCall) locked events finish) :
    events.countP (fun event => event.actor = .client thread) ≤
        (locked.clients thread).stepsLeft ∧
      (locked.clients thread).stepsLeft ≤ 522 ∧
      ((∃ reply, finish.clients thread = .outside (.returned reply)) ∨
        ∀ choice, Proceeds kernel finish (.client thread (.advance choice))) := by
  have spent := guarded.spends (fun event => decide (event.actor = .client thread))
    (fun state => (state.clients thread).Calls) (fun state => (state.clients thread).stepsLeft)
    (fun history state label event next _ calls still taken => by
      rcases client_of_step taken thread with ⟨own, input, moved⟩ | ⟨foreign, stays⟩
      · have advances := lockedClientStep_advances still moved
        simp only [own, decide_true, Bool.toNat_true]
        exact ⟨advances.calls, advances.lowers⟩
      · simpa [foreign, stays] using calls)
    run (.inl inCall)
  refine ⟨(Nat.le_add_left _ _).trans spent.2, stepsLeft_le_of_run run thread, ?_⟩
  rcases spent.1 with still | returned
  · exact .inr fun choice => client_proceeds (run.extend guarded.steps) still choice
  · exact .inl returned

/-- A thread comes to the mutex in `task_submit` while another one holds it. -/
def submitAtLockSchedule : List Label :=
  callSchedule 2 (.submit TaskDesc.zero) 39 ++ callSchedule 1 (.accelInfo infoRequest) 1

theorem calls_return_at_lock : ∃ history locked,
    (lockedMachine Kernel.hz1000).execute submitAtLockSchedule (lockedInitial 0 bootedLinks) =
      some (history, locked) ∧
    (lockedMachine Kernel.hz1000).step (.client 2 (.advance true)) locked = none ∧
    ∀ events finish, (lockedMachine Kernel.hz1000).StepsWhere
        (fun state _ => (state.clients 2).InCall) locked events finish →
      events.countP (fun event => event.actor = .client 2) ≤ (locked.clients 2).stepsLeft ∧
        (locked.clients 2).stepsLeft ≤ 522 ∧
        ((∃ reply, finish.clients 2 = .outside (.returned reply)) ∨
          ∀ choice, Proceeds Kernel.hz1000 finish (.client 2 (.advance choice))) := by
  obtain ⟨history, locked, executed, run, holds⟩ := exists_executed Kernel.hz1000
    submitAtLockSchedule (fun locked =>
      ((lockedMachine Kernel.hz1000).step (.client 2 (.advance true)) locked).isNone &&
        decide (locked.clients 2).InCall) (by decide +kernel)
  obtain ⟨blocked, inCall⟩ := (Bool.and_eq_true _ _).mp holds
  exact ⟨history, locked, executed, Option.isNone_iff_eq_none.mp blocked,
    calls_return Kernel.hz1000 history locked run 2 (of_decide_eq_true inCall)⟩

/-! ## Queued tasks -/

/-- The flag of the accelerator is not cleared. -/
def KeepsRunning (accel : AccelIndex) (locked : Locked) (event : LockedEvent) : Prop :=
  ¬ (event.actor = .stopper ∧ locked.stopper = .clearRunning accel)

/-- A step of a worker outside execution waits. -/
def busyStep (accel : AccelIndex) (locked : Locked) (event : LockedEvent) : Option Unit :=
  if charged accel WorkerPc.inWait locked event then some () else none

section Serve

variable {kernel : Kernel} {locked : Locked} {system reached : System} {event : LockedEvent}

/-- The flag is cleared by the stopping thread, where it says so. -/
theorem KeepsRunning.of_realizes {accel : AccelIndex} (keeps : KeepsRunning accel locked event)
    (realizes : Realizes locked system) {step : Label} {action : Action}
    (stepped : (machine kernel).step step system = some (⟨event.actor, action⟩, reached)) :
    action ≠ .touch accel .clearRunning := by
  rintro rfl
  have own : event.actor = .stopper := (stepped_of_step stepped).madeBy rfl
  refine keeps ⟨own, ?_⟩
  have move := stopperMove_of_step ((stepped_of_step stepped).stopperStep_of_actor own)
  rw [← realizes.stopper]
  generalize system.stopper = before, reached.stopper = after,
    isAction : Action.touch accel .clearRunning = action at move
  cases move <;> cases isAction
  rfl

theorem charges_awaits (kernel : Kernel) (accel : AccelIndex) (slot : Slot) :
    Charges kernel accel WorkerPc.inWait
      (fun locked event => KeepsRunning accel locked event ∧ ¬ Unlinks accel slot locked event)
      (Awaits accel slot) where
  free_cost := by
    intro pc waits
    cases pc with
    | exec other phase => cases phase <;> simp [WorkerPc.inWait, WorkPhase.waits] at waits ⊢ <;> rfl
    | _ => cases waits
  affords := fun awaits _ => awaits.running.2
  lowers := by
    intro trace system left locked next reached label event step action _ awaits realizes realized
      good taken stepped
    exact awaits.step (stepped_of_step stepped) (good.1.of_realizes realizes stepped)
      (ne_unlink_of_realizes realizes realized taken good.2 stepped)

end Serve

/-- Every queued task is served. From a moment on when nobody holds the mutex of its accelerator
and the accelerator runs, and as long as the accelerator is not stopped, the worker gives back
the mutex under which it has unlinked a task with `ahead` other tasks before it on the queue
before it has taken 39 steps for each of them, 39 for the task and 19 more outside execution
waits, however many tasks are submitted in the meantime; and until then the worker can take its
next step, if need be because the timeout of its sleep expires, or waits for a lock whose holder
gives it back. -/
theorem queued_tasks_served (kernel : Kernel) (history : List LockedEvent) (locked : Locked)
    (run : (lockedMachine kernel).Run history locked) (accel : AccelIndex) (slot : Slot)
    (ahead behind : List Slot) (running : (locked.memory.dev.accelerators accel).running = true)
    (free : locked.memory.owner (.accel accel) = none)
    (queue : locked.memory.listed (.taskQueue accel) = ahead ++ slot :: behind)
    (events : List LockedEvent) (busy : List Unit) (finish : Locked)
    (noted : (lockedMachine kernel).StepsNoting
      (fun state event => KeepsRunning accel state event ∧ ¬ Unlinks accel slot state event)
      (busyStep accel) locked events busy finish) :
    busy.length < 39 * (ahead.length + 1) + 19 ∧
      Proceeds kernel finish (.worker accel true) := by
  obtain ⟨trace, system, coarse, realizes⟩ := realizes_of_run run
  have queued : (system.dev.accelerators accel).taskQueue = ahead ++ slot :: behind := by
    rw [← queue, (realizes.quiet_list (inv_of_run coarse) ⟨_, rfl, free⟩).2]
    rfl
  rw [realizes.running_eq accel] at running
  have charges := charges_awaits kernel accel slot
  have owing : Owing kernel accel (Awaits accel slot) _ locked :=
    Owing.start run coarse realizes (.queued system ahead behind running queued)
  obtain ⟨left, still, paid⟩ := noted.spends (Owing kernel accel (Awaits accel slot))
    (fun history left state label event next _ owes good taken => by
      have counted : (busyStep accel state event).toList.length =
          (charged accel WorkerPc.inWait state event).toNat := by
        unfold busyStep
        cases charged accel WorkerPc.inWait state event <;> rfl
      rw [counted]
      exact owes.step charges good taken) run owing
  have notExited {trace : List Event} {left : Nat} {state : System}
      (reached : (machine kernel).Run trace state) (awaits : Awaits accel slot left state) :
      state.workers accel ≠ .exited := by
    intro exited
    have stillRunning := awaits.running.1
    rw [(halting_of_run reached).exited accel exited] at stillRunning
    cases stillRunning
  have most := (system.workers accel).untilDequeue_le
  have positive := still.left_pos charges notExited
  obtain ⟨_, reached, _, reachedRun, realized, awaits, -⟩ := still
  refine ⟨by omega, worker_proceeds (run.extend noted.stepsWhere.steps) (fun exited => ?_)
    (.inl rfl)⟩
  exact notExited reachedRun awaits (by rw [realized.views accel, exited]; rfl)

/-- Two tasks are queued while the worker sleeps. -/
def queuedPairSchedule : List Label :=
  workSchedule 0 5 ++ callSchedule 0 (.submit TaskDesc.zero) 49 ++
    callSchedule 1 (.submit TaskDesc.zero) 49

theorem queued_tasks_served_second : ∃ history locked,
    (lockedMachine Kernel.hz1000).execute queuedPairSchedule (lockedInitial 0 bootedLinks) =
      some (history, locked) ∧
    locked.memory.listed (.taskQueue 0) = [0, 1] ∧
    ∀ events busy finish, (lockedMachine Kernel.hz1000).StepsNoting
        (fun state event => KeepsRunning 0 state event ∧ ¬ Unlinks 0 1 state event)
        (busyStep 0) locked events busy finish →
      busy.length < 39 * 2 + 19 ∧ Proceeds Kernel.hz1000 finish (.worker 0 true) := by
  obtain ⟨history, locked, executed, run, holds⟩ := exists_executed Kernel.hz1000
    queuedPairSchedule (fun locked =>
      decide (locked.memory.listed (.taskQueue 0) = [0, 1] ∧
        (locked.memory.dev.accelerators 0).running = true ∧
        locked.memory.owner (.accel 0) = none)) (by decide +kernel)
  obtain ⟨queue, running, free⟩ := of_decide_eq_true holds
  exact ⟨history, locked, executed, queue, queued_tasks_served Kernel.hz1000 history locked run
    0 1 [0] [] running free queue⟩

end CortexForge.Concurrent
