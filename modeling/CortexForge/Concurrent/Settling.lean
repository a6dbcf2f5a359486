import CortexForge.Concurrent.Lookup

/-!
Contract: the state and the error code of a task that its worker has finished.

`task_cancel` stores CANCELLED and then `-ECANCELED`; the worker stores COMPLETE
and then 0. Neither looks at what the other has stored and no lock spans a pair,
so the second store of one can meet the first store of the other.

Owns: agreement of the two fields as a property of runs, the two steps that break
it, and the run in which it breaks.
-/

namespace CortexForge.Concurrent

open CortexForge.Foundation

/-- The two fields tell the same outcome. -/
def Agrees (task : Task) : Prop :=
  (task.state = .complete ∧ task.errorCode = 0) ∨
    (task.state = .cancelled ∧ task.errorCode = ecanceledCode)

/-- A CANCEL call for the task in a slot is in progress: it was given the task's
id, or its scan has come to the slot. -/
def CancelInProgress (system : System) (slot : Slot) : Prop :=
  ∃ thread taskId phase, system.clients thread = .cancel taskId phase ∧
    (taskId = (system.dev.tasks slot).id ∨ phase.lookup = .found slot)

/-- Every task that its worker has unlinked and that no CANCEL is working on has
an agreeing pair of state and error code. -/
def SettledAgree (trace : List Event) (system : System) : Prop :=
  ∀ slot ∈ retiredSlots trace, ¬ CancelInProgress system slot → Agrees (system.dev.tasks slot)

/-- The event is the second store of one writer over the first store of the
other: the worker clears the code of a CANCELLED task whose cancels have all
stored theirs, or a cancel stores its code into a COMPLETE task whose worker has
cleared it. -/
def MixesOutcomes (system : System) : Event → Prop
  | ⟨.worker _, .store slot (.errorCode _)⟩ =>
      (system.dev.tasks slot).state = .cancelled ∧
        ∀ thread taskId, system.clients thread ≠ .cancel taskId (.writeError slot)
  | ⟨.client _, .store slot (.errorCode _)⟩ =>
      (system.dev.tasks slot).state = .complete ∧
        ∀ accel, system.workers accel ≠ .exec slot .writeError
  | _ => False

/-- The step does not mix two outcomes. -/
def KeepsOutcomes (system : System) (event : Event) : Prop := ¬ MixesOutcomes system event

/-! ## The invariant of a cleared task -/

/-- The worker has stored its error code. -/
def Point.Cleared : Point → Prop
  | .cleared _ | .signalled _ | .retired _ => True
  | _ => False

/-- The two fields agree, or a cancel has stored its state and is about to store
its code. -/
def Agreeing (system : System) (slot : Slot) : Prop :=
  ((system.dev.tasks slot).state = .complete ∧ (system.dev.tasks slot).errorCode = 0) ∨
    ((system.dev.tasks slot).state = .cancelled ∧
      ((system.dev.tasks slot).errorCode = ecanceledCode ∨
        ∃ thread taskId, system.clients thread = .cancel taskId (.writeError slot)))

theorem Agreeing.agrees {system : System} {slot : Slot} (agreeing : Agreeing system slot)
    (settled : ¬ CancelInProgress system slot) : Agrees (system.dev.tasks slot) := by
  rcases agreeing with complete | ⟨cancelled, stored | ⟨thread, taskId, storing⟩⟩
  · exact Or.inl complete
  · exact Or.inr ⟨cancelled, stored⟩
  · exact absurd ⟨thread, taskId, _, storing, Or.inr rfl⟩ settled

/-- A cancel that is about to store its code stays there until it stores it. -/
theorem Stepped.writeError_kept {kernel : Kernel} {system next : System} {event : Event}
    (stepped : Stepped kernel system event next) {thread : Nat} {taskId : UInt32} {slot : Slot}
    (storing : system.clients thread = .cancel taskId (.writeError slot)) :
    next.clients thread = .cancel taskId (.writeError slot) ∨
      event = ⟨.client thread, .store slot (.errorCode ecanceledCode)⟩ := by
  by_cases own : event.actor = .client thread
  · obtain ⟨input, taken⟩ := stepped.clientStep_of_actor own
    rw [storing] at taken
    cases input with
    | call call copied => simp [clientStep] at taken
    | advance choice =>
        simp only [clientStep, cancelStep, Option.some.injEq, Prod.mk.injEq] at taken
        refine Or.inr ?_
        obtain ⟨actor, action⟩ := event
        exact congrArg₂ Event.mk own taken.1.symm
  · exact Or.inl (by rw [stepped.clients_of_foreign own, storing])

/-- A step that leaves the two fields alone keeps their agreement. -/
theorem Agreeing.kept {kernel : Kernel} {system next : System} {event : Event} {slot : Slot}
    (agreeing : Agreeing system slot) (stepped : Stepped kernel system event next)
    (state : (next.dev.tasks slot).state = (system.dev.tasks slot).state)
    (errorCode : (next.dev.tasks slot).errorCode = (system.dev.tasks slot).errorCode)
    (noStore : event.action ≠ .store slot (.errorCode ecanceledCode)) :
    Agreeing next slot := by
  unfold Agreeing
  rw [state, errorCode]
  rcases agreeing with complete | ⟨cancelled, stored | ⟨thread, taskId, storing⟩⟩
  · exact Or.inl complete
  · exact Or.inr ⟨cancelled, Or.inl stored⟩
  · rcases stepped.writeError_kept storing with still | stores
    · exact Or.inr ⟨cancelled, Or.inr ⟨thread, taskId, still⟩⟩
    · exact absurd (congrArg Event.action stores) noStore

/-- The client that has just stored CANCELLED is about to store its code. -/
theorem Stepped.writeError_of_cancelState {kernel : Kernel} {system next : System}
    {thread : Nat} {slot : Slot}
    (stepped : Stepped kernel system ⟨.client thread, .store slot (.state .cancelled)⟩ next) :
    ∃ taskId, next.clients thread = .cancel taskId (.writeError slot) := by
  obtain ⟨input, taken⟩ := stepped.clientStep_of_actor rfl
  have move := clientMove_of_step thread taken
  generalize system.clients thread = before, next.clients thread = after at move
  cases move with
  | quiet noSlot _ => cases noSlot
  | cancelState taskId _ => exact ⟨taskId, rfl⟩

/-- One step keeps the agreement of a cleared task, and the worker's clearing
store establishes it. -/
theorem agreeing_step {kernel : Kernel} {history : List Event} {system next : System}
    {event : Event} {slot : Slot} (inv : Inv history system)
    (stepped : Stepped kernel system event next) (keeps : KeepsOutcomes system event)
    (sofar : (ledger history slot).point.Cleared → Agreeing system slot)
    (cleared : (ledger (history ++ [event]) slot).point.Cleared) : Agreeing next slot := by
  by_cases about : event.action.slot? = some slot
  · have contents : next.dev.tasks slot = event.action.onTask (system.dev.tasks slot) := by
      rw [stepped.dev, Action.apply_tasks, if_pos about]
    rw [ledger_of_about about] at cleared
    cases inv.enabled stepped slot with
    | elsewhere _ other => exact absurd about other
    | clear accel point =>
        have facts := (inv.facts slot).state
        rw [point] at facts
        rcases facts with complete | ⟨cancelled, -⟩
        · refine Or.inl ⟨?_, by rw [contents]; rfl⟩
          rw [contents]
          exact complete
        · -- The step is not the excluded one, so some cancel still has to store its code.
          have storing : ∃ thread taskId,
              system.clients thread = .cancel taskId (.writeError slot) := by
            by_contra none
            simp only [not_exists] at none
            exact keeps ⟨cancelled, none⟩
          obtain ⟨thread, taskId, storing⟩ := storing
          refine Or.inr ⟨by rw [contents]; exact cancelled, Or.inr ⟨thread, taskId, ?_⟩⟩
          exact (stepped.writeError_kept storing).resolve_right (by simp)
    | signal accel point =>
        exact (sofar (by rw [point]; trivial)).kept stepped (by rw [contents]; rfl)
          (by rw [contents]; rfl) (by simp)
    | unlink accel point =>
        exact (sofar (by rw [point]; trivial)).kept stepped (by rw [contents]; rfl)
          (by rw [contents]; rfl) (by simp)
    | cancelState thread visible =>
        obtain ⟨taskId, storing⟩ := stepped.writeError_of_cancelState
        exact Or.inr ⟨by rw [contents]; rfl, Or.inr ⟨thread, taskId, storing⟩⟩
    | cancelError thread visible =>
        rcases sofar cleared with ⟨complete, -⟩ | ⟨cancelled, -⟩
        · -- The worker is past its clearing store, so this step is the excluded one.
          refine absurd ⟨complete, fun accel clearing => ?_⟩ keeps
          have point := inv.workerClaim accel slot (.completed accel) (by rw [clearing]; rfl)
          rw [show (Life.advance (ledger history slot) _).point = (ledger history slot).point
            from rfl, point] at cleared
          exact cleared
        · exact Or.inr ⟨by rw [contents]; exact cancelled, Or.inl (by rw [contents]; rfl)⟩
    | cancelDone thread visible =>
        exact (sofar cleared).kept stepped (by rw [contents]; rfl) (by rw [contents]; rfl)
          (by simp)
    | _ => exact cleared.elim
  · have contents : next.dev.tasks slot = system.dev.tasks slot := by
      rw [stepped.dev, Action.apply_tasks, if_neg about]
    rw [ledger_of_elsewhere about] at cleared
    refine (sofar cleared).kept stepped (by rw [contents]) (by rw [contents]) ?_
    intro stores
    rw [stores] at about
    exact about rfl

/-! ## Agreement along runs -/

/-- In every run in which no step mixes two outcomes, the state and the error code
of every settled task agree. -/
theorem settledAgree_of_keepsOutcomes (kernel : Kernel) (ticks : Nat) (trace : List Event)
    (system : System)
    (steps : (machine kernel).StepsWhere KeepsOutcomes (initial ticks) trace system) :
    SettledAgree trace system := by
  have start := run_initial kernel ticks
  have agreeing := steps.invariant (fun history state => ∀ slot,
    (ledger history slot).point.Cleared → Agreeing state slot) start (fun _ h => h.elim) ?_
  · intro slot retired settled
    refine (agreeing slot ?_).agrees settled
    have inv := inv_of_run (start.extend steps.steps)
    have place : placeOf trace slot = .retired := (inv.partition.mem .retired slot).mp retired
    unfold placeOf at place
    rw [List.nil_append]
    cases point : (ledger trace slot).point with
    | retired accel => trivial
    | _ => simp [point, Point.place] at place
  · intro history state label event next reached sofar keeps taken slot
    exact agreeing_step (inv_of_run reached) (stepped_of_step taken) keeps (sofar slot)

/-- Where the threads 0 and 1 are the only clients of a schedule and neither is in a
lookup at its end, no CANCEL is in progress. -/
private theorem noCancel_of_returned {schedule : Schedule Kernel.hz1000 (initial 0)}
    {slot : Slot}
    (actors : ∀ event ∈ schedule.trace,
      event.actor ∈ [Actor.client 0, .client 1, .worker 0, .clock])
    (returned : ∀ thread ∈ [0, 1], (schedule.final.clients thread).lookup = none) :
    ¬ CancelInProgress schedule.final slot := by
  rintro ⟨thread, taskId, phase, cancelling, -⟩
  by_cases scheduled : thread ∈ [0, 1]
  · have resting := returned thread scheduled
    rw [cancelling] at resting
    cases resting
  · rw [schedule.clients_of_absent actors (by simpa using scheduled)] at cancelling
    cases cancelling

/-- A task completes and is cancelled afterwards. -/
def lateCancelSchedule : Schedule Kernel.hz1000 (initial 0) where
  labels := callSchedule 0 (.submit TaskDesc.zero) 10 ++ roundSchedule 0 ++
    callSchedule 1 (.cancel 1) 5
  enabled := by decide +kernel

/-- A decidable part of the side condition: the worker clears the code of a task
that is not CANCELLED, a cancel stores its code into one that is not COMPLETE. -/
def storesApart (system : System) : Event → Bool
  | ⟨.worker _, .store slot (.errorCode _)⟩ => (system.dev.tasks slot).state != .cancelled
  | ⟨.client _, .store slot (.errorCode _)⟩ => (system.dev.tasks slot).state != .complete
  | _ => true

theorem keepsOutcomes_of_storesApart {system : System} {event : Event}
    (apart : storesApart system event = true) : KeepsOutcomes system event := by
  intro mixes
  unfold MixesOutcomes at mixes
  unfold storesApart at apart
  split at mixes
  · simp [mixes.1] at apart
  · simp [mixes.1] at apart
  · exact mixes

theorem settledAgree_lateCancel : Agrees (lateCancelSchedule.final.dev.tasks 0) := by
  have passed : (machine Kernel.hz1000).passes storesApart lateCancelSchedule.labels
      (initial 0) = true := by decide +kernel
  have steps := (Machine.stepsWhere_of_passes lateCancelSchedule.executed passed).mono
    fun _ _ => keepsOutcomes_of_storesApart
  exact settledAgree_of_keepsOutcomes Kernel.hz1000 0 _ _ steps 0 (by decide +kernel)
    (noCancel_of_returned (by decide +kernel) (by decide +kernel))

/-- A whole CANCEL falls between the worker's store of COMPLETE and its clearing of
the error code. -/
def mixedSchedule : Schedule Kernel.hz1000 (initial 0) where
  labels := callSchedule 0 (.submit TaskDesc.zero) 10 ++ workSchedule 0 9 ++
    sleepSchedule ++ workSchedule 0 4 ++ callSchedule 1 (.cancel 1) 5 ++ workSchedule 0 4
  enabled := by decide +kernel

/-- Without the side condition a task ends CANCELLED without an error. -/
theorem cancelled_task_without_error :
    ¬ ∀ trace system, (machine Kernel.hz1000).Run trace system → SettledAgree trace system := by
  intro agree
  have agrees := agree _ _ mixedSchedule.run 0 (by decide +kernel)
    (noCancel_of_returned (by decide +kernel) (by decide +kernel))
  have mixed : (mixedSchedule.final.dev.tasks 0).state = .cancelled ∧
      (mixedSchedule.final.dev.tasks 0).errorCode = 0 := by decide +kernel
  rw [Agrees, mixed.1, mixed.2] at agrees
  rcases agrees with ⟨complete, -⟩ | ⟨-, stored⟩
  · cases complete
  · exact absurd stored (by decide)

end CortexForge.Concurrent
