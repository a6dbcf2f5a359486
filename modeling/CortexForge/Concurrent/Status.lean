import CortexForge.Concurrent.Fifo

/-!
Contract: what the status word of a QUERY says, read with the published codes.

`task_query` copies the internal `enum task_state` into the reply. The internal
enumeration counts from FREE, the published `CORTEX_FORGE_TASK_*` codes from
PENDING, so every word a client reads is the code of the next phase.

Owns: the phase of a task as its history shows it, what each published code
promises, and the one phase in which the shifted word is right.
-/

namespace CortexForge.Concurrent

open CortexForge.Foundation

/-! ## Phases in the history -/

/-- A worker has dequeued the task. -/
def Started (trace : List Event) (slot : Slot) : Prop := ∃ accel, slot ∈ dequeued accel trace

/-- A worker has stored COMPLETE into the task. -/
def Ended (trace : List Event) (slot : Slot) : Prop :=
  ∃ accel, ⟨.worker accel, .store slot (.state .complete)⟩ ∈ trace

/-- A worker has recorded an error for the task. -/
def EndedInError (trace : List Event) (slot : Slot) : Prop :=
  ∃ accel, ⟨.worker accel, .store slot (.state .failed)⟩ ∈ trace ∨
    ∃ code, code ≠ 0 ∧ ⟨.worker accel, .store slot (.errorCode code)⟩ ∈ trace

/-- A CANCEL has been accepted for the task. -/
def CancelAccepted (trace : List Event) (slot : Slot) : Prop :=
  ∃ thread, ⟨.client thread, .store slot (.state .cancelled)⟩ ∈ trace

/-- What a published code says about the task. -/
def Describes (trace : List Event) (slot : Slot) : StatusCode → Prop
  | .pending => ¬ Started trace slot
  | .running => Started trace slot ∧ ¬ Ended trace slot
  | .complete => Ended trace slot
  | .failed => EndedInError trace slot
  | .cancelled => CancelAccepted trace slot

/-- A status word is one of the published codes and describes the task. -/
def Truthful (trace : List Event) (slot : Slot) (word : UInt32) : Prop :=
  ∃ code : StatusCode, word = code.value ∧ Describes trace slot code

/-- The status word a QUERY reports for a slot: of a QUERY executed on its own, or
of one in flight that is about to load the state. -/
inductive Reported (kernel : Kernel) (system : System) (slot : Slot) : UInt32 → Prop
  | alone (taskId : UInt32) (status : TaskStatus)
      (found : findTask system.dev taskId = some slot)
      (replied : taskQuery kernel system.dev taskId = some status) :
      Reported kernel system slot status.status
  | inFlight (thread : Nat) (taskId : UInt32) (choice : Bool) (before status : TaskStatus)
      (loading : system.clients thread = .query taskId (.readState slot before))
      (loaded : queryStep kernel system.dev choice taskId (.readState slot before) =
        .query taskId (.readJiffies slot status)) :
      Reported kernel system slot status.status

/-- The word is the internal code of the slot's state. -/
theorem Reported.word {kernel : Kernel} {system : System} {slot : Slot} {word : UInt32}
    (reported : Reported kernel system slot word) :
    word = (system.dev.tasks slot).state.code := by
  cases reported with
  | alone taskId status found replied =>
      simp only [taskQuery, found, Option.map_some, Option.some.injEq] at replied
      rw [← replied]
      rfl
  | inFlight thread taskId choice before status loading loaded =>
      cases loaded
      rfl

/-- QUERY reports visible slots only. -/
theorem Reported.visible {kernel : Kernel} {trace : List Event} {system : System} {slot : Slot}
    {word : UInt32} (reported : Reported kernel system slot word) (inv : Inv trace system) :
    (ledger trace slot).point.Visible := by
  cases reported with
  | alone taskId status found replied =>
      exact (inv.facts slot).state_ne_free_iff.mp (findTask_some found).2
  | inFlight thread taskId choice before status loading loaded =>
      exact (inv.looks thread taskId (.found slot) (by rw [loading]; rfl)).1

/-! ## The history and the life agree -/

section Phases

variable {kernel : Kernel} {trace : List Event} {system : System} {slot : Slot}

/-- A dequeued slot is past the queue. -/
theorem started_iff (run : (machine kernel).Run trace system) :
    Started trace slot ↔
      ∃ accel, (ledger trace slot).point.accel? = some accel ∧
        (ledger trace slot).point ≠ .queued accel := by
  have once := enqueuedOnce_of_run run
  have inv := inv_of_run run
  constructor
  · rintro ⟨accel, taken⟩
    have equation := queue_of_run run accel
    refine ⟨accel, (once.mem accel slot).mp ?_, ?_⟩
    · rw [← equation]
      exact List.mem_append_left _ taken
    · intro queued
      have listed : slot ∈ (system.dev.accelerators accel).taskQueue :=
        (inv.partition.mem (.taskQueue accel) slot).mpr (by rw [placeOf, queued]; rfl)
      have nodup := once.nodup accel
      rw [← equation] at nodup
      exact (List.nodup_append.mp nodup).2.2 slot taken slot listed rfl
  · rintro ⟨accel, onAccel, notQueued⟩
    refine ⟨accel, ?_⟩
    have member := (once.mem accel slot).mpr onAccel
    rw [← queue_of_run run accel] at member
    rcases List.mem_append.mp member with taken | listed
    · exact taken
    · exact absurd (inv.point_of_queued listed) notQueued

/-- A slot into which a worker has stored COMPLETE stays ended. -/
theorem state_of_ended (run : (machine kernel).Run trace system) (ended : Ended trace slot) :
    (ledger trace slot).point.state = .complete := by
  obtain ⟨accel, member⟩ := ended
  refine life_of_mem run (fun life => life.point.state = .complete) ?_ ?_ member
  · intro life
    rw [Life.after_about life rfl]
    rfl
  · intro life other enabled complete
    exact enabled.keeps_complete complete

/-- No worker ever records an error. -/
theorem not_endedInError (run : (machine kernel).Run trace system) :
    ¬ EndedInError trace slot := by
  rintro ⟨accel, failed | ⟨code, nonzero, recorded⟩⟩
  · obtain ⟨life, enabled⟩ := enabled_of_mem run _ failed slot
    cases enabled with
    | elsewhere _ other => exact other rfl
  · obtain ⟨life, enabled⟩ := enabled_of_mem run _ recorded slot
    cases enabled with
    | clear accel point => exact nonzero rfl
    | elsewhere _ other => exact other rfl

end Phases

/-! ## When the word is right -/

/-- The code a truthful word stands for. -/
private theorem describes_of_truthful {trace : List Event} {slot : Slot} (code : StatusCode)
    (truthful : Truthful trace slot code.value) : Describes trace slot code := by
  obtain ⟨other, sameWord, describes⟩ := truthful
  have same : code = other := by
    cases code <;> cases other <;> first | rfl | simp [StatusCode.value] at sameWord
  rw [same]
  exact describes

/-- In every reachable state the status word of a QUERY is truthful exactly when
the slot reads PENDING although its worker has already dequeued it. -/
theorem status_truthful_iff (kernel : Kernel) (trace : List Event) (system : System)
    (run : (machine kernel).Run trace system) (slot : Slot) (word : UInt32)
    (reported : Reported kernel system slot word) :
    Truthful trace slot word ↔
      (system.dev.tasks slot).state = .pending ∧
        ∃ accel, slot ∈ (system.dev.accelerators accel).activeTasks := by
  have inv := inv_of_run run
  have facts := inv.facts slot
  have visible := reported.visible inv
  rw [reported.word]
  cases state : (system.dev.tasks slot).state with
  | free => exact absurd state (facts.state_ne_free_iff.mpr visible)
  | failed => exact absurd state facts.state_ne_failed
  | pending =>
      have stored : (ledger trace slot).point.state = .pending := by
        rcases facts.state with stored | ⟨cancelled, -⟩
        · rw [← stored, state]
        · rw [state] at cancelled
          cases cancelled
      -- The internal PENDING is the published RUNNING.
      constructor
      · intro truthful
        obtain ⟨accel, onAccel, notQueued⟩ :=
          (started_iff run).mp (describes_of_truthful .running truthful).1
        refine ⟨rfl, accel, (inv.partition.mem (.activeTasks accel) slot).mpr ?_⟩
        unfold placeOf
        cases point : (ledger trace slot).point <;>
          simp_all [Point.accel?, Point.state, Point.place]
      · rintro ⟨-, accel, listed⟩
        have place : placeOf trace slot = .activeTasks accel :=
          (inv.partition.mem (.activeTasks accel) slot).mp listed
        refine ⟨.running, rfl, (started_iff run).mpr ⟨accel, ?_, ?_⟩, ?_⟩
        · exact Point.accel_of_place (Or.inr place)
        · intro queued
          rw [placeOf, queued] at place
          cases place
        · intro ended
          rw [state_of_ended run ended] at stored
          cases stored
  | running =>
      refine ⟨fun truthful => ?_, fun unmarked => by cases unmarked.1⟩
      have ended := state_of_ended run (describes_of_truthful .complete truthful)
      rcases facts.state with stored | ⟨cancelled, -⟩
      · rw [state, ended] at stored
        cases stored
      · rw [state] at cancelled
        cases cancelled
  | complete =>
      refine ⟨fun truthful => ?_, fun unmarked => by cases unmarked.1⟩
      exact absurd (describes_of_truthful .failed truthful) (not_endedInError run)
  | cancelled =>
      refine ⟨?_, fun unmarked => by cases unmarked.1⟩
      rintro ⟨code, sameWord, -⟩
      cases code <;> simp [TaskState.code, StatusCode.value] at sameWord

/-- A task that its worker has dequeued and not yet marked. -/
def dequeuedSchedule : Schedule Kernel.hz1000 (initial 0) where
  labels := callSchedule 0 (.submit TaskDesc.zero) 10 ++ workSchedule 0 6
  enabled := by decide +kernel

theorem status_truthful_dequeued : Truthful dequeuedSchedule.trace 0 1 := by
  have found : findTask dequeuedSchedule.final.dev 1 = some 0 := by decide +kernel
  have word : (taskStatus Kernel.hz1000 (dequeuedSchedule.final.dev.tasks 0)).status = 1 := by
    decide +kernel
  have reported : Reported Kernel.hz1000 dequeuedSchedule.final 0 _ :=
    .alone 1 _ found (by rw [taskQuery, found]; rfl)
  rw [word] at reported
  exact (status_truthful_iff Kernel.hz1000 dequeuedSchedule.trace dequeuedSchedule.final
    dequeuedSchedule.run 0 1 reported).mpr ⟨by decide +kernel, 0, by decide +kernel⟩

/-- A task that has just been queued. -/
def queuedSchedule : Schedule Kernel.hz1000 (initial 0) where
  labels := callSchedule 0 (.submit TaskDesc.zero) 10
  enabled := by decide +kernel

/-- QUERY reports a queued task, which no worker has touched, as RUNNING. -/
theorem queued_task_reported_running :
    ∃ word, Reported Kernel.hz1000 queuedSchedule.final 0 word ∧
      word = StatusCode.running.value ∧
      (∀ accel, 0 ∉ dequeued accel queuedSchedule.trace) ∧
      ¬ Truthful queuedSchedule.trace 0 word := by
  have found : findTask queuedSchedule.final.dev 1 = some 0 := by decide +kernel
  have word : (taskStatus Kernel.hz1000 (queuedSchedule.final.dev.tasks 0)).status =
      StatusCode.running.value := by decide +kernel
  have waiting : ∀ accel, 0 ∉ dequeued accel queuedSchedule.trace := by decide +kernel
  have reported : Reported Kernel.hz1000 queuedSchedule.final 0 _ :=
    .alone 1 _ found (by rw [taskQuery, found]; rfl)
  refine ⟨_, reported, word, waiting, fun truthful => ?_⟩
  rw [word] at truthful
  obtain ⟨accel, taken⟩ := (describes_of_truthful .running truthful).1
  exact waiting accel taken

end CortexForge.Concurrent
