import CortexForge.Concurrent.Refinement

/-!
Contract: where a slot is, and what its state then reads.

The places are the free list, the hands of one submitting thread, the queue and
the active list of an accelerator, and the slots the workers have unlinked. Every
reachable state distributes the slots over them, each to exactly one, and the
state of a slot agrees with its place.

Owns: the partition of the slots and the agreement of state and list position.
-/

namespace CortexForge.Concurrent

open CortexForge.Foundation

section Owners

variable {trace : List Event} {system : System}

/-- A slot on an active list is the one its worker executes, at the point the
worker's program counter gives. -/
theorem Inv.worker_of_active (inv : Inv trace system) {accel : AccelIndex} {slot : Slot}
    (place : placeOf trace slot = .activeTasks accel) :
    ∃ phase, system.workers accel = .exec slot phase ∧
      (ledger trace slot).point = phase.point accel := by
  have single : content trace system (.activeTasks accel) = (system.executes accel).toList :=
    inv.executing accel
  have executes := (inv.partition.owner_eq_iff_of_toList single slot).mp place
  simp only [System.executes, Option.map_eq_some_iff] at executes
  obtain ⟨⟨held, point⟩, claimed, rfl⟩ := executes
  have atPoint := inv.workerClaim accel held point claimed
  cases pc : system.workers accel with
  | exec other phase =>
      rw [pc] at claimed
      simp only [WorkerPc.claim, Option.some.injEq, Prod.mk.injEq] at claimed
      obtain ⟨rfl, rfl⟩ := claimed
      exact ⟨phase, rfl, atPoint⟩
  | _ =>
      rw [pc] at claimed
      cases claimed

/-- A slot that is being submitted is held by its submitter. -/
theorem Inv.held_of_submitting (inv : Inv trace system) {thread : Nat} {slot : Slot}
    (place : placeOf trace slot = .submitting thread) : system.held thread = some slot := by
  have single : content trace system (.submitting thread) = (system.held thread).toList := rfl
  exact (inv.partition.owner_eq_iff_of_toList single slot).mp place

theorem Inv.point_of_retired (inv : Inv trace system) {slot : Slot}
    (member : slot ∈ retiredSlots trace) : ∃ accel, (ledger trace slot).point = .retired accel := by
  have place : placeOf trace slot = .retired := (inv.partition.mem .retired slot).mp member
  unfold placeOf at place
  cases point : (ledger trace slot).point with
  | retired accel => exact ⟨accel, rfl⟩
  | _ => simp [point, Point.place] at place

/-- A FREE slot is on the free list or held by a submission. -/
theorem Inv.listed_or_held (inv : Inv trace system) {slot : Slot}
    (free : (system.dev.tasks slot).state = .free) :
    slot ∈ system.dev.freeTasks ∨ ∃ thread, system.held thread = some slot := by
  have hidden : ¬ (ledger trace slot).point.Visible := by
    rw [← (inv.facts slot).state_ne_free_iff]
    exact not_not.mpr free
  cases point : (ledger trace slot).point with
  | free => exact Or.inl ((inv.partition.mem .freeTasks slot).mpr (by rw [placeOf, point]; rfl))
  | allocated thread =>
      exact Or.inr ⟨thread, inv.held_of_submitting (by rw [placeOf, point]; rfl)⟩
  | filled thread =>
      exact Or.inr ⟨thread, inv.held_of_submitting (by rw [placeOf, point]; rfl)⟩
  | _ =>
      rw [point] at hidden
      exact (hidden fun isFree => by cases isFree).elim

/-- A queued slot names its accelerator. -/
theorem Inv.accelType_of_accel (inv : Inv trace system) {accel : AccelIndex} {slot : Slot}
    (queued : (ledger trace slot).point.accel? = some accel) :
    (system.dev.tasks slot).accelType.toNat = accel.val := by
  have facts := inv.facts slot
  have filled : (ledger trace slot).point.Filled := by
    cases point : (ledger trace slot).point <;> simp [point, Point.accel?, Point.Filled] at *
  rw [(facts.payload filled).accelType]
  exact facts.target accel queued

/-- A slot on either list of an accelerator was queued on that accelerator. -/
theorem Point.accel_of_place {point : Point} {accel : AccelIndex}
    (place : point.place = .taskQueue accel ∨ point.place = .activeTasks accel) :
    point.accel? = some accel := by
  cases point <;> simp_all [Point.place, Point.accel?]

/-- A RUNNING slot is on the active list of an accelerator. -/
theorem Inv.place_of_running (inv : Inv trace system) {slot : Slot}
    (running : (system.dev.tasks slot).state = .running) :
    (ledger trace slot).point.state = .running ∧
      ∃ accel, placeOf trace slot = .activeTasks accel := by
  have stored : (ledger trace slot).point.state = .running := by
    rcases (inv.facts slot).state with stored | ⟨cancelled, -⟩
    · rw [← stored, running]
    · rw [running] at cancelled
      cases cancelled
  refine ⟨stored, ?_⟩
  unfold placeOf
  cases point : (ledger trace slot).point <;> simp_all [Point.state, Point.place]

end Owners

/-! ## Every slot is in exactly one place -/

/-- In every reachable state each slot is in exactly one place and on every list
at most once; the lists of an accelerator hold slots of its own type only, and
no accelerator has more than one active task. -/
theorem slots_partitioned (kernel : Kernel) (trace : List Event) (system : System)
    (run : (machine kernel).Run trace system) :
    (∀ slot, ∃! place, slot ∈ content trace system place) ∧
      (∀ place, (content trace system place).Nodup) ∧
      (∀ accel slot,
        slot ∈ (system.dev.accelerators accel).taskQueue ∨
            slot ∈ (system.dev.accelerators accel).activeTasks →
          (system.dev.tasks slot).accelType.toNat = accel.val) ∧
      (∀ accel, (system.dev.accelerators accel).activeTasks.length ≤ 1) := by
  have inv := inv_of_run run
  refine ⟨inv.partition.existsUnique_mem, inv.partition.nodup, ?_, ?_⟩
  · intro accel slot listed
    refine inv.accelType_of_accel (Point.accel_of_place ?_)
    exact listed.imp (inv.partition.mem (.taskQueue accel) slot).mp
      (inv.partition.mem (.activeTasks accel) slot).mp
  · intro accel
    rw [inv.executing accel]
    exact Option.length_toList_le

/-- One task is running and a second submission holds its slot. -/
def midwaySchedule : Schedule Kernel.hz1000 (initial 0) where
  labels := callSchedule 0 (.submit TaskDesc.zero) 10 ++ workSchedule 0 8 ++
    callSchedule 0 (.submit TaskDesc.zero) 3
  enabled := by decide +kernel

theorem slots_partitioned_midway :
    (midwaySchedule.final.dev.accelerators 0).activeTasks = [0] ∧
      midwaySchedule.final.held 0 = some 1 ∧
      (∃! place, (0 : Slot) ∈ content midwaySchedule.trace midwaySchedule.final place) ∧
      ∃! place, (1 : Slot) ∈ content midwaySchedule.trace midwaySchedule.final place := by
  have placed := (slots_partitioned Kernel.hz1000 midwaySchedule.trace midwaySchedule.final
    midwaySchedule.run).1
  exact ⟨by decide +kernel, by decide +kernel, placed 0, placed 1⟩

/-! ## State and place agree -/

/-- The worker has stored RUNNING into its task and not yet COMPLETE. -/
def WorkPhase.BetweenWrites : WorkPhase → Prop
  | .writeRunning | .writeError | .lowerLoad | .completeAll | .unlink => False
  | .raiseLoad | .testTimeout | .readClock _ | .testClock _ _ | .testState _ _ | .sleep _ _
  | .testStop _ _ | .sleepShort | .readJiffies | .writeCompleteJiffies _ | .writeComplete => True

theorem WorkPhase.betweenWrites_of_state {accel : AccelIndex} {phase : WorkPhase}
    (running : (phase.point accel).state = .running) : phase.BetweenWrites := by
  cases phase <;> trivial

/-- The points from which on the worker has stored the completion time. -/
def Point.Timed : Point → Prop
  | .timed _ | .completed _ | .cleared _ | .signalled _ | .retired _ => True
  | _ => False

/-- The completion time a slot holds was stored by a worker. -/
def CompletionStored (trace : List Event) (system : System) (slot : Slot) : Prop :=
  ∃ accel, ⟨.worker accel,
    .store slot (.completeJiffies (system.dev.tasks slot).completeJiffies)⟩ ∈ trace

/-- Apart from the worker's own store, no event about a slot past that point
changes its completion time. -/
private theorem Enabled.keeps_completeJiffies {slot : Slot} {life : Life} {event : Event}
    (enabled : Enabled slot life event) (about : event.action.slot? = some slot)
    (timed : (life.advance event).point.Timed) (task : Task) :
    (∃ accel now, event = ⟨.worker accel, .store slot (.completeJiffies now)⟩ ∧
        (event.action.onTask task).completeJiffies = now) ∨
      (life.point.Timed ∧ (event.action.onTask task).completeJiffies = task.completeJiffies) := by
  cases enabled with
  | time accel now point => exact Or.inl ⟨accel, now, rfl, rfl⟩
  | complete accel point => exact Or.inr ⟨by rw [point]; trivial, rfl⟩
  | clear accel point => exact Or.inr ⟨by rw [point]; trivial, rfl⟩
  | signal accel point => exact Or.inr ⟨by rw [point]; trivial, rfl⟩
  | unlink accel point => exact Or.inr ⟨by rw [point]; trivial, rfl⟩
  | cancelState thread visible => exact Or.inr ⟨timed, rfl⟩
  | cancelError thread visible => exact Or.inr ⟨timed, rfl⟩
  | cancelDone thread visible => exact Or.inr ⟨timed, rfl⟩
  | elsewhere _ other => exact absurd about other
  | _ => exact timed.elim

theorem completionStored_of_run {kernel : Kernel} {trace : List Event} {system : System}
    (run : (machine kernel).Run trace system) :
    ∀ slot, (ledger trace slot).point.Timed → CompletionStored trace system slot := by
  refine run.invariant (fun trace system => ∀ slot, (ledger trace slot).point.Timed →
    CompletionStored trace system slot) ?_ ?_
  · intro _ _ slot timed
    exact timed.elim
  · intro trace system label event next run stored taken slot timed
    have stepped := stepped_of_step taken
    unfold CompletionStored
    rw [stepped.dev, Action.apply_tasks]
    by_cases about : event.action.slot? = some slot
    · rw [if_pos about]
      rw [ledger_of_about about] at timed
      rcases ((inv_of_run run).enabled stepped slot).keeps_completeJiffies about timed
        (system.dev.tasks slot) with
        ⟨accel, now, isStore, value⟩ | ⟨wasTimed, same⟩
      · rw [value]
        exact ⟨accel, by simp [isStore]⟩
      · rw [same]
        obtain ⟨accel, member⟩ := stored slot wasTimed
        exact ⟨accel, List.mem_append_left _ member⟩
    · rw [if_neg about]
      rw [ledger_of_elsewhere about] at timed
      obtain ⟨accel, member⟩ := stored slot timed
      exact ⟨accel, List.mem_append_left _ member⟩

/-- In every reachable state: a slot on the free list is FREE; a queued one is
PENDING or CANCELLED; a RUNNING one is on the active list of its accelerator,
whose worker is between its RUNNING and COMPLETE stores for it; a FREE one is on
the free list or held by a submission; a retired one is COMPLETE or CANCELLED,
signalled and stamped with its completion time; none is FAILED. -/
theorem state_agrees_with_place (kernel : Kernel) (trace : List Event) (system : System)
    (run : (machine kernel).Run trace system) (slot : Slot) :
    (slot ∈ system.dev.freeTasks → (system.dev.tasks slot).state = .free) ∧
      (∀ accel, slot ∈ (system.dev.accelerators accel).taskQueue →
        (system.dev.tasks slot).state = .pending ∨
          (system.dev.tasks slot).state = .cancelled) ∧
      ((system.dev.tasks slot).state = .running →
        ∃ accel phase, slot ∈ (system.dev.accelerators accel).activeTasks ∧
          (system.dev.tasks slot).accelType.toNat = accel.val ∧
          system.workers accel = .exec slot phase ∧ phase.BetweenWrites) ∧
      ((system.dev.tasks slot).state = .free →
        slot ∈ system.dev.freeTasks ∨ ∃ thread, system.held thread = some slot) ∧
      (slot ∈ retiredSlots trace →
        ((system.dev.tasks slot).state = .complete ∨
            (system.dev.tasks slot).state = .cancelled) ∧
          (system.dev.tasks slot).done = true ∧ CompletionStored trace system slot) ∧
      (system.dev.tasks slot).state ≠ .failed := by
  have inv := inv_of_run run
  have facts := inv.facts slot
  refine ⟨fun member => ?_, fun accel member => ?_, fun running => ?_, fun free => ?_,
    fun member => ?_, ?_⟩
  · have point := inv.point_of_free member
    rcases facts.state with stored | ⟨-, visible⟩
    · rw [stored, point]
      rfl
    · rw [point] at visible
      exact absurd rfl visible
  · have stored := facts.state
    rw [inv.point_of_queued member] at stored
    exact stored.imp_right And.left
  · obtain ⟨stored, accel, place⟩ := inv.place_of_running running
    obtain ⟨phase, executes, atPoint⟩ := inv.worker_of_active place
    refine ⟨accel, phase, (inv.partition.mem (.activeTasks accel) slot).mpr place,
      inv.accelType_of_accel (Point.accel_of_place (Or.inr place)), executes, ?_⟩
    exact WorkPhase.betweenWrites_of_state (by rw [← atPoint]; exact stored)
  · exact inv.listed_or_held free
  · obtain ⟨accel, point⟩ := inv.point_of_retired member
    have stored := facts.state
    rw [point] at stored
    refine ⟨stored.imp_right And.left, facts.done (by rw [point]; trivial), ?_⟩
    exact completionStored_of_run run slot (by rw [point]; trivial)
  · exact facts.state_ne_failed

theorem state_agrees_with_place_midway :
    (midwaySchedule.final.dev.tasks 0).state = .running ∧
      ∃ accel phase, (0 : Slot) ∈ (midwaySchedule.final.dev.accelerators accel).activeTasks ∧
        (midwaySchedule.final.dev.tasks 0).accelType.toNat = accel.val ∧
        midwaySchedule.final.workers accel = .exec 0 phase ∧ phase.BetweenWrites := by
  have running : (midwaySchedule.final.dev.tasks 0).state = .running := by decide +kernel
  exact ⟨running, (state_agrees_with_place Kernel.hz1000 midwaySchedule.trace
    midwaySchedule.final midwaySchedule.run 0).2.2.1 running⟩

end CortexForge.Concurrent
