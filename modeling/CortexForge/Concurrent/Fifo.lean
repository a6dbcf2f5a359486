import CortexForge.Concurrent.Identity

/-!
Contract: each accelerator starts its tasks in the order they were queued, each
once, with the payload of its submission.

Owns: the histories of enqueued and dequeued slots, the queue equation over
runs, and the payload of queued tasks.
-/

namespace CortexForge.Concurrent

open CortexForge.Foundation

/-- The slot an event of SUBMIT puts on the queue of an accelerator. -/
def Event.enqueuesOn (accel : AccelIndex) : Event → Option Slot
  | ⟨.client _, .enqueue target slot⟩ => if target = accel then some slot else none
  | _ => none

/-- The slot an event of an accelerator's worker takes off a queue. -/
def Event.dequeuedBy (accel : AccelIndex) : Event → Option Slot
  | ⟨.worker worker, .dequeue _ slot⟩ => if worker = accel then some slot else none
  | _ => none

/-- The slots enqueued on an accelerator, in order. -/
def enqueued (accel : AccelIndex) (trace : List Event) : List Slot :=
  trace.filterMap (Event.enqueuesOn accel)

/-- The slots an accelerator's worker has dequeued, in order. -/
def dequeued (accel : AccelIndex) (trace : List Event) : List Slot :=
  trace.filterMap (Event.dequeuedBy accel)

theorem enqueued_snoc (accel : AccelIndex) (trace : List Event) (event : Event) :
    enqueued accel (trace ++ [event]) =
      enqueued accel trace ++ (event.enqueuesOn accel).toList :=
  Machine.filterMap_snoc _ trace event

theorem dequeued_snoc (accel : AccelIndex) (trace : List Event) (event : Event) :
    dequeued accel (trace ++ [event]) =
      dequeued accel trace ++ (event.dequeuedBy accel).toList :=
  Machine.filterMap_snoc _ trace event

/-! ## The queue equation -/

/-- A worker dequeues the head of its own queue. -/
theorem Stepped.dequeue {kernel : Kernel} {system next : System} {actor : Actor}
    {accel : AccelIndex} {slot : Slot}
    (stepped : Stepped kernel system ⟨actor, .dequeue accel slot⟩ next) :
    actor = .worker accel ∧
      ∃ rest, (system.dev.accelerators accel).taskQueue = slot :: rest := by
  cases stepped with
  | client thread input action pc taken =>
      have move := clientMove_of_step thread taken
      generalize system.clients thread = before at move
      cases move with
      | quiet noSlot same => cases noSlot
  | worker worker expired action pc taken =>
      have move := workerMove_of_step taken
      generalize system.workers worker = before at move
      cases move with
      | quiet noSlot same => cases noSlot
      | dequeue slot rest head => exact ⟨rfl, rest, head⟩
  | stopper action pc taken => cases stopperStep_slot taken

/-- Only SUBMIT enqueues. -/
theorem Stepped.enqueue {kernel : Kernel} {system next : System} {actor : Actor}
    {accel : AccelIndex} {slot : Slot}
    (stepped : Stepped kernel system ⟨actor, .enqueue accel slot⟩ next) :
    ∃ thread, actor = .client thread := by
  cases stepped with
  | client thread input action pc taken => exact ⟨thread, rfl⟩
  | worker worker expired action pc taken =>
      have move := workerMove_of_step taken
      generalize system.workers worker = before at move
      cases move with
      | quiet noSlot same => cases noSlot
  | stopper action pc taken => cases stopperStep_slot taken

/-- One step moves one slot at most: onto the end of a queue, or from its head
to the history of its worker. -/
theorem Stepped.queue {kernel : Kernel} {system next : System} {event : Event}
    (stepped : Stepped kernel system event next) (accel : AccelIndex) :
    (event.dequeuedBy accel).toList ++ (next.dev.accelerators accel).taskQueue =
      (system.dev.accelerators accel).taskQueue ++ (event.enqueuesOn accel).toList := by
  rw [stepped.dev, Action.apply_taskQueue]
  obtain ⟨actor, action⟩ := event
  cases action with
  | enqueue target slot =>
      obtain ⟨thread, rfl⟩ := stepped.enqueue
      by_cases same : target = accel
      · simp [Event.dequeuedBy, Event.enqueuesOn, same]
      · simp [Event.dequeuedBy, Event.enqueuesOn, same]
  | dequeue target slot =>
      obtain ⟨rfl, rest, head⟩ := stepped.dequeue
      by_cases same : target = accel
      · subst same
        simp [Event.dequeuedBy, Event.enqueuesOn, head]
      · simp [Event.dequeuedBy, Event.enqueuesOn, same]
  | _ => cases actor <;> simp [Event.dequeuedBy, Event.enqueuesOn]

/-- A slot on a queue was there before the step, or the step has enqueued it. -/
theorem Stepped.mem_queue {kernel : Kernel} {system next : System} {event : Event}
    (stepped : Stepped kernel system event next) {accel : AccelIndex} {slot : Slot}
    (queued : slot ∈ (next.dev.accelerators accel).taskQueue) :
    slot ∈ (system.dev.accelerators accel).taskQueue ∨
      event.action = .enqueue accel slot := by
  rw [stepped.dev, Action.apply_taskQueue] at queued
  split at queued
  next target added isEnqueue =>
    split at queued
    next same =>
      subst same
      rcases List.mem_append.mp queued with before | isAdded
      · exact Or.inl before
      · rw [List.mem_singleton.mp isAdded]
        exact Or.inr isEnqueue
    next => exact Or.inl queued
  next target taken isDequeue =>
    split at queued
    · exact Or.inl (List.mem_of_mem_erase queued)
    · exact Or.inl queued
  next => exact Or.inl queued

theorem queue_of_run {kernel : Kernel} {trace : List Event} {system : System}
    (run : (machine kernel).Run trace system) (accel : AccelIndex) :
    dequeued accel trace ++ (system.dev.accelerators accel).taskQueue =
      enqueued accel trace := by
  refine run.invariant (fun trace system => dequeued accel trace ++
    (system.dev.accelerators accel).taskQueue = enqueued accel trace) ?_ ?_
  · rintro _ ⟨ticks, rfl⟩
    rfl
  · intro trace system label event next _ equation taken
    have moved := (stepped_of_step taken).queue accel
    rw [enqueued_snoc, dequeued_snoc, ← equation, List.append_assoc, List.append_assoc, moved]

/-! ## Each slot is enqueued once -/

/-- The enqueued slots are those whose life has reached the queue. -/
structure EnqueuedOnce (trace : List Event) : Prop where
  mem : ∀ accel slot,
    slot ∈ enqueued accel trace ↔ (ledger trace slot).point.accel? = some accel
  nodup : ∀ accel, (enqueued accel trace).Nodup

/-- An event changes the accelerator of a life exactly when it enqueues it. -/
private theorem Enabled.accel {slot : Slot} {life : Life} {event : Event}
    (enabled : Enabled slot life event) (about : event.action.slot? = some slot)
    (accel : AccelIndex) :
    ((life.advance event).point.accel? = some accel ↔
        life.point.accel? = some accel ∨ event.enqueuesOn accel = some slot) ∧
      (event.enqueuesOn accel = some slot → life.point.accel? = none) := by
  cases enabled with
  | elsewhere _ other => exact absurd about other
  | enqueue thread target point goal =>
      simp [Life.advance, Point.accel?, point, Event.enqueuesOn]
  | cancelState thread visible => simp [Life.advance, Event.enqueuesOn]
  | cancelError thread visible => simp [Life.advance, Event.enqueuesOn]
  | cancelDone thread visible => simp [Life.advance, Event.enqueuesOn]
  | _ => simp_all [Life.advance, Point.accel?, Event.enqueuesOn]

/-- Enqueuing is about the enqueued slot. -/
private theorem Event.slot_of_enqueuesOn {event : Event} {accel : AccelIndex} {slot : Slot}
    (hit : event.enqueuesOn accel = some slot) : event.action.slot? = some slot := by
  obtain ⟨actor, action⟩ := event
  cases actor <;> cases action <;> simp [Event.enqueuesOn, Action.slot?] at hit ⊢
  exact hit.2

theorem enqueuedOnce_of_run {kernel : Kernel} {trace : List Event} {system : System}
    (run : (machine kernel).Run trace system) : EnqueuedOnce trace := by
  refine run.invariant (fun trace _ => EnqueuedOnce trace) ?_ ?_
  · intro _ _
    exact ⟨fun _ _ => ⟨nofun, nofun⟩, fun _ => List.nodup_nil⟩
  · intro trace system label event next run once taken
    have enabled := (inv_of_run run).enabled (stepped_of_step taken)
    constructor
    · intro accel slot
      rw [enqueued_snoc, List.mem_append, Option.mem_toList, once.mem]
      by_cases about : event.action.slot? = some slot
      · rw [ledger_of_about about]
        exact ((enabled slot).accel about accel).1.symm
      · rw [ledger_of_elsewhere about, or_iff_left]
        intro hit
        exact about (Event.slot_of_enqueuesOn hit)
    · intro accel
      rw [enqueued_snoc]
      cases hit : event.enqueuesOn accel with
      | none => simpa using once.nodup accel
      | some slot =>
          have before := ((enabled slot).accel (Event.slot_of_enqueuesOn hit) accel).2 hit
          refine (once.nodup accel).append (List.nodup_singleton slot) ?_
          rw [Option.toList_some, List.disjoint_singleton, once.mem, before]
          exact nofun

/-! ## First in, first out, exactly once, with the submitted payload -/

/-- For every accelerator: what its worker has dequeued, followed by its queue,
is what SUBMIT enqueued on it, without repetition; no other worker dequeues any
of it; and every enqueued slot carries the payload of the one submission that
was given its id. -/
theorem fifo_with_payload (kernel : Kernel) (trace : List Event) (system : System)
    (run : (machine kernel).Run trace system) (accel : AccelIndex) :
    dequeued accel trace ++ (system.dev.accelerators accel).taskQueue =
        enqueued accel trace ∧
      (enqueued accel trace).Nodup ∧
      (∀ slot ∈ enqueued accel trace, ∀ other, other ≠ accel →
        slot ∉ dequeued other trace) ∧
      ∀ slot ∈ enqueued accel trace,
        (∃ thread desc,
          ⟨.client thread, .alloc slot (system.dev.tasks slot).id desc⟩ ∈ trace) ∧
        ∀ actor other desc,
          ⟨actor, .alloc other (system.dev.tasks slot).id desc⟩ ∈ trace →
            other = slot ∧ Carries desc (system.dev.tasks slot) := by
  have once := enqueuedOnce_of_run run
  refine ⟨queue_of_run run accel, once.nodup accel, ?_, ?_⟩
  · intro slot member other different taken
    have elsewhere : slot ∈ enqueued other trace := by
      rw [← queue_of_run run other]
      exact List.mem_append_left _ taken
    rw [once.mem] at member elsewhere
    rw [member, Option.some.injEq] at elsewhere
    exact different elsewhere.symm
  · intro slot member
    have facts := (inv_of_run run).facts slot
    have ids := ids_of_run run
    have filled : (ledger trace slot).point.Filled := by
      have queued := (once.mem accel slot).mp member
      cases point : (ledger trace slot).point <;>
        simp [point, Point.accel?, Point.Filled] at queued ⊢
    rw [facts.taskId filled.ne_free]
    constructor
    · obtain ⟨thread, recorded⟩ := ids.recorded slot filled.ne_free
      exact ⟨thread, _, recorded⟩
    · intro actor other desc recorded
      obtain ⟨allocated, sameId, sameDesc⟩ := ids.registered actor other _ desc recorded
      have same := ids.distinct other slot allocated filled.ne_free sameId
      refine ⟨same, ?_⟩
      rw [← sameDesc, same]
      exact facts.payload filled

/-- A worker has dequeued the first of two tasks queued on its accelerator. -/
def twoQueuedSchedule : Schedule Kernel.hz1000 (initial 0) where
  labels := callSchedule 0 (.submit TaskDesc.zero) 10 ++
    callSchedule 1 (.submit TaskDesc.zero) 10 ++ workSchedule 0 6
  enabled := by decide +kernel

theorem fifo_with_payload_twoQueued :
    dequeued 0 twoQueuedSchedule.trace = [0] ∧
      (twoQueuedSchedule.final.dev.accelerators 0).taskQueue = [1] ∧
      [0] ++ [1] = enqueued 0 twoQueuedSchedule.trace := by
  have equation := (fifo_with_payload Kernel.hz1000 twoQueuedSchedule.trace
    twoQueuedSchedule.final twoQueuedSchedule.run 0).1
  have taken : dequeued 0 twoQueuedSchedule.trace = [0] := by decide +kernel
  have waiting : (twoQueuedSchedule.final.dev.accelerators 0).taskQueue = [1] := by
    decide +kernel
  rw [taken, waiting] at equation
  exact ⟨taken, waiting, equation⟩

end CortexForge.Concurrent
