import CortexForge.Concurrent.Timing

/-!
Contract: the time the tasks of an accelerator take together.

A worker runs its tasks one at a time, so the spans from its store of RUNNING to its
reading of the completion time do not overlap. What QUERY reports is not the length of
that span: it begins at the submission, so the time in the queue is counted as well, once
for every task that waits. The reported times add up to what the accelerator was busy for
only if every task is started in the tick in which it was submitted.

Owns: the spans of one worker, the sum of the reported times, the side condition under
which it stays within the time the worker was busy, and the backlog with which it does
not.
-/

namespace CortexForge.Concurrent

open CortexForge.Foundation

/-- A QUERY has reported this time for the task in the slot, as COMPLETE. -/
def ReportedTime (notes : List TimeNote) (slot : Slot) (usec : UInt64) : Prop :=
  ∃ status, .report slot status ∈ notes ∧ status.status = TaskState.complete.code ∧
    status.execUsec = usec

/-- In every run whose steps are `Good`, the times reported for completed tasks of one
accelerator add up to no more than the time from the first start of one of them to the
last completion. -/
def TimesAddUp (kernel : Kernel) (Good : System → Event → Prop) : Prop :=
  ∀ ticks trace notes system accel (slots : Finset Slot) (usec : Slot → UInt64) first last,
    (machine kernel).StepsNoting Good timeNote (initial ticks) trace notes system →
    (∀ slot ∈ slots, (system.dev.tasks slot).accelType.toNat = (accel : AccelIndex).val ∧
      ReportedTime notes slot (usec slot)) →
    IsLeast {start | ∃ slot ∈ slots, start ∈ ticksOf .started slot notes} first →
    IsGreatest {stop | ∃ slot ∈ slots, stop ∈ ticksOf .completed slot notes} last →
    ∑ slot ∈ slots, (usec slot).toNat ≤ (last - first) * 1000000 / kernel.hz.toNat

/-- The worker starts a task in the tick in which it was submitted. -/
def StartsAtOnce (system : System) (event : Event) : Prop :=
  ∀ slot, system.reading event.actor = some (.started, slot) →
    (system.dev.tasks slot).submitJiffies = system.jiffies

instance (system : System) (event : Event) : Decidable (StartsAtOnce system event) :=
  match reads : system.reading event.actor with
  | some (.started, slot) =>
      decidable_of_iff ((system.dev.tasks slot).submitJiffies = system.jiffies)
        (by simp [StartsAtOnce, reads])
  | some (.submitted, slot) => .isTrue (by simp [StartsAtOnce, reads])
  | some (.completed, slot) => .isTrue (by simp [StartsAtOnce, reads])
  | none => .isTrue (by simp [StartsAtOnce, reads])

/-! ## Starts -/

section Step

variable {kernel : Kernel} {trace : List Event} {notes : List TimeNote} {system next : System}
  {event : Event} {slot : Slot}

/-- The worker that stores RUNNING was about to do so. -/
theorem Stepped.reading_of_run {accel : AccelIndex}
    (stepped : Stepped kernel system ⟨.worker accel, .store slot (.state .running)⟩ next) :
    system.reading (.worker accel) = some (.started, slot) := by
  obtain ⟨expired, taken⟩ := stepped.workerStep_of_actor rfl
  have move := workerMove_of_step taken
  show (system.workers accel).reading = _
  generalize system.workers accel = pc at move ⊢
  generalize next.workers accel = after at move
  cases move with
  | quiet noSlot same => cases noSlot
  | run => rfl

/-- A slot is started by the reading that says so, and stays started. -/
theorem started_step (inv : Inv trace system) (stepped : Stepped kernel system event next)
    (slot : Slot) :
    (ledger (trace ++ [event]) slot).point.started =
      if system.reading event.actor = some (.started, slot) then true
      else (ledger trace slot).point.started := by
  have enabled := inv.enabled stepped slot
  split
  next reads =>
    obtain ⟨accel, own, pc, point⟩ := reading_started inv reads
    obtain ⟨expired, taken⟩ := stepped.workerStep_of_actor own
    rw [pc] at taken
    simp only [workerStep, execStep, Option.some.injEq, Prod.mk.injEq] at taken
    rw [ledger_of_about (by rw [← taken.1]; rfl), Life.advance, own, ← taken.1]
    rfl
  next quiet =>
    by_cases about : event.action.slot? = some slot
    · rw [ledger_of_about about]
      cases enabled with
      | elsewhere _ other => exact absurd about other
      | run accel point => exact absurd stepped.reading_of_run quiet
      | cancelState thread visible => rfl
      | cancelError thread visible => rfl
      | cancelDone thread visible => rfl
      | _ => simp_all [Life.advance, Point.started]
    · rw [ledger_of_elsewhere about]

/-- From the queue on, a slot keeps its accelerator and its submission time. -/
theorem accel_step {accel : AccelIndex} (inv : Inv trace system)
    (stepped : Stepped kernel system event next)
    (isAccel : (ledger trace slot).point.accel? = some accel) :
    (ledger (trace ++ [event]) slot).point.accel? = some accel ∧
      (next.dev.tasks slot).submitJiffies = (system.dev.tasks slot).submitJiffies := by
  have enabled := inv.enabled stepped slot
  rw [stepped.dev, Action.apply_tasks]
  by_cases about : event.action.slot? = some slot
  · rw [ledger_of_about about, if_pos about]
    cases enabled with
    | elsewhere _ other => exact absurd about other
    | cancelState thread visible => exact ⟨isAccel, rfl⟩
    | cancelError thread visible => exact ⟨isAccel, rfl⟩
    | cancelDone thread visible => exact ⟨isAccel, rfl⟩
    | stamp thread now point =>
        -- The submission time is stored before the slot is queued.
        rw [point] at isAccel
        cases isAccel
    | _ => simp_all [Life.advance, Point.accel?, Action.onTask, Store.apply]
  · rw [ledger_of_elsewhere about, if_neg about]
    exact ⟨isAccel, rfl⟩

theorem Point.accel_of_started {point : Point} (started : point.started = true) :
    ∃ accel, point.accel? = some accel := by
  cases point <;> simp_all [Point.started, Point.accel?]

/-- A started slot that its worker no longer executes has its completion time. -/
theorem Clocked.completed_of_left (clocked : Clocked trace notes system) (inv : Inv trace system)
    {accel : AccelIndex} (isAccel : (ledger trace slot).point.accel? = some accel)
    (started : (ledger trace slot).point.started = true)
    (left : ∀ phase, system.workers accel ≠ .exec slot phase) :
    ∃ stop, ticksOf .completed slot notes = [stop] ∧ stop ≤ system.ticks := by
  have retired : (ledger trace slot).point = .retired accel := by
    have active (place : (ledger trace slot).point.place = .activeTasks accel) : False := by
      obtain ⟨phase, executes, -⟩ := inv.worker_of_active place
      exact left phase executes
    generalize (ledger trace slot).point = point at isAccel started active ⊢
    cases point <;> simp_all [Point.accel?, Point.started, Point.place]
  have completes := clocked.completed slot
  rw [retired] at completes
  obtain ⟨stop, read, -⟩ := List.map_eq_singleton_iff.mp completes
  exact ⟨stop, read, clocked.past .completed slot stop (by simp [read])⟩

end Step

/-! ## The spans of a worker -/

/-- The starts noted along a run. -/
structure Busy (trace : List Event) (notes : List TimeNote) (system : System) : Prop where
  started : ∀ slot,
    (ticksOf .started slot notes).length = (ledger trace slot).point.started.toNat
  apart : ∀ accel slot other, slot ≠ other →
    (ledger trace slot).point.accel? = some accel →
    (ledger trace other).point.accel? = some accel →
    ∀ start ∈ ticksOf .started slot notes, ∀ otherStart ∈ ticksOf .started other notes,
      (∃ stop ∈ ticksOf .completed slot notes, stop ≤ otherStart) ∨
        ∃ stop ∈ ticksOf .completed other notes, stop ≤ start

theorem Busy.initial (ticks : Nat) : Busy [] [] (initial ticks) where
  started := fun _ => rfl
  apart := fun _ _ _ _ isAccel => by cases isAccel

section Step

variable {kernel : Kernel} {trace : List Event} {notes : List TimeNote} {system next : System}
  {event : Event} {slot : Slot}

theorem Busy.started_of_mem (busy : Busy trace notes system) {start : Nat}
    (member : start ∈ ticksOf .started slot notes) :
    (ledger trace slot).point.started = true := by
  have positive := List.length_pos_of_mem member
  rw [busy.started slot] at positive
  cases started : (ledger trace slot).point.started with
  | true => rfl
  | false => simp [started] at positive

/-- The slots a worker has started keep their accelerator. -/
private theorem Busy.accel_before (busy : Busy trace notes system) (inv : Inv trace system)
    (stepped : Stepped kernel system event next) {accel : AccelIndex} {start : Nat}
    (member : start ∈ ticksOf .started slot notes)
    (isAccel : (ledger (trace ++ [event]) slot).point.accel? = some accel) :
    (ledger trace slot).point.accel? = some accel := by
  obtain ⟨before, wasAccel⟩ := Point.accel_of_started (busy.started_of_mem member)
  rw [(accel_step inv stepped wasAccel).1] at isAccel
  rw [wasAccel, isAccel]

/-- A worker starts a task when the tasks it started before are done. -/
private theorem Busy.apart_of_start (busy : Busy trace notes system)
    (clocked : Clocked trace notes system) (inv : Inv trace system)
    (stepped : Stepped kernel system event next) {accel : AccelIndex} {other : Slot}
    (different : slot ≠ other) (reads : system.reading event.actor = some (.started, other))
    (isAccel : (ledger (trace ++ [event]) slot).point.accel? = some accel)
    (otherAccel : (ledger (trace ++ [event]) other).point.accel? = some accel) {start : Nat}
    (member : start ∈ ticksOf .started slot notes) :
    ∃ stop ∈ ticksOf .completed slot notes, stop ≤ system.ticks := by
  obtain ⟨worker, -, pc, point⟩ := reading_started inv reads
  have wasAccel : (ledger trace other).point.accel? = some worker := by rw [point]; rfl
  rw [(accel_step inv stepped wasAccel).1, Option.some.injEq] at otherAccel
  subst otherAccel
  obtain ⟨stop, read, past⟩ := clocked.completed_of_left inv
    (busy.accel_before inv stepped member isAccel) (busy.started_of_mem member)
    fun phase executes => different (by rw [pc] at executes; cases executes; rfl)
  exact ⟨stop, by simp [read], past⟩

theorem Busy.step (busy : Busy trace notes system) (clocked : Clocked trace notes system)
    (inv : Inv trace system) (stepped : Stepped kernel system event next) :
    Busy (trace ++ [event]) (notes ++ (timeNote system event).toList) next := by
  constructor
  · intro slot
    rw [ticksOf_snoc, List.length_append, busy.started slot, started_step inv stepped]
    split
    next reads =>
      obtain ⟨accel, -, -, point⟩ := reading_started inv reads
      rw [point]
      rfl
    next => rfl
  · intro accel slot other different isAccel otherAccel start member otherStart otherMember
    have grows {target : Slot} {bound : Nat}
        (found : ∃ stop ∈ ticksOf .completed target notes, stop ≤ bound) :
        ∃ stop ∈ ticksOf .completed target (notes ++ (timeNote system event).toList),
          stop ≤ bound := by
      obtain ⟨stop, read, below⟩ := found
      exact ⟨stop, by rw [ticksOf_snoc]; exact List.mem_append_left _ read, below⟩
    rw [ticksOf_snoc, List.mem_append] at member otherMember
    rcases member with old | new
    · rcases otherMember with otherOld | otherNew
      · exact (busy.apart accel slot other different
          (busy.accel_before inv stepped old isAccel)
          (busy.accel_before inv stepped otherOld otherAccel) start old otherStart
          otherOld).imp grows grows
      · split at otherNew
        next reads =>
          rw [List.mem_singleton.mp otherNew]
          exact Or.inl (grows (busy.apart_of_start clocked inv stepped different reads isAccel
            otherAccel old))
        next => cases otherNew
    · split at new
      next reads =>
        rcases otherMember with otherOld | otherNew
        · rw [List.mem_singleton.mp new]
          exact Or.inr (grows (busy.apart_of_start clocked inv stepped (Ne.symm different) reads
            otherAccel isAccel otherOld))
        · rw [reads, if_neg (by simpa using different)] at otherNew
          cases otherNew
      next => cases new

end Step

/-! ## The reported times -/

/-- What has been reported, and the submission times of the started tasks, while every
task is started at once. -/
structure Prompt (kernel : Kernel) (trace : List Event) (notes : List TimeNote)
    (system : System) : Prop where
  clocked : Clocked trace notes system
  busy : Busy trace notes system
  atOnce : ∀ slot, ∀ start ∈ ticksOf .started slot notes,
    (system.dev.tasks slot).submitJiffies = UInt64.ofNat start
  reports : ∀ slot status, .report slot status ∈ notes →
    ExactStatus kernel trace system.dev slot status

theorem Prompt.initial (kernel : Kernel) (ticks : Nat) :
    Prompt kernel [] [] (initial ticks) where
  clocked := Clocked.initial ticks
  busy := Busy.initial ticks
  atOnce := fun _ => by simp [ticksOf]
  reports := by simp

/-- A reported status is that of a query. -/
theorem report_of_timeNote {system : System} {event : Event} {slot : Slot}
    {status : TaskStatus} (noted : .report slot status ∈ (timeNote system event).toList) :
    ∃ thread taskId, system.clients thread = .query taskId (.copyOut slot status) := by
  rw [Option.mem_toList] at noted
  unfold timeNote at noted
  split at noted
  · cases noted
  · obtain ⟨⟨found, value⟩, reporting, isReport⟩ := Option.map_eq_some_iff.mp noted
    cases isReport
    unfold System.reporting at reporting
    split at reporting
    next thread isClient =>
      split at reporting
      next taskId other answer querying =>
        cases reporting
        exact ⟨thread, taskId, querying⟩
      next => cases reporting
    next => cases reporting

theorem Prompt.step {kernel : Kernel} {trace : List Event} {notes : List TimeNote}
    {system next : System} {event : Event} (prompt : Prompt kernel trace notes system)
    (run : (machine kernel).Run trace system) (stepped : Stepped kernel system event next)
    (startsAtOnce : StartsAtOnce system event) :
    Prompt kernel (trace ++ [event]) (notes ++ (timeNote system event).toList) next := by
  have inv := inv_of_run run
  constructor
  · exact prompt.clocked.step inv stepped
  · exact prompt.busy.step prompt.clocked inv stepped
  · intro slot start member
    rw [ticksOf_snoc, List.mem_append] at member
    rcases member with old | new
    · obtain ⟨accel, isAccel⟩ := Point.accel_of_started (prompt.busy.started_of_mem old)
      rw [(accel_step inv stepped isAccel).2]
      exact prompt.atOnce slot start old
    · split at new
      next reads =>
        obtain ⟨accel, -, -, point⟩ := reading_started inv reads
        have isAccel : (ledger trace slot).point.accel? = some accel := by rw [point]; rfl
        rw [(accel_step inv stepped isAccel).2, startsAtOnce slot reads,
          List.mem_singleton.mp new]
        rfl
      next => cases new
  · intro slot status member
    rcases List.mem_append.mp member with old | new
    · exact (prompt.reports slot status old).step inv stepped
    · obtain ⟨thread, taskId, querying⟩ := report_of_timeNote new
      have isExact := exact_of_run run thread
      rw [querying] at isExact
      exact ExactStatus.step isExact inv stepped

/-- A reported time is at most the length of the task's span. -/
theorem Prompt.reported_le {kernel : Kernel} {trace : List Event} {notes : List TimeNote}
    {system : System} {slot : Slot} {usec : UInt64} (prompt : Prompt kernel trace notes system)
    (reported : ReportedTime notes slot usec) :
    Concluded trace slot ∧ ∃ start stop, ticksOf .started slot notes = [start] ∧
      ticksOf .completed slot notes = [stop] ∧
      usec.toNat ≤ (stop - start) * 1000000 / kernel.hz.toNat := by
  obtain ⟨status, noted, complete, rfl⟩ := reported
  obtain ⟨concluded, isTime⟩ := prompt.reports slot status noted complete
  obtain ⟨-, stop, -, readStop, -, -, completeStamp⟩ := prompt.clocked.concluded concluded
  have single := prompt.busy.started slot
  rw [concluded.started] at single
  obtain ⟨start, readStart⟩ := List.length_eq_one_iff.mp single
  have ordered := prompt.clocked.ordered .started slot stop (by simp [readStop]) start
    (by simp [readStart])
  refine ⟨concluded, start, stop, readStart, readStop, ?_⟩
  rw [isTime, execUsec, prompt.atOnce slot start (by simp [readStart]), completeStamp]
  exact Clock.elapsed_scaled_le ordered 1000000 kernel.hz

/-- Where every task is started in the tick in which it was submitted, the reported times
of an accelerator add up to no more than the time its worker was busy with them. -/
theorem timesAddUp_of_startsAtOnce (kernel : Kernel) : TimesAddUp kernel StartsAtOnce := by
  intro ticks trace notes system accel slots usec first last noted reported least greatest
  have run : (machine kernel).Run trace system := ⟨_, ⟨ticks, rfl⟩, noted.stepsWhere.steps⟩
  have prompt := noted.invariant (Prompt kernel) (run_initial kernel ticks)
    (Prompt.initial kernel ticks)
    fun _ _ _ _ _ _ reached prompt good taken =>
      prompt.step reached (stepped_of_step taken) good
  rw [List.nil_append] at prompt
  have onAccel (slot : Slot) (member : slot ∈ slots) :
      (ledger trace slot).point.accel? = some accel := by
    obtain ⟨sameAccel, times⟩ := reported slot member
    have concluded := (prompt.reported_le times).1
    obtain ⟨other, isAccel⟩ := Point.accel_of_started concluded.started
    have target := (inv_of_run run).accelType_of_accel isAccel
    rw [isAccel, Fin.ext (target.symm.trans sameAccel)]
  choose! start stop readStart readStop bound using
    fun slot (member : slot ∈ slots) => (prompt.reported_le (reported slot member).2).2
  calc ∑ slot ∈ slots, (usec slot).toNat
      ≤ ∑ slot ∈ slots, (stop slot - start slot) * 1000000 / kernel.hz.toNat :=
        Finset.sum_le_sum bound
    _ ≤ (∑ slot ∈ slots, (stop slot - start slot)) * 1000000 / kernel.hz.toNat :=
        Clock.sum_scaled_le slots _ _ _
    _ ≤ (last - first) * 1000000 / kernel.hz.toNat := by
        refine Nat.div_le_div_right (Nat.mul_le_mul_right _ ?_)
        refine Clock.sum_spans_le slots start stop ?_ ?_
        · intro slot member other otherMember different
          have apart := prompt.busy.apart accel slot other different (onAccel slot member)
            (onAccel other otherMember) (start slot) (by simp [readStart slot member])
            (start other) (by simp [readStart other otherMember])
          simpa [readStop slot member, readStop other otherMember] using apart
        · intro slot member
          exact ⟨least.2 ⟨slot, member, by simp [readStart slot member]⟩,
            greatest.2 ⟨slot, member, by simp [readStop slot member]⟩⟩

/-- Two tasks, each submitted to an idle worker, which executes it at once. -/
def promptSchedule : Schedule Kernel.hz1000 (initial 5) where
  labels := callSchedule 0 (.submit TaskDesc.zero) 10 ++ roundSchedule 0 ++
    callSchedule 0 (.submit TaskDesc.zero) 10 ++ roundSchedule 0 ++
    callSchedule 1 (.query 1) 8 ++ callSchedule 1 (.query 2) 9
  enabled := by decide +kernel

theorem timesAddUp_prompt :
    ReportedTime (promptSchedule.notes timeNote) 0 12000 ∧
      ReportedTime (promptSchedule.notes timeNote) 1 12000 ∧
      ∑ _slot ∈ ({0, 1} : Finset Slot), (12000 : UInt64).toNat ≤
        (29 - 5) * 1000000 / Kernel.hz1000.hz.toNat := by
  have startsAtOnce := promptSchedule.notedWhere timeNote StartsAtOnce (by decide +kernel)
  have first : ReportedTime (promptSchedule.notes timeNote) 0 12000 :=
    ⟨⟨1, TaskState.complete.code, 12000, 0, fun _ => 0⟩, by decide +kernel, rfl, rfl⟩
  have second : ReportedTime (promptSchedule.notes timeNote) 1 12000 :=
    ⟨⟨2, TaskState.complete.code, 12000, 0, fun _ => 0⟩, by decide +kernel, rfl, rfl⟩
  have starts : ticksOf .started 0 (promptSchedule.notes timeNote) = [5] ∧
      ticksOf .started 1 (promptSchedule.notes timeNote) = [17] := by decide +kernel
  have stops : ticksOf .completed 0 (promptSchedule.notes timeNote) = [17] ∧
      ticksOf .completed 1 (promptSchedule.notes timeNote) = [29] := by decide +kernel
  have accels : (promptSchedule.final.dev.tasks 0).accelType.toNat = 0 ∧
      (promptSchedule.final.dev.tasks 1).accelType.toNat = 0 := by decide +kernel
  refine ⟨first, second, ?_⟩
  exact timesAddUp_of_startsAtOnce Kernel.hz1000 5 _ _ _ 0 {0, 1} (fun _ => 12000) 5 29
    startsAtOnce (by simp [accels, first, second])
    (by simp [IsLeast, lowerBounds, starts]) (by simp [IsGreatest, upperBounds, stops])

/-- Two tasks are submitted in tick 0 to one accelerator, whose worker executes them one after
the other. -/
def backlogSchedule : Schedule Kernel.hz1000 (initial 0) where
  labels := callSchedule 0 (.submit TaskDesc.zero) 10 ++
    callSchedule 0 (.submit TaskDesc.zero) 10 ++ roundSchedule 0 ++ roundSchedule 0 ++
    callSchedule 1 (.query 1) 8 ++ callSchedule 1 (.query 2) 9
  enabled := by decide +kernel

/-- Without the side condition the time in the queue is reported as execution time: the second
task, which is executed from tick 12 to tick 24, is reported with 24 ticks. -/
theorem queueing_time_reported : ¬ TimesAddUp Kernel.hz1000 (fun _ _ => True) := by
  intro addUp
  have first : ReportedTime (backlogSchedule.notes timeNote) 0 12000 :=
    ⟨⟨1, TaskState.complete.code, 12000, 0, fun _ => 0⟩, by decide +kernel, rfl, rfl⟩
  have second : ReportedTime (backlogSchedule.notes timeNote) 1 24000 :=
    ⟨⟨2, TaskState.complete.code, 24000, 0, fun _ => 0⟩, by decide +kernel, rfl, rfl⟩
  have starts : ticksOf .started 0 (backlogSchedule.notes timeNote) = [0] ∧
      ticksOf .started 1 (backlogSchedule.notes timeNote) = [12] := by decide +kernel
  have stops : ticksOf .completed 0 (backlogSchedule.notes timeNote) = [12] ∧
      ticksOf .completed 1 (backlogSchedule.notes timeNote) = [24] := by decide +kernel
  have accels : (backlogSchedule.final.dev.tasks 0).accelType.toNat = 0 ∧
      (backlogSchedule.final.dev.tasks 1).accelType.toNat = 0 := by decide +kernel
  have sum := addUp 0 _ _ _ 0 {0, 1} (fun slot => if slot = 0 then 12000 else 24000) 0 24
    (backlogSchedule.noted timeNote) (by simp [accels, first, second, maxTasks])
    (by simp [IsLeast, lowerBounds, starts]) (by simp [IsGreatest, upperBounds, stops])
  exact absurd sum (by decide)

end CortexForge.Concurrent
