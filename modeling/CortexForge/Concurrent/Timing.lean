import CortexForge.Foundation.Clock
import CortexForge.Concurrent.Placement

/-!
Contract: when the timestamps of a task are taken, and what a QUERY makes of them.

A submitter reads `jiffies` and stores what it has read; the worker does the same when it
is done. A query loads the state first and both timestamps after it, while the worker
stores its timestamp before it stores COMPLETE: whoever sees COMPLETE sees two timestamps
that have been taken and that never change again.

Owns: the readings of the clock along a run, their relation to the contents of the slots,
and the exactness of the reported time.

Does not own: whether the time between the two readings is the time of the execution.
-/

namespace CortexForge.Concurrent

open CortexForge.Foundation

/-! ## Readings of the clock -/

/-- The three moments of a task. The worker starts a task when it stores RUNNING. -/
inductive Stamp where
  | submitted
  | started
  | completed
deriving DecidableEq

/-- What is taken down of a run: who read the clock when, and what a query copies out. -/
inductive TimeNote where
  | read (stamp : Stamp) (slot : Slot) (ticks : Nat)
  | report (slot : Slot) (status : TaskStatus)
deriving DecidableEq

def ClientPc.reading : ClientPc → Option (Stamp × Slot)
  | .submit _ _ (.readJiffies slot) => some (.submitted, slot)
  | _ => none

def WorkerPc.reading : WorkerPc → Option (Stamp × Slot)
  | .exec slot .writeRunning => some (.started, slot)
  | .exec slot .readJiffies => some (.completed, slot)
  | _ => none

/-- The moment that the next step of an actor fixes. -/
def System.reading (system : System) : Actor → Option (Stamp × Slot)
  | .client thread => (system.clients thread).reading
  | .worker accel => (system.workers accel).reading
  | _ => none

/-- The status that the next step of an actor copies out. -/
def System.reporting (system : System) : Actor → Option (Slot × TaskStatus)
  | .client thread =>
      match system.clients thread with
      | .query _ (.copyOut slot status) => some (slot, status)
      | _ => none
  | _ => none

def timeNote (system : System) (event : Event) : Option TimeNote :=
  match system.reading event.actor with
  | some (stamp, slot) => some (.read stamp slot system.ticks)
  | none => (system.reporting event.actor).map fun (slot, status) => .report slot status

def TimeNote.ticks (stamp : Stamp) (slot : Slot) : TimeNote → Option Nat
  | .read kind target ticks => if kind = stamp ∧ target = slot then some ticks else none
  | .report _ _ => none

/-- The true clock values at the readings for a moment of a task, in order. -/
def ticksOf (stamp : Stamp) (slot : Slot) (notes : List TimeNote) : List Nat :=
  notes.filterMap (TimeNote.ticks stamp slot)

theorem ticksOf_snoc (stamp : Stamp) (slot : Slot) (notes : List TimeNote) (system : System)
    (event : Event) :
    ticksOf stamp slot (notes ++ (timeNote system event).toList) =
      ticksOf stamp slot notes ++
        if system.reading event.actor = some (stamp, slot) then [system.ticks] else [] := by
  unfold ticksOf timeNote
  rw [List.filterMap_append]
  congr 1
  cases reads : system.reading event.actor with
  | none => cases system.reporting event.actor <;> simp [TimeNote.ticks]
  | some moment =>
      obtain ⟨kind, target⟩ := moment
      by_cases same : kind = stamp ∧ target = slot <;> simp [TimeNote.ticks, same]

/-! ## Timestamps held and stored -/

/-- The timestamp a submitter has read and not yet stored. -/
def ClientPc.stamp : ClientPc → Option UInt64
  | .submit _ _ (.writeSubmitJiffies _ stamp) => some stamp
  | _ => none

/-- The timestamp a worker has read and not yet stored. -/
def WorkerPc.stamp : WorkerPc → Option UInt64
  | .exec _ (.writeCompleteJiffies stamp) => some stamp
  | _ => none

/-- The submission time of a slot, once it has been read. -/
def Point.submitStamp (clients : Nat → ClientPc) (task : Task) : Point → Option UInt64
  | .free | .allocated _ | .filled _ => none
  | .published thread => (clients thread).stamp
  | _ => some task.submitJiffies

/-- The completion time of a slot, once it has been read. -/
def Point.completeStamp (workers : AccelIndex → WorkerPc) (task : Task) :
    Point → Option UInt64
  | .running accel => (workers accel).stamp
  | .timed _ | .completed _ | .cleared _ | .signalled _ | .retired _ =>
      some task.completeJiffies
  | _ => none

/-- The worker has stored RUNNING. -/
def Point.started : Point → Bool
  | .running _ | .timed _ | .completed _ | .cleared _ | .signalled _ | .retired _ => true
  | _ => false

section Step

variable {kernel : Kernel} {trace : List Event} {system next : System} {event : Event}
  {slot : Slot}

theorem reading_submitted (inv : Inv trace system) {actor : Actor}
    (reads : system.reading actor = some (.submitted, slot)) :
    ∃ thread desc accel, actor = .client thread ∧
      system.clients thread = .submit desc accel (.readJiffies slot) ∧
      (ledger trace slot).point = .published thread := by
  cases actor with
  | client thread =>
      change (system.clients thread).reading = _ at reads
      unfold ClientPc.reading at reads
      split at reads
      next desc accel target pc =>
        cases reads
        exact ⟨thread, desc, accel, rfl, pc,
          (inv.clientClaim thread ⟨slot, .published thread, desc⟩ (by rw [pc]; rfl)).1⟩
      next => cases reads
  | worker accel =>
      change (system.workers accel).reading = _ at reads
      unfold WorkerPc.reading at reads
      split at reads <;> cases reads
  | _ => cases reads

private theorem reading_worker (inv : Inv trace system) {actor : Actor} {stamp : Stamp}
    (reads : system.reading actor = some (stamp, slot)) (later : stamp ≠ .submitted) :
    ∃ accel, actor = .worker accel ∧
      ((stamp = .started ∧ system.workers accel = .exec slot .writeRunning ∧
          (ledger trace slot).point = .claimed accel) ∨
        (stamp = .completed ∧ system.workers accel = .exec slot .readJiffies ∧
          (ledger trace slot).point = .running accel)) := by
  cases actor with
  | client thread =>
      change (system.clients thread).reading = _ at reads
      unfold ClientPc.reading at reads
      split at reads
      · cases reads
        exact absurd rfl later
      · cases reads
  | worker accel =>
      change (system.workers accel).reading = _ at reads
      unfold WorkerPc.reading at reads
      split at reads
      next target pc =>
        cases reads
        exact ⟨accel, rfl, Or.inl ⟨rfl, pc, inv.workerClaim accel slot _ (by rw [pc]; rfl)⟩⟩
      next target pc =>
        cases reads
        exact ⟨accel, rfl, Or.inr ⟨rfl, pc, inv.workerClaim accel slot _ (by rw [pc]; rfl)⟩⟩
      next => cases reads
  | _ => cases reads

/-- A worker starts a slot that it has claimed. -/
theorem reading_started (inv : Inv trace system) {actor : Actor}
    (reads : system.reading actor = some (.started, slot)) :
    ∃ accel, actor = .worker accel ∧ system.workers accel = .exec slot .writeRunning ∧
      (ledger trace slot).point = .claimed accel := by
  obtain ⟨accel, own, ⟨-, pc, point⟩ | ⟨isCompleted, -⟩⟩ := reading_worker inv reads (by decide)
  · exact ⟨accel, own, pc, point⟩
  · cases isCompleted

/-- A worker reads the completion time of a slot that it runs. -/
theorem reading_completed (inv : Inv trace system) {actor : Actor}
    (reads : system.reading actor = some (.completed, slot)) :
    ∃ accel, actor = .worker accel ∧ system.workers accel = .exec slot .readJiffies ∧
      (ledger trace slot).point = .running accel := by
  obtain ⟨accel, own, ⟨isStarted, -⟩ | ⟨-, pc, point⟩⟩ := reading_worker inv reads (by decide)
  · cases isStarted
  · exact ⟨accel, own, pc, point⟩

/-- The submitter of a published slot is about to read the clock or to store what it has
read. -/
theorem Inv.submitter_of_published (inv : Inv trace system) {thread : Nat}
    (point : (ledger trace slot).point = .published thread) :
    ∃ desc accel, system.clients thread = .submit desc accel (.readJiffies slot) ∨
      ∃ stamp, system.clients thread = .submit desc accel (.writeSubmitJiffies slot stamp) := by
  have held := inv.held_of_submitting (by rw [placeOf, point]; rfl)
  unfold System.held at held
  obtain ⟨claim, claimed, rfl⟩ := Option.map_eq_some_iff.mp held
  have isPoint := (inv.clientClaim thread claim claimed).1
  rw [point] at isPoint
  generalize system.clients thread = pc at claimed ⊢
  cases pc with
  | submit desc accel phase =>
      refine ⟨desc, accel, ?_⟩
      cases phase with
      | readJiffies other => cases claimed; exact Or.inl rfl
      | writeSubmitJiffies other stamp => cases claimed; exact Or.inr ⟨stamp, rfl⟩
      | _ => cases claimed <;> cases isPoint
  | _ => cases claimed

/-- A foreign step leaves the submission stamp of a published slot where it is. -/
private theorem submitStamp_foreign (inv : Inv trace system)
    (stepped : Stepped kernel system event next) {thread : Nat}
    (point : (ledger trace slot).point = .published thread)
    (foreign : event.actor ≠ .client thread) :
    (ledger (trace ++ [event]) slot).point.submitStamp next.clients (next.dev.tasks slot) =
      (system.clients thread).stamp := by
  have kept : (ledger (trace ++ [event]) slot).point = .published thread := by
    rw [ledger_snoc, ← point]
    exact (inv.enabled stepped slot).keeps_point (by rw [point]; rfl) foreign
  rw [kept]
  show (next.clients thread).stamp = _
  rw [stepped.clients_of_foreign foreign]

/-- Before and after the submitter stands at its two steps, the clients do not matter. -/
theorem Point.submitStamp_congr {point : Point} (clients others : Nat → ClientPc)
    {task after : Task} (notPublished : ∀ thread, point ≠ .published thread)
    (same : after.submitJiffies = task.submitJiffies) :
    point.submitStamp others after = point.submitStamp clients task := by
  cases point with
  | published thread => exact absurd rfl (notPublished thread)
  | _ => simp [Point.submitStamp, same]

/-- The submitter holds no timestamp right after it has published its slot. -/
private theorem Stepped.stamp_of_publish {thread : Nat}
    (stepped : Stepped kernel system ⟨.client thread, .store slot (.state .pending)⟩ next) :
    (next.clients thread).stamp = none := by
  obtain ⟨input, taken⟩ := stepped.clientStep_of_actor rfl
  have move := clientMove_of_step thread taken
  generalize system.clients thread = pc at move
  generalize next.clients thread = after at move ⊢
  cases move with
  | quiet noSlot same => cases noSlot
  | publish desc accel => rfl

private theorem submitStamp_unpublished (inv : Inv trace system)
    (stepped : Stepped kernel system event next)
    (notPublished : ∀ thread, (ledger trace slot).point ≠ .published thread) :
    (ledger (trace ++ [event]) slot).point.submitStamp next.clients (next.dev.tasks slot) =
      (ledger trace slot).point.submitStamp system.clients (system.dev.tasks slot) := by
  have enabled := inv.enabled stepped slot
  rw [stepped.dev, Action.apply_tasks]
  by_cases about : event.action.slot? = some slot
  · rw [ledger_of_about about, if_pos about]
    cases enabled with
    | elsewhere _ other => exact absurd about other
    | stamp thread now point => exact absurd point (notPublished thread)
    | publish thread point =>
        rw [point]
        exact stepped.stamp_of_publish
    | cancelState thread visible => exact Point.submitStamp_congr _ _ notPublished rfl
    | cancelError thread visible => exact Point.submitStamp_congr _ _ notPublished rfl
    | cancelDone thread visible => exact Point.submitStamp_congr _ _ notPublished rfl
    | _ => simp_all [Life.advance, Point.submitStamp, Action.onTask, Store.apply]
  · rw [ledger_of_elsewhere about, if_neg about]
    exact Point.submitStamp_congr _ _ notPublished rfl

/-- A reading of the submission time begins the stamp of a slot, and nothing else
changes it. -/
theorem submitStamp_step (inv : Inv trace system) (stepped : Stepped kernel system event next)
    (slot : Slot) :
    (ledger (trace ++ [event]) slot).point.submitStamp next.clients (next.dev.tasks slot) =
      if system.reading event.actor = some (.submitted, slot) then some system.jiffies
      else (ledger trace slot).point.submitStamp system.clients (system.dev.tasks slot) := by
  split
  next reads =>
    obtain ⟨thread, desc, accel, own, pc, point⟩ := reading_submitted inv reads
    obtain ⟨input, taken⟩ := stepped.clientStep_of_actor own
    rw [pc] at taken
    generalize isAction : event.action = action at taken
    generalize isNext : next.clients thread = after at taken
    cases clientTaken_of_step taken with
    | submit choice =>
        have kept : ledger (trace ++ [event]) slot = ledger trace slot :=
          ledger_of_elsewhere (by rw [isAction]; simp [submitStep, Action.slot?])
        rw [kept, point]
        show (next.clients thread).stamp = _
        rw [isNext]
        rfl
    | enter call copied pc resting => rcases resting with rest | ⟨reply, rest⟩ <;> cases rest
  next quiet =>
    by_cases published : ∃ thread, (ledger trace slot).point = .published thread
    · obtain ⟨thread, point⟩ := published
      rw [point]
      by_cases own : event.actor = .client thread
      · obtain ⟨input, taken⟩ := stepped.clientStep_of_actor own
        obtain ⟨desc, accel, pc | ⟨stamp, pc⟩⟩ := inv.submitter_of_published point
        · exact absurd (by rw [own]; simp [System.reading, pc, ClientPc.reading]) quiet
        · show _ = (system.clients thread).stamp
          rw [pc] at taken ⊢
          have isStore : event.action = .store slot (.submitJiffies stamp) := by
            generalize event.action = action at taken
            generalize next.clients thread = after at taken
            cases clientTaken_of_step taken with
            | submit choice => rfl
            | enter call copied pc resting =>
                rcases resting with rest | ⟨reply, rest⟩ <;> cases rest
          have moved : (ledger (trace ++ [event]) slot).point = .stamped thread := by
            rw [ledger_of_about (by rw [isStore]; rfl), Life.advance, own, isStore]
          rw [moved, stepped.dev, isStore]
          simp [Point.submitStamp, Action.apply_tasks, Action.slot?, Action.onTask, Store.apply,
            ClientPc.stamp]
      · exact submitStamp_foreign inv stepped point own
    · exact submitStamp_unpublished inv stepped fun thread point => published ⟨thread, point⟩

/-- A foreign step leaves the completion stamp of a running slot where it is. -/
private theorem completeStamp_foreign (inv : Inv trace system)
    (stepped : Stepped kernel system event next) {accel : AccelIndex}
    (point : (ledger trace slot).point = .running accel)
    (foreign : event.actor ≠ .worker accel) :
    (ledger (trace ++ [event]) slot).point.completeStamp next.workers (next.dev.tasks slot) =
      (system.workers accel).stamp := by
  have kept : (ledger (trace ++ [event]) slot).point = .running accel := by
    rw [ledger_snoc, ← point]
    exact (inv.enabled stepped slot).keeps_point (by rw [point]; rfl) foreign
  rw [kept]
  show (next.workers accel).stamp = _
  rw [stepped.workers_of_foreign foreign]

/-- Before and after the worker has the task in hand, the workers do not matter. -/
theorem Point.completeStamp_congr {point : Point} (workers others : AccelIndex → WorkerPc)
    {task after : Task} (notRunning : ∀ accel, point ≠ .running accel)
    (same : after.completeJiffies = task.completeJiffies) :
    point.completeStamp others after = point.completeStamp workers task := by
  cases point with
  | running accel => exact absurd rfl (notRunning accel)
  | _ => simp [Point.completeStamp, same]

/-- The worker holds no timestamp right after it has stored RUNNING. -/
private theorem Stepped.stamp_of_run {accel : AccelIndex}
    (stepped : Stepped kernel system ⟨.worker accel, .store slot (.state .running)⟩ next) :
    (next.workers accel).stamp = none := by
  obtain ⟨expired, taken⟩ := stepped.workerStep_of_actor rfl
  have move := workerMove_of_step taken
  generalize system.workers accel = pc at move
  generalize next.workers accel = after at move ⊢
  cases move with
  | quiet noSlot same => cases noSlot
  | run => rfl

private theorem completeStamp_unclaimed (inv : Inv trace system)
    (stepped : Stepped kernel system event next)
    (notRunning : ∀ accel, (ledger trace slot).point ≠ .running accel) :
    (ledger (trace ++ [event]) slot).point.completeStamp next.workers (next.dev.tasks slot) =
      (ledger trace slot).point.completeStamp system.workers (system.dev.tasks slot) := by
  have enabled := inv.enabled stepped slot
  rw [stepped.dev, Action.apply_tasks]
  by_cases about : event.action.slot? = some slot
  · rw [ledger_of_about about, if_pos about]
    cases enabled with
    | elsewhere _ other => exact absurd about other
    | time accel now point => exact absurd point (notRunning accel)
    | run accel point =>
        rw [point]
        exact stepped.stamp_of_run
    | cancelState thread visible => exact Point.completeStamp_congr _ _ notRunning rfl
    | cancelError thread visible => exact Point.completeStamp_congr _ _ notRunning rfl
    | cancelDone thread visible => exact Point.completeStamp_congr _ _ notRunning rfl
    | _ => simp_all [Life.advance, Point.completeStamp, Action.onTask, Store.apply]
  · rw [ledger_of_elsewhere about, if_neg about]
    exact Point.completeStamp_congr _ _ notRunning rfl

/-- A worker that holds a timestamp stores it next. -/
private theorem Stepped.store_of_stamp {accel : AccelIndex} {stamp : UInt64}
    (stepped : Stepped kernel system event next) (own : event.actor = .worker accel)
    (pc : system.workers accel = .exec slot (.writeCompleteJiffies stamp)) :
    event.action = .store slot (.completeJiffies stamp) := by
  obtain ⟨expired, taken⟩ := stepped.workerStep_of_actor own
  rw [pc] at taken
  simp only [workerStep, execStep, Option.some.injEq, Prod.mk.injEq] at taken
  exact taken.1.symm

/-- Until it holds a timestamp, a worker leaves a running slot alone. -/
private theorem execStep_stamp (kernel : Kernel) (dev : Dev) (now : UInt64)
    {accel other : AccelIndex} (slot : Slot) {phase : WorkPhase}
    (running : phase.point accel = .running other)
    (empty : (WorkerPc.exec slot phase).stamp = none) :
    (execStep kernel dev now accel slot phase).1.slot? = none ∧
      (execStep kernel dev now accel slot phase).2.stamp =
        if (WorkerPc.exec slot phase).reading = some (.completed, slot) then some now
        else none := by
  cases phase with
  | writeCompleteJiffies stamp => cases empty
  | readJiffies => simp [execStep, Action.slot?, WorkerPc.stamp, WorkerPc.reading]
  | raiseLoad => exact ⟨rfl, rfl⟩
  | readClock timeout => exact ⟨rfl, rfl⟩
  | sleep timeout start => exact ⟨rfl, rfl⟩
  | sleepShort => exact ⟨rfl, rfl⟩
  | testTimeout =>
      simp only [execStep]
      split <;> exact ⟨rfl, rfl⟩
  | testClock timeout start =>
      simp only [execStep]
      split <;> exact ⟨rfl, rfl⟩
  | testState timeout start =>
      simp only [execStep]
      split <;> exact ⟨rfl, rfl⟩
  | testStop timeout start =>
      simp only [execStep]
      split <;> exact ⟨rfl, rfl⟩
  | _ => cases running

/-- A reading of the completion time begins the stamp of a slot, and nothing else
changes it. -/
theorem completeStamp_step (inv : Inv trace system)
    (stepped : Stepped kernel system event next) (slot : Slot) :
    (ledger (trace ++ [event]) slot).point.completeStamp next.workers (next.dev.tasks slot) =
      if system.reading event.actor = some (.completed, slot) then some system.jiffies
      else (ledger trace slot).point.completeStamp system.workers (system.dev.tasks slot) := by
  by_cases running : ∃ accel, (ledger trace slot).point = .running accel
  · obtain ⟨accel, point⟩ := running
    obtain ⟨phase, pc, isPoint⟩ := inv.worker_of_active (by rw [placeOf, point]; rfl)
    by_cases own : event.actor = .worker accel
    · have reads : system.reading event.actor = (WorkerPc.exec slot phase).reading := by
        rw [own]
        exact congrArg WorkerPc.reading pc
      rw [reads, point]
      show _ = if _ then _ else (system.workers accel).stamp
      rw [pc]
      cases holds : (WorkerPc.exec slot phase).stamp with
      | some stamp =>
          cases phase <;> cases holds
          have isStore := stepped.store_of_stamp own pc
          have moved : (ledger (trace ++ [event]) slot).point = .timed accel := by
            rw [ledger_of_about (by rw [isStore]; rfl), Life.advance, own, isStore]
          rw [moved, stepped.dev, isStore]
          simp [Point.completeStamp, Action.apply_tasks, Action.slot?, Action.onTask, Store.apply,
            WorkerPc.reading]
      | none =>
          obtain ⟨expired, taken⟩ := stepped.workerStep_of_actor own
          rw [pc] at taken
          simp only [workerStep, Option.some.injEq] at taken
          have moved := execStep_stamp kernel system.dev system.jiffies slot
            (isPoint.symm.trans point) holds
          rw [taken] at moved
          rw [ledger_of_elsewhere (by rw [moved.1]; simp), point]
          exact moved.2
    · have quiet : system.reading event.actor ≠ some (.completed, slot) := by
        intro reads
        obtain ⟨other, isWorker, -, otherPoint⟩ := reading_completed inv reads
        rw [point] at otherPoint
        cases otherPoint
        exact own isWorker
      rw [if_neg quiet, point]
      exact completeStamp_foreign inv stepped point own
  · have notRunning (accel : AccelIndex) : (ledger trace slot).point ≠ .running accel :=
      fun point => running ⟨accel, point⟩
    have quiet : system.reading event.actor ≠ some (.completed, slot) := by
      intro reads
      obtain ⟨other, -, -, point⟩ := reading_completed inv reads
      exact notRunning other point
    rw [if_neg quiet]
    exact completeStamp_unclaimed inv stepped notRunning

end Step

/-! ## Every reading is accounted for -/

/-- The readings noted along a run and the timestamps that slots and threads hold. -/
structure Clocked (trace : List Event) (notes : List TimeNote) (system : System) : Prop where
  submitted : ∀ slot, (ticksOf .submitted slot notes).map UInt64.ofNat =
    ((ledger trace slot).point.submitStamp system.clients (system.dev.tasks slot)).toList
  completed : ∀ slot, (ticksOf .completed slot notes).map UInt64.ofNat =
    ((ledger trace slot).point.completeStamp system.workers (system.dev.tasks slot)).toList
  past : ∀ stamp slot, ∀ ticks ∈ ticksOf stamp slot notes, ticks ≤ system.ticks
  ordered : ∀ stamp slot, ∀ last ∈ ticksOf .completed slot notes,
    ∀ ticks ∈ ticksOf stamp slot notes, ticks ≤ last

theorem Clocked.initial (ticks : Nat) : Clocked [] [] (initial ticks) where
  submitted := fun _ => rfl
  completed := fun _ => rfl
  past := fun _ _ _ => by simp [ticksOf]
  ordered := fun _ _ _ => by simp [ticksOf]

section Step

variable {kernel : Kernel} {trace : List Event} {notes : List TimeNote} {system next : System}
  {event : Event} {slot : Slot}

/-- No stamp of a slot is read once its completion time has been. -/
theorem completeStamp_of_reading (inv : Inv trace system) {actor : Actor} {stamp : Stamp}
    (reads : system.reading actor = some (stamp, slot)) :
    (ledger trace slot).point.completeStamp system.workers (system.dev.tasks slot) = none := by
  cases stamp with
  | submitted =>
      obtain ⟨thread, -, -, -, -, point⟩ := reading_submitted inv reads
      rw [point]
      rfl
  | started =>
      obtain ⟨accel, -, -, point⟩ := reading_started inv reads
      rw [point]
      rfl
  | completed =>
      obtain ⟨accel, -, pc, point⟩ := reading_completed inv reads
      rw [point]
      show (system.workers accel).stamp = none
      rw [pc]
      rfl

/-- The clock never goes back. -/
theorem Stepped.ticks_mono (stepped : Stepped kernel system event next) :
    system.ticks ≤ next.ticks := by
  cases stepped with
  | tick => exact Nat.le_succ _
  | _ => exact Nat.le_refl _

theorem Clocked.step (clocked : Clocked trace notes system) (inv : Inv trace system)
    (stepped : Stepped kernel system event next) :
    Clocked (trace ++ [event]) (notes ++ (timeNote system event).toList) next := by
  constructor
  · intro slot
    rw [ticksOf_snoc, List.map_append, clocked.submitted, submitStamp_step inv stepped]
    split
    next reads =>
      obtain ⟨thread, desc, accel, -, pc, point⟩ := reading_submitted inv reads
      have unread : (ledger trace slot).point.submitStamp system.clients
          (system.dev.tasks slot) = none := by
        rw [point]
        show (system.clients thread).stamp = none
        rw [pc]
        rfl
      rw [unread]
      rfl
    next => simp
  · intro slot
    rw [ticksOf_snoc, List.map_append, clocked.completed, completeStamp_step inv stepped]
    split
    next reads =>
      rw [completeStamp_of_reading inv reads]
      rfl
    next => simp
  · intro stamp slot ticks member
    refine Nat.le_trans ?_ stepped.ticks_mono
    rw [ticksOf_snoc] at member
    rcases List.mem_append.mp member with old | new
    · exact clocked.past stamp slot ticks old
    · split at new
      · exact Nat.le_of_eq (List.mem_singleton.mp new)
      · cases new
  · intro stamp slot last lastMember ticks member
    rw [ticksOf_snoc] at member lastMember
    rcases List.mem_append.mp lastMember with oldLast | newLast
    · rcases List.mem_append.mp member with old | new
      · exact clocked.ordered stamp slot last oldLast ticks old
      · -- Nothing is read after the completion time.
        split at new
        next reads =>
          have none := clocked.completed slot
          rw [completeStamp_of_reading inv reads, Option.toList_none, List.map_eq_nil_iff] at none
          rw [none] at oldLast
          cases oldLast
        next => cases new
    · have isNow : last = system.ticks := by
        split at newLast
        · exact List.mem_singleton.mp newLast
        · cases newLast
      rw [isNow]
      rcases List.mem_append.mp member with old | new
      · exact clocked.past stamp slot ticks old
      · split at new
        · exact Nat.le_of_eq (List.mem_singleton.mp new)
        · cases new

end Step

/-! ## Queries -/

/-- The worker has stored COMPLETE. -/
def Concluded (trace : List Event) (slot : Slot) : Prop :=
  (ledger trace slot).point.state = .complete

theorem Concluded.started {trace : List Event} {slot : Slot} (concluded : Concluded trace slot) :
    (ledger trace slot).point.started = true := by
  unfold Concluded at concluded
  cases point : (ledger trace slot).point <;> simp_all [Point.state, Point.started]

/-- The status of a query that has loaded COMPLETE gives the time between the two
timestamps that are in the slot. -/
def ExactStatus (kernel : Kernel) (trace : List Event) (dev : Dev) (slot : Slot)
    (status : TaskStatus) : Prop :=
  status.status = TaskState.complete.code →
    Concluded trace slot ∧ status.execUsec = execUsec kernel (dev.tasks slot)

/-- Once a query has loaded COMPLETE, the timestamps it loads are in the slot to stay. -/
def QueryPhase.Exact (kernel : Kernel) (trace : List Event) (dev : Dev) : QueryPhase → Prop
  | .scan _ | .checkState _ | .readId _ | .readState _ _ => True
  | .readJiffies slot status => status.status = TaskState.complete.code → Concluded trace slot
  | .readSubmit slot status complete =>
      status.status = TaskState.complete.code →
        Concluded trace slot ∧ complete = (dev.tasks slot).completeJiffies
  | .readComplete slot status submit =>
      status.status = TaskState.complete.code →
        Concluded trace slot ∧ submit = (dev.tasks slot).submitJiffies
  | .readError slot status | .copyOut slot status => ExactStatus kernel trace dev slot status

def ClientPc.Exact (kernel : Kernel) (trace : List Event) (dev : Dev) : ClientPc → Prop
  | .query _ phase => phase.Exact kernel trace dev
  | .returned (.query _ _ (some (slot, status))) => ExactStatus kernel trace dev slot status
  | _ => True

section Queries

variable {kernel : Kernel} {trace : List Event} {system next : System} {event : Event}

/-- A query loads COMPLETE only from a slot into which the worker has stored it. -/
theorem Inv.concluded_of_code (inv : Inv trace system) {slot : Slot}
    (complete : (system.dev.tasks slot).state.code = TaskState.complete.code) :
    Concluded trace slot := by
  have isComplete : (system.dev.tasks slot).state = .complete := by
    cases state : (system.dev.tasks slot).state with
    | complete => rfl
    | _ =>
        rw [state] at complete
        exact absurd complete (by decide)
  rcases (inv.facts slot).state with stored | ⟨cancelled, -⟩
  · exact stored.symm.trans isComplete
  · rw [isComplete] at cancelled
    cases cancelled

/-- The timestamps of such a slot never change. -/
theorem Concluded.step {slot : Slot} (concluded : Concluded trace slot) (inv : Inv trace system)
    (stepped : Stepped kernel system event next) :
    Concluded (trace ++ [event]) slot ∧
      (next.dev.tasks slot).submitJiffies = (system.dev.tasks slot).submitJiffies ∧
      (next.dev.tasks slot).completeJiffies = (system.dev.tasks slot).completeJiffies := by
  have enabled := inv.enabled stepped slot
  unfold Concluded at concluded ⊢
  refine ⟨by rw [ledger_snoc]; exact enabled.keeps_complete concluded, ?_⟩
  rw [stepped.dev, Action.apply_tasks]
  split
  · cases enabled with
    | elsewhere _ other => exact absurd ‹_› other
    | cancelState thread visible => exact ⟨rfl, rfl⟩
    | cancelError thread visible => exact ⟨rfl, rfl⟩
    | cancelDone thread visible => exact ⟨rfl, rfl⟩
    | clear accel point => exact ⟨rfl, rfl⟩
    | signal accel point => exact ⟨rfl, rfl⟩
    | unlink accel point => exact ⟨rfl, rfl⟩
    | _ => simp_all [Point.state]
  · exact ⟨rfl, rfl⟩

theorem ExactStatus.step {slot : Slot} {status : TaskStatus}
    (isExact : ExactStatus kernel trace system.dev slot status) (inv : Inv trace system)
    (stepped : Stepped kernel system event next) :
    ExactStatus kernel (trace ++ [event]) next.dev slot status := by
  intro complete
  obtain ⟨concluded, isTime⟩ := isExact complete
  obtain ⟨still, sameSubmit, sameComplete⟩ := concluded.step inv stepped
  refine ⟨still, ?_⟩
  rw [isTime, execUsec, execUsec, sameSubmit, sameComplete]

/-- A step of another thread leaves a query exact. -/
theorem ClientPc.Exact.frame {pc : ClientPc} (isExact : pc.Exact kernel trace system.dev)
    (inv : Inv trace system) (stepped : Stepped kernel system event next) :
    pc.Exact kernel (trace ++ [event]) next.dev := by
  cases pc with
  | query taskId phase =>
      cases phase with
      | readJiffies slot status =>
          intro complete
          exact (Concluded.step (isExact complete) inv stepped).1
      | readSubmit slot status loaded =>
          intro complete
          obtain ⟨concluded, same⟩ := isExact complete
          obtain ⟨still, -, sameComplete⟩ := concluded.step inv stepped
          exact ⟨still, same.trans sameComplete.symm⟩
      | readComplete slot status loaded =>
          intro complete
          obtain ⟨concluded, same⟩ := isExact complete
          obtain ⟨still, sameSubmit, -⟩ := concluded.step inv stepped
          exact ⟨still, same.trans sameSubmit.symm⟩
      | readError slot status => exact ExactStatus.step isExact inv stepped
      | copyOut slot status => exact ExactStatus.step isExact inv stepped
      | _ => trivial
  | returned reply =>
      cases reply with
      | query taskId ret answer =>
          cases answer with
          | none => trivial
          | some found => exact ExactStatus.step isExact inv stepped
      | _ => trivial
  | _ => trivial

/-- Each load of a query keeps it exact. -/
theorem queryStep_exact (inv : Inv trace system) (choice : Bool) (taskId : UInt32)
    {phase : QueryPhase} (isExact : phase.Exact kernel trace system.dev) :
    (queryStep kernel system.dev choice taskId phase).Exact kernel trace system.dev := by
  cases phase with
  | scan index =>
      simp only [queryStep]
      split
      · split <;> trivial
      · trivial
  | checkState slot =>
      simp only [queryStep]
      split <;> trivial
  | readId slot => trivial
  | readState slot status => exact inv.concluded_of_code
  | readJiffies slot status =>
      cases choice with
      | true => exact fun complete => ⟨isExact complete, rfl⟩
      | false => exact fun complete => ⟨isExact complete, rfl⟩
  | readSubmit slot status loaded =>
      intro complete
      obtain ⟨concluded, rfl⟩ := isExact complete
      exact ⟨concluded, rfl⟩
  | readComplete slot status loaded =>
      intro complete
      obtain ⟨concluded, rfl⟩ := isExact complete
      exact ⟨concluded, rfl⟩
  | readError slot status => exact isExact
  | copyOut slot status =>
      cases choice with
      | true => exact isExact
      | false => trivial

theorem ClientPc.Exact.own {now : UInt64} {input : ClientInput} {pc after : ClientPc}
    {action : Action} (isExact : pc.Exact kernel trace system.dev) (inv : Inv trace system)
    (taken : clientStep kernel system.dev now input pc = some (action, after)) :
    after.Exact kernel trace system.dev := by
  cases clientTaken_of_step taken with
  | query choice taskId phase => exact queryStep_exact inv choice taskId isExact
  | enter call copied pc resting =>
      have enters := entered copied call
      generalize enterCall copied call = later at enters ⊢
      cases enters <;> trivial
  | submit choice desc accel phase =>
      rcases submitStep_next system.dev now choice desc accel phase with
        ⟨after, next⟩ | ⟨ret, reply, next⟩
      · rw [next]
        trivial
      · rw [next]
        trivial
  | cancel choice taskId phase =>
      rcases cancelStep_next system.dev taskId phase with ⟨after, next⟩ | ⟨ret, next⟩
      · rw [next]
        trivial
      · rw [next]
        trivial
  | accelInfo choice info accel => trivial
  | copyInfo choice info => trivial

end Queries

/-- Every query of every run is exact. -/
theorem exact_of_run {kernel : Kernel} {trace : List Event} {system : System}
    (run : (machine kernel).Run trace system) (thread : Nat) :
    (system.clients thread).Exact kernel trace system.dev := by
  refine run.invariant (fun trace system => ∀ thread,
    (system.clients thread).Exact kernel trace system.dev) ?_ ?_ thread
  · rintro _ ⟨ticks, rfl⟩ thread
    trivial
  · intro trace system label event next reached isExact taken thread
    have stepped := stepped_of_step taken
    have inv := inv_of_run reached
    by_cases own : event.actor = .client thread
    · obtain ⟨input, moved⟩ := stepped.clientStep_of_actor own
      exact ((isExact thread).own inv moved).frame inv stepped
    · rw [stepped.clients_of_foreign own]
      exact (isExact thread).frame inv stepped

/-! ## The reported time -/

theorem clocked_of_run {kernel : Kernel} {Good : System → Event → Prop} {ticks : Nat}
    {trace : List Event} {notes : List TimeNote} {system : System}
    (noted : (machine kernel).StepsNoting Good timeNote (initial ticks) trace notes system) :
    Clocked trace notes system := by
  have clocked := noted.invariant Clocked (run_initial kernel ticks) (Clocked.initial ticks)
    fun _ _ _ _ _ _ reached clocked _ taken =>
      clocked.step (inv_of_run reached) (stepped_of_step taken)
  simpa using clocked

/-- The two timestamps of a concluded slot have each been read exactly once. -/
theorem Clocked.concluded {trace : List Event} {notes : List TimeNote} {system : System}
    {slot : Slot} (clocked : Clocked trace notes system) (concluded : Concluded trace slot) :
    ∃ submitted completed, ticksOf .submitted slot notes = [submitted] ∧
      ticksOf .completed slot notes = [completed] ∧ submitted ≤ completed ∧
      (system.dev.tasks slot).submitJiffies = UInt64.ofNat submitted ∧
      (system.dev.tasks slot).completeJiffies = UInt64.ofNat completed := by
  have submits := clocked.submitted slot
  have completes := clocked.completed slot
  have isSubmit : (ledger trace slot).point.submitStamp system.clients
      (system.dev.tasks slot) = some (system.dev.tasks slot).submitJiffies := by
    cases point : (ledger trace slot).point <;> simp_all [Concluded, Point.state,
      Point.submitStamp]
  have isComplete : (ledger trace slot).point.completeStamp system.workers
      (system.dev.tasks slot) = some (system.dev.tasks slot).completeJiffies := by
    cases point : (ledger trace slot).point <;> simp_all [Concluded, Point.state,
      Point.completeStamp]
  rw [isSubmit, Option.toList_some, List.map_eq_singleton_iff] at submits
  rw [isComplete, Option.toList_some, List.map_eq_singleton_iff] at completes
  obtain ⟨submitted, readSubmitted, submitStamp⟩ := submits
  obtain ⟨completed, readCompleted, completeStamp⟩ := completes
  refine ⟨submitted, completed, readSubmitted, readCompleted, ?_, submitStamp.symm,
    completeStamp.symm⟩
  exact clocked.ordered .submitted slot completed (by simp [readCompleted]) submitted
    (by simp [readSubmitted])

/-- In every run and from every start of the clock: where a QUERY returns COMPLETE, the
clock was read exactly once for the submission of the task and exactly once for its
completion, not before it, and `exec_usec` is the true time between the two readings
rounded down to microseconds, if that time is below 2^64 microseconds. -/
theorem exec_usec_exact (kernel : Kernel) (ticks : Nat) (trace : List Event)
    (notes : List TimeNote) (system : System)
    (noted : (machine kernel).StepsNoting (fun _ _ => True) timeNote (initial ticks) trace notes
      system)
    (thread : Nat) (taskId : UInt32) (slot : Slot) (status : TaskStatus)
    (returned : system.clients thread = .returned (.query taskId 0 (some (slot, status))))
    (complete : status.status = TaskState.complete.code) :
    ∃ submitted completed, ticksOf .submitted slot notes = [submitted] ∧
      ticksOf .completed slot notes = [completed] ∧ submitted ≤ completed ∧
      (system.dev.tasks slot).submitJiffies = UInt64.ofNat submitted ∧
      (system.dev.tasks slot).completeJiffies = UInt64.ofNat completed ∧
      status.execUsec = execUsec kernel (system.dev.tasks slot) ∧
      ((completed - submitted) * 1000000 < 2 ^ 64 →
        status.execUsec.toNat = (completed - submitted) * 1000000 / kernel.hz.toNat) := by
  have run : (machine kernel).Run trace system := ⟨_, ⟨ticks, rfl⟩, noted.stepsWhere.steps⟩
  have isExact := exact_of_run run thread
  rw [returned] at isExact
  obtain ⟨concluded, isTime⟩ := isExact complete
  obtain ⟨submitted, completed, readSubmitted, readCompleted, ordered, submitStamp,
    completeStamp⟩ := (clocked_of_run noted).concluded concluded
  refine ⟨submitted, completed, readSubmitted, readCompleted, ordered, submitStamp,
    completeStamp, isTime, ?_⟩
  intro fits
  rw [isTime, execUsec, submitStamp, completeStamp]
  exact Clock.elapsed_scaled ordered 1000000 kernel.hz fits (by decide)

/-- The counter wraps between the submission of a task and its completion. -/
def wrappingSchedule : Schedule Kernel.hz1000 (initial (2 ^ 64 - 1)) where
  labels := callSchedule 0 (.submit TaskDesc.zero) 10 ++ workSchedule 0 9 ++ sleepSchedule ++
    workSchedule 0 3 ++ callSchedule 1 (.query 1) 2 ++ workSchedule 0 5 ++
    List.replicate 6 (.client 1 (.advance true))
  enabled := by decide +kernel

/-- The query is under way while the worker stores COMPLETE, and still reports the twelve
ticks between the readings. -/
theorem exec_usec_exact_wrapped :
    ticksOf .submitted 0 (wrappingSchedule.notes timeNote) = [2 ^ 64 - 1] ∧
      ticksOf .completed 0 (wrappingSchedule.notes timeNote) = [2 ^ 64 + 11] ∧
      ∃ status, wrappingSchedule.final.clients 1 = .returned (.query 1 0 (some (0, status))) ∧
        status.execUsec.toNat = 12 * 1000000 / 1000 := by
  have submits : ticksOf .submitted 0 (wrappingSchedule.notes timeNote) = [2 ^ 64 - 1] := by
    decide +kernel
  have completes : ticksOf .completed 0 (wrappingSchedule.notes timeNote) = [2 ^ 64 + 11] := by
    decide +kernel
  have returned : wrappingSchedule.final.clients 1 =
      .returned (.query 1 0 (some (0, ⟨1, TaskState.complete.code, 12000, 0, fun _ => 0⟩))) := by
    decide +kernel
  refine ⟨submits, completes, _, returned, ?_⟩
  obtain ⟨submitted, completed, readSubmitted, readCompleted, -, -, -, -, isTime⟩ :=
    exec_usec_exact Kernel.hz1000 _ wrappingSchedule.trace (wrappingSchedule.notes timeNote)
      wrappingSchedule.final (wrappingSchedule.noted timeNote) 1 1 0 _ returned rfl
  rw [submits, List.cons.injEq] at readSubmitted
  rw [completes, List.cons.injEq] at readCompleted
  rw [← readSubmitted.1, ← readCompleted.1] at isTime
  exact isTime (by decide)

end CortexForge.Concurrent
