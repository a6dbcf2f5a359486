import CortexForge.Foundation.Simulation
import CortexForge.Concurrent.WorkerSections

/-!
Contract: the sections of the driver are atomic.

Every run of the machine of `Concurrent.Locked`, which takes locks and makes one memory
access at a time, is answered by a run of the machine of `Concurrent.System`, in which a
section is one step: a step of a thread by at most one step of the same thread, with all
clients at the same place whenever they are in no section. What holds of every run of that
machine therefore holds of the driver with its locks and pointers.

Owns: the lists that probe builds, the simulation of whole runs, and what follows for the
memory of the driver alone.
-/

namespace CortexForge.Concurrent

open CortexForge.Foundation
open CortexForge.Foundation.Links (SameAt)

/-! ## The lists after probe -/

/-- The two lists of an accelerator are empty. -/
def EmptyLists (links : Links ListNode) (accel : AccelIndex) : Prop :=
  links.Ring (.taskQueue accel) [] ∧ links.Ring (.activeTasks accel) []

theorem initListHead_sameAt {links : Links ListNode} {head node : ListNode}
    (different : node ≠ head) : SameAt node links (links.initListHead head) := by
  constructor <;> simp [Links.initListHead, different]

/-- `accel_init` of one accelerator. -/
theorem EmptyLists.init (links : Links ListNode) (accel : AccelIndex) :
    EmptyLists ((links.initListHead (.taskQueue accel)).initListHead (.activeTasks accel))
      accel := by
  refine ⟨(Links.ring_initListHead links (.taskQueue accel)).congr fun node member => ?_,
    Links.ring_initListHead _ _⟩
  rw [List.mem_singleton] at member
  exact initListHead_sameAt (by simp [member])

/-- It leaves the other lists alone. -/
theorem init_keeps {links : Links ListNode} {accel : AccelIndex} {head : ListNode}
    {nodes : List ListNode} (ring : links.Ring head nodes)
    (notQueue : .taskQueue accel ∉ head :: nodes)
    (notActive : .activeTasks accel ∉ head :: nodes) :
    ((links.initListHead (.taskQueue accel)).initListHead (.activeTasks accel)).Ring head
      nodes := by
  refine ring.congr fun node member => ?_
  have first : SameAt node links (links.initListHead (.taskQueue accel)) :=
    initListHead_sameAt fun same => notQueue (same ▸ member)
  exact first.trans (initListHead_sameAt fun same => notActive (same ▸ member))

/-- The loop over the accelerators. -/
theorem init_all {links : Links ListNode} {slots : List Slot} (accels : List AccelIndex)
    (free : links.Ring .freeTasks (entries slots)) (ready : AccelIndex → Prop)
    (isReady : ∀ accel, ready accel → EmptyLists links accel) :
    let after := accels.foldl (fun links accel =>
      (links.initListHead (.taskQueue accel)).initListHead (.activeTasks accel)) links
    after.Ring .freeTasks (entries slots) ∧
      ∀ accel, ready accel ∨ accel ∈ accels → EmptyLists after accel := by
  induction accels generalizing links ready with
  | nil => exact ⟨free, fun accel known => isReady accel (by simpa using known)⟩
  | cons first rest inductionHypothesis =>
      have freeAfter : ((links.initListHead (.taskQueue first)).initListHead
          (.activeTasks first)).Ring .freeTasks (entries slots) :=
        init_keeps free (by simp [entries]) (by simp [entries])
      have readyAfter (accel : AccelIndex) (known : ready accel ∨ accel = first) :
          EmptyLists ((links.initListHead (.taskQueue first)).initListHead (.activeTasks first))
            accel := by
        by_cases same : accel = first
        · rw [same]
          exact EmptyLists.init links first
        · have before := isReady accel (known.resolve_right same)
          exact ⟨init_keeps before.1 (by simp [Ne.symm same]) (by simp),
            init_keeps before.2 (by simp) (by simp [Ne.symm same])⟩
      obtain ⟨freeLast, readyLast⟩ := inductionHypothesis freeAfter _ readyAfter
      refine ⟨freeLast, fun accel known => readyLast accel ?_⟩
      simp only [List.mem_cons] at known
      tauto

/-- Probe builds the lists it should build. -/
theorem bootLinks_spec : ∃ links, bootLinks = some links ∧
    links.Ring .freeTasks (entries (List.finRange maxTasks)) ∧
    ∀ accel, EmptyLists links accel := by
  have empty := Links.ring_initListHead
    (⟨fun _ => .null, fun _ => .null⟩ : Links ListNode) .freeTasks
  have nodup : (entries (List.finRange maxTasks)).Nodup :=
    (List.nodup_finRange maxTasks).map fun _ _ same => by cases same; rfl
  obtain ⟨pool, added, ring⟩ := empty.foldlM_listAddTail nodup (by simp [entries])
  rw [entries, List.foldlM_map] at added
  obtain ⟨free, ready⟩ := init_all (List.finRange numAccelerators) ring (fun _ => False)
    (fun _ known => known.elim)
  exact ⟨_, by simp only [bootLinks, added, Option.map_some], free,
    fun accel => ready accel (.inr (List.mem_finRange accel))⟩

theorem bareDev_nextTaskId (dev : Dev) : (bareDev dev).nextTaskId = dev.nextTaskId := rfl

/-- A run begins with a memory that realizes the probed device. -/
theorem realizes_initial {ticks : Nat} {links : Links ListNode} (built : bootLinks = some links) :
    Realizes (lockedInitial ticks links) (initial ticks) := by
  obtain ⟨others, isOthers, free, ready⟩ := bootLinks_spec
  rw [built, Option.some.injEq] at isOthers
  subst isOthers
  constructor
  case ticks => rfl
  case stopper => rfl
  case views => exact fun _ => rfl
  case clients => exact fun _ => rfl
  case workers => exact fun _ => trivial
  case accelerators => exact fun _ => rfl
  case tasks => exact fun _ _ => rfl
  case exclusive =>
    intro actor lock
    cases actor <;> simp [Locked.inside, lockedInitial, LockedClientPc.lock?,
      LockedWorkerPc.lock?]
  case atRest =>
    intro lock _
    cases lock with
    | task =>
        constructor
        · show links.Ring .freeTasks (entries probe.freeTasks)
          rw [probe_freeTasks]
          exact free
        · simp only [poolView, lockedInitial, initial, bareDev_nextTaskId]
    | accel index => exact ⟨(ready index).1, (ready index).2⟩

/-! ## Every step -/

section Step

variable {kernel : Kernel} {locked : Locked} {system : System} {trace : List Event}

/-- The thread that stops the workers holds no lock. -/
theorem Realizes.stopper_matched (realizes : Realizes locked system) {action : Action}
    {pc : StopperPc}
    (taken : stopperStep locked.memory.dev (fun accel => (locked.workers accel).view)
      locked.stopper = some (action, pc)) :
    Matched kernel system .stopper
      { locked with
        memory := { locked.memory with dev := action.apply locked.memory.dev }
        stopper := pc } := by
  have sameViews : (fun accel => (locked.workers accel).view) = system.workers :=
    funext fun accel => (realizes.views accel).symm
  have answered : stopperStep system.dev system.workers system.stopper = some (action, pc) := by
    rw [← taken, sameViews, realizes.stopper]
    cases locked.stopper <;> simp only [stopperStep, realizes.accelerators, bareAccel]
  have plain : action.Plain := by
    generalize locked.stopper = before at taken
    cases stopperMove_of_step taken <;> trivial
  have step : (machine kernel).step .stopper system = some (⟨.stopper, action⟩,
      { system with dev := action.apply system.dev, stopper := pc }) := step_stopper answered
  have confined := realizes.confined_plain plain fun target update touches =>
    (stepped_of_step step).madeBy touches
  refine ⟨_, _, (Machine.Steps.refl system).snoc step, ?_, .inr ⟨action, rfl⟩⟩
  exact {
    ticks := realizes.ticks
    stopper := rfl
    views := realizes.views
    clients := fun thread => confined.client realizes (by simp)
    workers := fun accel => confined.worker realizes (by simp)
    exclusive := realizes.exclusive
    atRest := confined.atRest realizes fun _ isMine => by cases isMine
    accelerators := confined.accelerators
    tasks := fun slot still => confined.task_eq realizes (by simp) still }

theorem Realizes.tick_matched (realizes : Realizes locked system) :
    Matched kernel system .clock { locked with ticks := locked.ticks + 1 } := by
  have step : (machine kernel).step .tick system = some (⟨.clock, .tau⟩,
      { system with ticks := system.ticks + 1 }) := rfl
  refine ⟨_, _, (Machine.Steps.refl system).snoc step, ?_, .inr ⟨.tau, rfl⟩⟩
  exact { realizes with ticks := congrArg (· + 1) realizes.ticks }

/-- Every step of the machine of locks is answered. -/
theorem Realizes.matched (realizes : Realizes locked system)
    (run : (machine kernel).Run trace system) {label : Label} {event : LockedEvent}
    {next : Locked}
    (taken : (lockedMachine kernel).step label locked = some (event, next)) :
    Matched kernel system event.actor next := by
  cases lockedStepped_of_step taken with
  | client thread input memory pc moved => exact realizes.client_matched run moved
  | worker accel expired memory pc moved => exact realizes.worker_matched run moved
  | stopper action pc moved => exact realizes.stopper_matched moved
  | tick => exact realizes.tick_matched

/-- The place an event records is the place of the client after it. -/
theorem place_of_step {label : Label} {event : LockedEvent} {next : Locked} {thread : Nat}
    {pc : ClientPc} (taken : (lockedMachine kernel).step label locked = some (event, next))
    (records : event = ⟨.client thread, some pc⟩) : next.clients thread = .outside pc := by
  cases lockedStepped_of_step taken with
  | client other input memory after moved =>
      obtain ⟨isThread, place⟩ := LockedEvent.mk.inj records
      cases isThread
      cases after with
      | outside after =>
          cases place
          simp
      | _ => cases place
  | _ => cases records

end Step

/-! ## Whole runs -/

/-- A step with locks is answered by at most one step of the same thread; a client that is in
no section after it is at the same place in both machines. -/
structure AnswersStep (event : LockedEvent) (block : List Event × System) : Prop where
  atMostOne : block.1 = [] ∨ ∃ action, block.1 = [⟨event.actor, action⟩]
  samePlace : ∀ thread pc, event = ⟨.client thread, some pc⟩ → block.2.clients thread = pc

/-- The memory of every reachable state realizes a reachable state of the other machine. -/
theorem realizes_of_run {kernel : Kernel} {history : List LockedEvent} {locked : Locked}
    (run : (lockedMachine kernel).Run history locked) :
    ∃ trace system, (machine kernel).Run trace system ∧ Realizes locked system := by
  refine run.invariant (fun _ locked => ∃ trace system,
    (machine kernel).Run trace system ∧ Realizes locked system) ?_ ?_
  · rintro _ ⟨ticks, links, built, rfl⟩
    exact ⟨[], initial ticks, run_initial kernel ticks, realizes_initial built⟩
  · rintro history locked label event next - ⟨trace, system, reached, realizes⟩ taken
    obtain ⟨block, after, steps, realized, -⟩ := realizes.matched reached taken
    exact ⟨trace ++ block, after, reached.extend steps, realized⟩

/-- Every run with locks and pointers is answered, step by step, by a run in which a section
is one step. -/
theorem sections_are_atomic (kernel : Kernel) (history : List LockedEvent) (locked : Locked)
    (run : (lockedMachine kernel).Run history locked) :
    ∃ start blocks system, (machine kernel).Initial start ∧
      (machine kernel).Blocks start blocks system ∧
      List.Forall₂ AnswersStep history blocks ∧ Realizes locked system := by
  let Related := fun (locked : Locked) (system : System) =>
    (∃ trace, (machine kernel).Run trace system) ∧ Realizes locked system
  have initially (locked : Locked) (isInitial : (lockedMachine kernel).Initial locked) :
      ∃ system, (machine kernel).Initial system ∧ Related locked system := by
    obtain ⟨ticks, links, built, rfl⟩ := isInitial
    exact ⟨initial ticks, ⟨ticks, rfl⟩, ⟨[], run_initial kernel ticks⟩, realizes_initial built⟩
  have answer (locked : Locked) (label : Label) (event : LockedEvent) (next : Locked)
      (system : System) (taken : (lockedMachine kernel).step label locked = some (event, next))
      (related : Related locked system) :
      ∃ block reached, (machine kernel).Steps system block reached ∧ Related next reached ∧
        AnswersStep event (block, reached) := by
    obtain ⟨⟨trace, reached⟩, realizes⟩ := related
    obtain ⟨block, after, steps, realized, atMostOne⟩ := realizes.matched reached taken
    refine ⟨block, after, steps, ⟨⟨trace ++ block, reached.extend steps⟩, realized⟩,
      atMostOne, fun thread pc records => ?_⟩
    have stands := realized.clients thread
    rw [place_of_step taken records] at stands
    exact stands
  obtain ⟨start, blocks, system, isInitial, chained, related, answered⟩ :=
    run.answered Related AnswersStep initially answer
  exact ⟨start, blocks, system, isInitial, chained, answered, related.2⟩

/-- The lists of `bootLinks`. -/
def bootedLinks : Links ListNode :=
  bootLinks.get (by
    obtain ⟨links, built, -⟩ := bootLinks_spec
    rw [built]
    rfl)

theorem lockedMachine_initial (kernel : Kernel) (ticks : Nat) :
    (lockedMachine kernel).Initial (lockedInitial ticks bootedLinks) :=
  ⟨ticks, bootedLinks, (Option.some_get _).symm, rfl⟩

/-- A schedule that can be executed after probe leads to a reachable state. -/
theorem exists_executed (kernel : Kernel) (labels : List Label) (test : Locked → Bool)
    (passed : ((lockedMachine kernel).execute labels (lockedInitial 0 bootedLinks)).any
      (fun result => test result.2) = true) :
    ∃ history locked,
      (lockedMachine kernel).execute labels (lockedInitial 0 bootedLinks) =
        some (history, locked) ∧
      (lockedMachine kernel).Run history locked ∧ test locked = true := by
  obtain ⟨⟨history, locked⟩, executed, holds⟩ := (Option.any_eq_true _ _).mp passed
  exact ⟨history, locked, executed, ⟨_, lockedMachine_initial kernel 0,
    Machine.steps_of_execute executed⟩, holds⟩

/-- A thread submits a task and has two stores of `list_add_tail` still to make. -/
def halfQueuedSchedule : List Label := callSchedule 0 (.submit TaskDesc.zero) 43

theorem halfQueued_executed : ∃ history locked,
    (lockedMachine Kernel.hz1000).execute halfQueuedSchedule (lockedInitial 0 bootedLinks) =
      some (history, locked) ∧
    (lockedMachine Kernel.hz1000).Run history locked ∧
    locked.clients 0 = .enqueue TaskDesc.zero 0 0 (.add (.store (.prev (.entry 0)
      (.node (.taskQueue 0))) [.next (.taskQueue 0) (.node (.entry 0))])) ∧
    locked.memory.owner (.accel 0) = some (.client 0) := by
  obtain ⟨history, locked, executed, run, holds⟩ := exists_executed Kernel.hz1000
    halfQueuedSchedule (fun locked => decide (
      locked.clients 0 = .enqueue TaskDesc.zero 0 0 (.add (.store (.prev (.entry 0)
        (.node (.taskQueue 0))) [.next (.taskQueue 0) (.node (.entry 0))])) ∧
      locked.memory.owner (.accel 0) = some (.client 0))) (by decide +kernel)
  exact ⟨history, locked, executed, run, of_decide_eq_true holds⟩

theorem sections_are_atomic_half_queued : ∃ history locked,
    (lockedMachine Kernel.hz1000).execute halfQueuedSchedule (lockedInitial 0 bootedLinks) =
      some (history, locked) ∧
    locked.memory.owner (.accel 0) = some (.client 0) ∧
    ∃ start blocks system, (machine Kernel.hz1000).Initial start ∧
      (machine Kernel.hz1000).Blocks start blocks system ∧
      List.Forall₂ AnswersStep history blocks ∧ Realizes locked system := by
  obtain ⟨history, locked, executed, run, -, owner⟩ := halfQueued_executed
  exact ⟨history, locked, executed, owner, sections_are_atomic Kernel.hz1000 history locked run⟩

/-! ## The memory alone -/

/-- The slot whose node this is. -/
def ListNode.slot? : ListNode → Option Slot
  | .entry slot => some slot
  | _ => none

/-- The lock that guards a list, by the head of the list. -/
def ListNode.guard : ListNode → Option Lock
  | .freeTasks => some .task
  | .taskQueue accel | .activeTasks accel => some (.accel accel)
  | .entry _ => none

/-- The slots met on the way round a list. -/
def Memory.listed (memory : Memory) (head : ListNode) : List Slot :=
  (memory.links.walk head (maxTasks + 1) head).filterMap ListNode.slot?

/-- Nobody is at work on the list with this head. -/
def Memory.Quiet (memory : Memory) (head : ListNode) : Prop :=
  ∃ lock, head.guard = some lock ∧ memory.owner lock = none

/-- What the locks are for, in terms of the memory and the program counters alone. -/
structure MemorySound (locked : Locked) : Prop where
  clients : ∀ thread, locked.clients thread ≠ .crashed
  workers : ∀ accel, locked.workers accel ≠ .crashed
  owners : ∀ actor lock, locked.inside actor = some lock ↔ locked.memory.owner lock = some actor
  rings : ∀ head, locked.memory.Quiet head →
    locked.memory.links.Ring head (entries (locked.memory.listed head))
  apart : ∀ first second, locked.memory.Quiet first → locked.memory.Quiet second →
    first ≠ second → ∀ slot ∈ locked.memory.listed first, slot ∉ locked.memory.listed second
  typed : ∀ accel, locked.memory.owner (.accel accel) = none →
    ∀ slot ∈ locked.memory.listed (.taskQueue accel) ++ locked.memory.listed (.activeTasks accel),
      (locked.memory.dev.tasks slot).accelType.toNat = accel.val
  single : ∀ accel, locked.memory.owner (.accel accel) = none →
    (locked.memory.listed (.activeTasks accel)).length ≤ 1
  counted : locked.memory.owner .task = none →
    (locked.memory.listed .freeTasks).length + locked.memory.dev.nextTaskId.toNat = maxTasks

/-- The place of the tasks on a list. -/
def ListNode.place : ListNode → Place
  | .freeTasks => .freeTasks
  | .taskQueue accel => .taskQueue accel
  | .activeTasks accel => .activeTasks accel
  | .entry _ => .retired

section MemorySound

variable {locked : Locked} {system : System} {trace : List Event}

theorem Memory.listed_eq {memory : Memory} {head : ListNode} {slots : List Slot}
    (ring : memory.links.Ring head (entries slots)) (short : slots.length ≤ maxTasks) :
    memory.listed head = slots := by
  have enough : (entries slots).length < maxTasks + 1 := by
    rw [entries, List.length_map]
    exact Nat.lt_succ_of_le short
  rw [Memory.listed, ring.walk_eq enough, entries, List.filterMap_map]
  exact List.filterMap_some

/-- A list that nobody is at work on is the list it should be. -/
theorem Realizes.quiet_list (realizes : Realizes locked system) (inv : Inv trace system)
    {head : ListNode} (quiet : locked.memory.Quiet head) :
    locked.memory.links.Ring head (entries (content trace system head.place)) ∧
      locked.memory.listed head = content trace system head.place := by
  have ring : locked.memory.links.Ring head (entries (content trace system head.place)) := by
    obtain ⟨lock, isGuard, free⟩ := quiet
    have rest := realizes.atRest lock free
    cases head with
    | freeTasks =>
        cases isGuard
        exact rest.ring
    | taskQueue accel =>
        cases isGuard
        exact rest.queue
    | activeTasks accel =>
        cases isGuard
        exact rest.active
    | entry slot => cases isGuard
  have short : (content trace system head.place).length ≤ maxTasks := by
    have bound := (inv.partition.nodup head.place).length_le_card
    rwa [Fintype.card_fin] at bound
  exact ⟨ring, Memory.listed_eq ring short⟩

/-- A queued or active task is not being filled, so memory holds all of it. -/
theorem Realizes.listed_task_eq (realizes : Realizes locked system) (inv : Inv trace system)
    {slot : Slot} (notHeld : ∀ thread, placeOf trace slot ≠ .submitting thread) :
    locked.memory.dev.tasks slot = system.dev.tasks slot := by
  refine realizes.tasks slot fun thread filling => notHeld thread ?_
  have held := (realizes.clients thread).held_of_filling filling
  exact (inv.partition.mem (.submitting thread) slot).mp (by simp [content, held])

theorem ListNode.place_injective {first second : ListNode} {memory : Memory}
    (firstQuiet : memory.Quiet first) (secondQuiet : memory.Quiet second)
    (same : first.place = second.place) : first = second := by
  obtain ⟨_, firstGuard, -⟩ := firstQuiet
  obtain ⟨_, secondGuard, -⟩ := secondQuiet
  cases first <;> cases second <;> simp_all [ListNode.place, ListNode.guard]

theorem Realizes.client_ne_crashed (realizes : Realizes locked system) (thread : Nat) :
    locked.clients thread ≠ .crashed := by
  intro crashed
  have stands := realizes.clients thread
  rw [crashed] at stands
  exact stands

theorem Realizes.worker_ne_crashed (realizes : Realizes locked system) (accel : AccelIndex) :
    locked.workers accel ≠ .crashed := by
  intro crashed
  have stands := realizes.workers accel
  rw [crashed] at stands
  exact stands

theorem Realizes.memorySound (realizes : Realizes locked system) (inv : Inv trace system)
    (ids : Ids trace system.dev) : MemorySound locked where
  clients := realizes.client_ne_crashed
  workers := realizes.worker_ne_crashed
  owners := realizes.exclusive
  rings := by
    intro head quiet
    obtain ⟨ring, listed⟩ := realizes.quiet_list inv quiet
    rwa [listed]
  apart := by
    intro first second firstQuiet secondQuiet different slot listed alsoListed
    rw [(realizes.quiet_list inv firstQuiet).2, inv.partition.mem] at listed
    rw [(realizes.quiet_list inv secondQuiet).2, inv.partition.mem, listed] at alsoListed
    exact different (ListNode.place_injective firstQuiet secondQuiet alsoListed)
  typed := by
    intro accel free slot listed
    have queueQuiet : locked.memory.Quiet (.taskQueue accel) := ⟨_, rfl, free⟩
    have activeQuiet : locked.memory.Quiet (.activeTasks accel) := ⟨_, rfl, free⟩
    have place : placeOf trace slot = .taskQueue accel ∨
        placeOf trace slot = .activeTasks accel := by
      rw [(realizes.quiet_list inv queueQuiet).2, (realizes.quiet_list inv activeQuiet).2,
        List.mem_append, inv.partition.mem, inv.partition.mem] at listed
      exact listed
    rw [realizes.listed_task_eq inv]
    · exact inv.accelType_of_accel (Point.accel_of_place place)
    · intro thread submitting
      rw [submitting] at place
      simp at place
  single := by
    intro accel free
    have quiet : locked.memory.Quiet (.activeTasks accel) := ⟨_, rfl, free⟩
    rw [(realizes.quiet_list inv quiet).2]
    show (system.dev.accelerators accel).activeTasks.length ≤ 1
    rw [inv.executing accel]
    exact Option.length_toList_le
  counted := by
    intro free
    have quiet : locked.memory.Quiet .freeTasks := ⟨_, rfl, free⟩
    have counter : locked.memory.dev.nextTaskId = system.dev.nextTaskId :=
      (realizes.atRest .task free).counter
    rw [(realizes.quiet_list inv quiet).2, counter, Nat.add_comm]
    exact ids.counter

end MemorySound

/-- In every reachable state no thread has followed a bad pointer; a thread is inside a section
exactly while it owns the lock; every list that nobody is at work on is a ring, no task is on
two of them, and they hold what they should. -/
theorem locked_memory_sound (kernel : Kernel) (history : List LockedEvent) (locked : Locked)
    (run : (lockedMachine kernel).Run history locked) : MemorySound locked := by
  obtain ⟨trace, system, reached, realizes⟩ := realizes_of_run run
  exact realizes.memorySound (inv_of_run reached) (ids_of_run reached)

theorem locked_memory_sound_half_queued : ∃ history locked,
    (lockedMachine Kernel.hz1000).execute halfQueuedSchedule (lockedInitial 0 bootedLinks) =
      some (history, locked) ∧
    locked.memory.owner (.accel 0) = some (.client 0) ∧ MemorySound locked := by
  obtain ⟨history, locked, executed, run, -, owner⟩ := halfQueued_executed
  exact ⟨history, locked, executed, owner, locked_memory_sound Kernel.hz1000 history locked run⟩

end CortexForge.Concurrent
