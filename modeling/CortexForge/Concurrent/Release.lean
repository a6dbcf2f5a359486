import CortexForge.Foundation.Progress
import CortexForge.Concurrent.Atomicity

/-!
Contract: every lock of the driver is given back.

Nothing is waited for inside a section: no second lock, no copy to or from user space and no
sleep. So the holder of a lock can always take its next step, and the length of the code of
the section bounds the number of its steps. The longest section is that of `task_alloc`.

Owns: the number of steps a thread has left in its section, and the bound.
-/

namespace CortexForge.Concurrent

open CortexForge.Foundation
open CortexForge.Foundation.Links (ListOp)

/-! ## Steps left -/

def AllocPhase.remaining : AllocPhase → Nat
  | .testEmpty => 27
  | .first => 26
  | .del _ op => op.remaining + 19
  | .memset _ _ rest => rest.length + 5
  | .initCompletion _ => 4
  | .nextId _ => 3
  | .writeId _ _ => 2
  | .unlock _ => 1

def EnqueuePhase.remaining : EnqueuePhase → Nat
  | .add op => op.remaining + 1
  | .unlock => 1

def FreePhase.remaining : FreePhase → Nat
  | .writeState => 7
  | .add op => op.remaining + 1
  | .unlock => 1

/-- The steps a client takes until it has left its section. -/
def LockedClientPc.remaining : LockedClientPc → Nat
  | .alloc _ _ phase => phase.remaining
  | .enqueue _ _ _ phase => phase.remaining
  | .free _ _ _ _ phase => phase.remaining
  | .info _ _ rest => rest.length + 1
  | .outside _ | .fill _ _ _ _ _ | .crashed => 0

def DequeuePhase.remaining : DequeuePhase → Nat
  | .testEmpty => 14
  | .first => 13
  | .del _ op => op.remaining + 6
  | .add _ op => op.remaining + 1
  | .unlock _ => 1

def UnlinkPhase.remaining : UnlinkPhase → Nat
  | .del op => op.remaining + 1
  | .unlock => 1

/-- The same for a worker. -/
def LockedWorkerPc.remaining : LockedWorkerPc → Nat
  | .dequeue phase => phase.remaining
  | .unlink _ phase => phase.remaining
  | .outside _ | .raiseLoad _ _ | .lowerLoad _ _ | .crashed => 0

def Locked.remaining (locked : Locked) : Actor → Nat
  | .client thread => (locked.clients thread).remaining
  | .worker accel => (locked.workers accel).remaining
  | .stopper | .clock => 0

/-- The length of the longest section. -/
def longestSection : Nat := 27

/-! ## Every step inside a section is one of them -/

/-- An access of a list operation lowers what is left, if going past it does. -/
theorem Memory.listStep_lowers {Pc : Type} (rank : Pc → Nat) {memory : Memory}
    {op : ListOp ListNode} {going : ListOp ListNode → Pc} {past crashed : Pc} (extra : Nat)
    (going_rank : ∀ next, rank (going next) = next.remaining + extra)
    (past_rank : rank past ≤ extra) (crashed_rank : rank crashed = 0) :
    rank (memory.listStep op going past crashed).2 < op.remaining + extra := by
  have positive := op.remaining_pos
  cases stepped : op.step memory.links with
  | none =>
      simp only [Memory.listStep, stepped, crashed_rank]
      omega
  | some outcome =>
      obtain ⟨links, next⟩ := outcome
      cases next with
      | none =>
          simp only [Memory.listStep, stepped]
          omega
      | some next =>
          have lower := ListOp.remaining_step stepped
          simp only [Memory.listStep, stepped, going_rank]
          omega

theorem allocStep_lowers (memory : Memory) (desc : TaskDesc) (accel : AccelIndex)
    (phase : AllocPhase) : (allocStep memory desc accel phase).2.remaining < phase.remaining := by
  cases phase with
  | testEmpty =>
      simp only [allocStep]
      split <;> simp [LockedClientPc.remaining, AllocPhase.remaining]
  | first =>
      simp only [allocStep]
      split <;> simp [LockedClientPc.remaining, AllocPhase.remaining, ListOp.remaining]
  | del slot op =>
      exact Memory.listStep_lowers LockedClientPc.remaining 19 (fun _ => rfl)
        (Nat.le_refl 19) rfl
  | memset slot word rest =>
      cases rest <;> simp [allocStep, LockedClientPc.remaining, AllocPhase.remaining]
  | unlock result =>
      cases result <;> simp [allocStep, LockedClientPc.remaining, AllocPhase.remaining]
  | _ => simp [allocStep, LockedClientPc.remaining, AllocPhase.remaining]

theorem enqueueStep_lowers (memory : Memory) (desc : TaskDesc) (accel : AccelIndex) (slot : Slot)
    (phase : EnqueuePhase) :
    (enqueueStep memory desc accel slot phase).2.remaining < phase.remaining := by
  cases phase with
  | add op =>
      exact Memory.listStep_lowers LockedClientPc.remaining 1 (fun _ => rfl) (Nat.le_refl 1) rfl
  | unlock => simp [enqueueStep, LockedClientPc.remaining, EnqueuePhase.remaining]

theorem freeStep_lowers (memory : Memory) (desc : TaskDesc) (accel : AccelIndex) (slot : Slot)
    (ret : Int) (phase : FreePhase) :
    (freeStep memory desc accel slot ret phase).2.remaining < phase.remaining := by
  cases phase with
  | add op =>
      exact Memory.listStep_lowers LockedClientPc.remaining 1 (fun _ => rfl) (Nat.le_refl 1) rfl
  | writeState =>
      simp [freeStep, LockedClientPc.remaining, FreePhase.remaining, ListOp.remaining]
  | unlock => simp [freeStep, LockedClientPc.remaining, FreePhase.remaining]

theorem dequeueStep_lowers (memory : Memory) (accel : AccelIndex) (phase : DequeuePhase) :
    (dequeueStep memory accel phase).2.remaining < phase.remaining := by
  cases phase with
  | testEmpty =>
      simp only [dequeueStep]
      split <;> simp [LockedWorkerPc.remaining, DequeuePhase.remaining]
  | first =>
      simp only [dequeueStep]
      split <;> simp [LockedWorkerPc.remaining, DequeuePhase.remaining, ListOp.remaining]
  | del slot op =>
      exact Memory.listStep_lowers LockedWorkerPc.remaining 6 (fun _ => rfl) (Nat.le_refl 6) rfl
  | add slot op =>
      exact Memory.listStep_lowers LockedWorkerPc.remaining 1 (fun _ => rfl) (Nat.le_refl 1) rfl
  | unlock result =>
      cases result <;> simp [dequeueStep, LockedWorkerPc.remaining, DequeuePhase.remaining]

theorem unlinkStep_lowers (memory : Memory) (accel : AccelIndex) (slot : Slot)
    (phase : UnlinkPhase) :
    (unlinkStep memory accel slot phase).2.remaining < phase.remaining := by
  cases phase with
  | del op =>
      exact Memory.listStep_lowers LockedWorkerPc.remaining 1 (fun _ => rfl) (Nat.le_refl 1) rfl
  | unlock => simp [unlinkStep, LockedWorkerPc.remaining, UnlinkPhase.remaining]

theorem outsideStep_remaining {kernel : Kernel} {memory after : Memory} {now : UInt64}
    {thread : Nat} {input : ClientInput} {pc : ClientPc} {next : LockedClientPc}
    (taken : outsideStep kernel memory now thread input pc = some (after, next)) :
    next.remaining ≤ longestSection := by
  by_cases ordinary : pc.Ordinary
  · rw [outsideStep_ordinary ordinary, Option.map_eq_some_iff] at taken
    obtain ⟨⟨action, counterpart⟩, -, same⟩ := taken
    cases same
    exact Nat.zero_le _
  · cases pc with
    | accelInfo info accel =>
        simp only [outsideStep, Option.map_eq_some_iff, Prod.mk.injEq] at taken
        obtain ⟨_, -, -, rfl⟩ := taken
        exact (by decide : infoFields.length + 1 ≤ 27)
    | submit desc accel phase =>
        cases phase with
        | fill slot =>
            cases taken
            exact Nat.zero_le _
        | alloc =>
            simp only [outsideStep, Option.map_eq_some_iff, Prod.mk.injEq] at taken
            obtain ⟨_, -, -, rfl⟩ := taken
            exact Nat.le_refl 27
        | enqueue slot =>
            simp only [outsideStep, Option.map_eq_some_iff, Prod.mk.injEq] at taken
            obtain ⟨_, -, -, rfl⟩ := taken
            exact (by decide : 6 ≤ 27)
        | rollback slot ret =>
            simp only [outsideStep, Option.map_eq_some_iff, Prod.mk.injEq] at taken
            obtain ⟨_, -, -, rfl⟩ := taken
            exact (by decide : 7 ≤ 27)
        | _ => exact absurd trivial ordinary
    | _ => exact absurd trivial ordinary

theorem outsideWorker_remaining {kernel : Kernel} {memory after : Memory} {now : UInt64}
    {expired : Bool} {accel : AccelIndex} {pc : WorkerPc} {next : LockedWorkerPc}
    (taken : lockedWorkerStep kernel memory now expired accel (.outside pc) =
      some (after, next)) : next.remaining ≤ longestSection := by
  by_cases ordinary : pc.Ordinary
  · rw [lockedWorkerStep_ordinary ordinary, Option.map_eq_some_iff] at taken
    obtain ⟨⟨action, counterpart⟩, -, same⟩ := taken
    cases same
    exact Nat.zero_le _
  · cases pc with
    | testQueue =>
        simp only [lockedWorkerStep] at taken
        split at taken <;> cases taken <;> exact Nat.zero_le _
    | dequeue =>
        simp only [lockedWorkerStep, Option.map_eq_some_iff, Prod.mk.injEq] at taken
        obtain ⟨_, -, -, rfl⟩ := taken
        exact (by decide : 14 ≤ 27)
    | exec slot phase =>
        cases phase with
        | raiseLoad =>
            cases taken
            exact Nat.zero_le _
        | lowerLoad =>
            cases taken
            exact Nat.zero_le _
        | unlink =>
            simp only [lockedWorkerStep, Option.map_eq_some_iff, Prod.mk.injEq] at taken
            obtain ⟨_, -, -, rfl⟩ := taken
            exact (by decide : 7 ≤ 27)
        | _ => exact absurd trivial ordinary
    | _ => exact absurd trivial ordinary

/-- A client's step inside a section is one of those left; a section it enters is no longer
than the longest. -/
theorem lockedClientStep_remaining {kernel : Kernel} {memory after : Memory} {now : UInt64}
    {thread : Nat} {input : ClientInput} {pc next : LockedClientPc}
    (taken : lockedClientStep kernel memory now thread input pc = some (after, next)) :
    (pc.lock? = none → next.remaining ≤ longestSection) ∧
      (pc.lock? ≠ none → next.remaining < pc.remaining) := by
  cases input with
  | call call copied =>
      cases pc with
      | outside pc =>
          simp only [lockedClientStep, Option.map_eq_some_iff, Prod.exists, Prod.mk.injEq] at taken
          obtain ⟨action, counterpart, -, -, rfl⟩ := taken
          exact ⟨fun _ => Nat.zero_le _, fun inside => absurd rfl inside⟩
      | _ => cases taken
  | advance choice =>
      cases pc with
      | outside pc => exact ⟨fun _ => outsideStep_remaining taken, fun inside => absurd rfl inside⟩
      | alloc desc accel phase =>
          refine ⟨fun outside => (by cases outside), fun _ => ?_⟩
          have lower := allocStep_lowers memory desc accel phase
          rwa [Option.some.inj taken] at lower
      | fill desc accel slot field rest =>
          refine ⟨fun _ => ?_, fun inside => absurd rfl inside⟩
          cases rest <;> cases taken <;> exact Nat.zero_le _
      | enqueue desc accel slot phase =>
          refine ⟨fun outside => (by cases outside), fun _ => ?_⟩
          have lower := enqueueStep_lowers memory desc accel slot phase
          rwa [Option.some.inj taken] at lower
      | free desc accel slot ret phase =>
          refine ⟨fun outside => (by cases outside), fun _ => ?_⟩
          have lower := freeStep_lowers memory desc accel slot ret phase
          rwa [Option.some.inj taken] at lower
      | info info accel rest =>
          refine ⟨fun outside => (by cases outside), fun _ => ?_⟩
          cases rest <;> cases taken <;> simp [LockedClientPc.remaining]
      | crashed => cases taken

/-- The same for a worker. -/
theorem lockedWorkerStep_remaining {kernel : Kernel} {memory after : Memory} {now : UInt64}
    {expired : Bool} {accel : AccelIndex} {pc next : LockedWorkerPc}
    (taken : lockedWorkerStep kernel memory now expired accel pc = some (after, next)) :
    (pc.lock? accel = none → next.remaining ≤ longestSection) ∧
      (pc.lock? accel ≠ none → next.remaining < pc.remaining) := by
  cases pc with
  | outside pc =>
      exact ⟨fun _ => outsideWorker_remaining taken, fun inside => absurd rfl inside⟩
  | dequeue phase =>
      refine ⟨fun outside => (by cases outside), fun _ => ?_⟩
      have lower := dequeueStep_lowers memory accel phase
      rwa [Option.some.inj taken] at lower
  | unlink slot phase =>
      refine ⟨fun outside => (by cases outside), fun _ => ?_⟩
      have lower := unlinkStep_lowers memory accel slot phase
      rwa [Option.some.inj taken] at lower
  | raiseLoad slot loaded =>
      cases taken
      exact ⟨fun _ => Nat.zero_le _, fun inside => absurd rfl inside⟩
  | lowerLoad slot loaded =>
      cases taken
      exact ⟨fun _ => Nat.zero_le _, fun inside => absurd rfl inside⟩
  | crashed => cases taken

/-! ## Over whole runs -/

section Runs

variable {kernel : Kernel} {locked next : Locked} {event : LockedEvent} {label : Label}

/-- A step is one of those left of its own thread, and of no other. -/
theorem remaining_of_step
    (taken : (lockedMachine kernel).step label locked = some (event, next)) (actor : Actor) :
    (event.actor ≠ actor → next.remaining actor = locked.remaining actor) ∧
      (locked.inside actor = none → event.actor = actor →
        next.remaining actor ≤ longestSection) ∧
      (locked.inside actor ≠ none → event.actor = actor →
        next.remaining actor < locked.remaining actor) := by
  cases lockedStepped_of_step taken with
  | client thread input memory pc moved =>
      have left := lockedClientStep_remaining moved
      refine ⟨fun foreign => ?_, ?_, ?_⟩
      · cases actor with
        | client other =>
            have different : other ≠ thread := fun same => foreign (by rw [same])
            simp [Locked.remaining, different]
        | _ => rfl
      · rintro outside rfl
        simpa [Locked.remaining] using left.1 outside
      · rintro inside rfl
        simpa [Locked.remaining] using left.2 inside
  | worker accel expired memory pc moved =>
      have left := lockedWorkerStep_remaining moved
      refine ⟨fun foreign => ?_, ?_, ?_⟩
      · cases actor with
        | worker other =>
            have different : other ≠ accel := fun same => foreign (by rw [same])
            simp [Locked.remaining, different]
        | _ => rfl
      · rintro outside rfl
        simpa [Locked.remaining] using left.1 outside
      · rintro inside rfl
        simpa [Locked.remaining] using left.2 inside
  | _ =>
      -- The thread that stops the workers and the clock are never in a section.
      refine ⟨fun _ => by cases actor <;> rfl, ?_, ?_⟩
      · rintro - rfl
        exact Nat.zero_le _
      · rintro inside rfl
        exact absurd rfl inside

/-- Nobody ever has more steps left than the longest section has. -/
theorem remaining_le_of_run {history : List LockedEvent}
    (run : (lockedMachine kernel).Run history locked) (actor : Actor) :
    locked.remaining actor ≤ longestSection := by
  refine run.invariant (fun _ locked => locked.remaining actor ≤ longestSection) ?_ ?_
  · rintro _ ⟨ticks, links, -, rfl⟩
    cases actor <;> exact Nat.zero_le _
  · intro history locked label event next _ bounded taken
    obtain ⟨foreign, entering, inside⟩ := remaining_of_step taken actor
    by_cases own : event.actor = actor
    · by_cases outside : locked.inside actor = none
      · exact entering outside own
      · exact (Nat.le_of_lt (inside outside own)).trans bounded
    · rw [foreign own]
      exact bounded

/-- A thread inside a section can take its next step. -/
theorem enabled_inside {actor : Actor} {lock : Lock} (isInside : locked.inside actor = some lock) :
    ∃ label event next, (lockedMachine kernel).step label locked = some (event, next) ∧
      event.actor = actor := by
  cases actor with
  | client thread =>
      have enabled : (lockedClientStep kernel locked.memory locked.jiffies thread (.advance true)
          (locked.clients thread)).isSome := by
        cases pc : locked.clients thread <;> simp_all [Locked.inside, LockedClientPc.lock?,
          lockedClientStep]
      obtain ⟨⟨memory, pc⟩, moved⟩ := Option.isSome_iff_exists.mp enabled
      have taken : (lockedMachine kernel).step (.client thread (.advance true)) locked =
          some (⟨.client thread, pc.outside?⟩, { locked with
            memory := memory
            clients := Function.update locked.clients thread pc }) := by
        simp [lockedMachine, lockedStep, moved]
      exact ⟨_, _, _, taken, rfl⟩
  | worker accel =>
      have enabled : (lockedWorkerStep kernel locked.memory locked.jiffies false accel
          (locked.workers accel)).isSome := by
        cases pc : locked.workers accel <;> simp_all [Locked.inside, LockedWorkerPc.lock?,
          lockedWorkerStep]
      obtain ⟨⟨memory, pc⟩, moved⟩ := Option.isSome_iff_exists.mp enabled
      have taken : (lockedMachine kernel).step (.worker accel false) locked =
          some (⟨.worker accel, none⟩, { locked with
            memory := memory
            workers := Function.update locked.workers accel pc }) := by
        simp [lockedMachine, lockedStep, moved]
      exact ⟨_, _, _, taken, rfl⟩
  | stopper => cases isInside
  | clock => cases isInside

end Runs

/-- The holder of a lock can take its next step, and takes no more of its own steps with the lock
than the longest section has, whatever the other threads do. -/
def GivesBack (kernel : Kernel) (locked : Locked) (lock : Lock) (holder : Actor) : Prop :=
  (∃ label event next, (lockedMachine kernel).step label locked = some (event, next) ∧
    event.actor = holder) ∧
    ∀ events finish, (lockedMachine kernel).StepsWhere
        (fun state _ => state.memory.owner lock = some holder) locked events finish →
      events.countP (fun event => event.actor = holder) ≤ longestSection

/-- Every holder does. -/
theorem gives_back {kernel : Kernel} {history : List LockedEvent} {locked : Locked}
    (run : (lockedMachine kernel).Run history locked) {holder : Actor} {lock : Lock}
    (held : locked.memory.owner lock = some holder) : GivesBack kernel locked lock holder := by
  have owners {history : List LockedEvent} {state : Locked}
      (reached : (lockedMachine kernel).Run history state)
      (owned : state.memory.owner lock = some holder) : state.inside holder = some lock := by
    obtain ⟨trace, system, -, realizes⟩ := realizes_of_run reached
    exact (realizes.exclusive holder lock).mpr owned
  refine ⟨enabled_inside (owners run held), fun events finish guarded => ?_⟩
  have spent := guarded.spends (fun event => event.actor = holder) (fun _ => True)
    (fun state => state.remaining holder) ?_ run trivial
  · exact (Nat.le_add_left _ _).trans (spent.2.trans (remaining_le_of_run run holder))
  · intro history state label event next reached _ owned taken
    refine ⟨trivial, ?_⟩
    obtain ⟨foreign, -, inside⟩ := remaining_of_step taken holder
    by_cases own : event.actor = holder
    · have lower := inside (by rw [owners reached owned]; simp) own
      simp only [own, decide_true, Bool.toNat_true]
      exact lower
    · simp only [own, decide_false, Bool.toNat_false, Nat.add_zero]
      exact Nat.le_of_eq (foreign own)

/-- Whoever holds a lock can take its next step, and gives the lock back within the length of
the longest section, counted in its own steps, whatever the other threads do. -/
theorem locks_given_back (kernel : Kernel) (history : List LockedEvent) (locked : Locked)
    (run : (lockedMachine kernel).Run history locked) (actor : Actor) (lock : Lock)
    (held : locked.memory.owner lock = some actor) :
    (∃ label event next, (lockedMachine kernel).step label locked = some (event, next) ∧
      event.actor = actor) ∧
      ∀ events finish, (lockedMachine kernel).StepsWhere
          (fun state _ => state.memory.owner lock = some actor) locked events finish →
        events.countP (fun event => event.actor = actor) ≤ longestSection :=
  gives_back run held

theorem locks_given_back_half_queued : ∃ history locked,
    (lockedMachine Kernel.hz1000).execute halfQueuedSchedule (lockedInitial 0 bootedLinks) =
      some (history, locked) ∧
    locked.memory.owner (.accel 0) = some (.client 0) ∧
    (∃ label event next, (lockedMachine Kernel.hz1000).step label locked = some (event, next) ∧
      event.actor = .client 0) ∧
      ∀ events finish, (lockedMachine Kernel.hz1000).StepsWhere
          (fun state _ => state.memory.owner (.accel 0) = some (.client 0)) locked events finish →
        events.countP (fun event => event.actor = .client 0) ≤ longestSection := by
  obtain ⟨history, locked, executed, run, -, owner⟩ := halfQueued_executed
  exact ⟨history, locked, executed, owner,
    locks_given_back Kernel.hz1000 history locked run (.client 0) (.accel 0) owner⟩

end CortexForge.Concurrent
