import CortexForge.Concurrent.Waiting

/-!
Contract: the ranks, with locks.

The ranks of `Concurrent.Progress` and `Concurrent.Service` charge a step of a program with
all the steps that the driver with its locks takes for it. Here they are carried over to that
driver: a thread inside a section has paid for the accesses it has made, and owes the rest. So
the bounds count every single access.

Owns: what a worker has still to take of the step it is at, what it owes, the steps left of a
call, and that every step of a thread is among what it owes.

Does not own: the ranks.
-/

namespace CortexForge.Concurrent

open CortexForge.Foundation
open CortexForge.Foundation.Links (ListOp)

/-! ## Steps left of a worker's step -/

/-- What a worker has still to take of the steps its place stands for. -/
def LockedWorkerPc.pending : LockedWorkerPc → Nat
  | .outside pc => pc.cost
  | .dequeue phase => phase.remaining
  | .raiseLoad _ _ | .lowerLoad _ _ => 1
  | .unlink _ phase => phase.remaining
  | .crashed => 0

/-- A step is one of those pending. If the worker gets on in its program it was the last, and the
steps of its new place are pending. -/
def Pays (before after : LockedWorkerPc) : Prop :=
  (after.view = before.view ∧ after.pending < before.pending) ∨
    (after.view ≠ before.view ∧ after.pending = after.view.cost)

theorem LockedWorkerPc.pending_pos {pc : LockedWorkerPc} (alive : pc ≠ .crashed) :
    0 < pc.pending := by
  cases pc with
  | outside pc => exact pc.cost_pos
  | dequeue phase => cases phase <;> simp [pending, DequeuePhase.remaining]
  | unlink slot phase => cases phase <;> simp [pending, UnlinkPhase.remaining]
  | crashed => exact absurd rfl alive
  | _ => exact Nat.one_pos

section Pays

variable {kernel : Kernel} {memory after : Memory} {now : UInt64} {expired : Bool}
  {accel : AccelIndex}

theorem execStep_moves (kernel : Kernel) (dev : Dev) (now : UInt64) (accel : AccelIndex)
    (slot : Slot) (phase : WorkPhase) :
    (execStep kernel dev now accel slot phase).2 ≠ .exec slot phase := by
  cases phase <;> simp only [execStep] <;> (try split) <;> simp

/-- A worker does not stay where it is. -/
theorem workerStep_moves {dev : Dev} {pc next : WorkerPc} {action : Action}
    (taken : workerStep kernel dev now expired accel pc = some (action, next)) : next ≠ pc := by
  cases workerTaken_of_step taken with
  | exec slot phase => exact execStep_moves kernel dev now accel slot phase
  | _ => simp

theorem Memory.listStep_place {Pc : Type} (memory : Memory) (op : ListOp ListNode)
    (going : ListOp ListNode → Pc) (past crashed : Pc) :
    (∃ next, (memory.listStep op going past crashed).2 = going next) ∨
      (memory.listStep op going past crashed).2 = past ∨
      (memory.listStep op going past crashed).2 = crashed := by
  cases stepped : op.step memory.links with
  | none => exact .inr (.inr (by simp only [Memory.listStep, stepped]))
  | some outcome =>
      obtain ⟨links, next⟩ := outcome
      cases next with
      | none => exact .inr (.inl (by simp only [Memory.listStep, stepped]))
      | some next => exact .inl ⟨next, by simp only [Memory.listStep, stepped]⟩

theorem dequeueStep_place (memory : Memory) (accel : AccelIndex) (phase : DequeuePhase) :
    (∃ next, (dequeueStep memory accel phase).2 = .dequeue next) ∨
      (dequeueStep memory accel phase).2 = .crashed ∨ ∃ result, phase = .unlock result := by
  cases phase with
  | testEmpty =>
      simp only [dequeueStep]
      split <;> exact .inl ⟨_, rfl⟩
  | first =>
      simp only [dequeueStep]
      split
      · exact .inl ⟨_, rfl⟩
      · exact .inr (.inl rfl)
  | del slot op =>
      rcases memory.listStep_place op _ _ _ with ⟨next, goes⟩ | passes | crashes
      · exact .inl ⟨_, goes⟩
      · exact .inl ⟨_, passes⟩
      · exact .inr (.inl crashes)
  | add slot op =>
      rcases memory.listStep_place op _ _ _ with ⟨next, goes⟩ | passes | crashes
      · exact .inl ⟨_, goes⟩
      · exact .inl ⟨_, passes⟩
      · exact .inr (.inl crashes)
  | unlock result => exact .inr (.inr ⟨result, rfl⟩)

theorem unlinkStep_place (memory : Memory) (accel : AccelIndex) (slot : Slot)
    (phase : UnlinkPhase) :
    (∃ next, (unlinkStep memory accel slot phase).2 = .unlink slot next) ∨
      (unlinkStep memory accel slot phase).2 = .crashed ∨ phase = .unlock := by
  cases phase with
  | del op =>
      rcases memory.listStep_place op _ _ _ with ⟨next, goes⟩ | passes | crashes
      · exact .inl ⟨_, goes⟩
      · exact .inl ⟨_, passes⟩
      · exact .inr (.inl crashes)
  | unlock => exact .inr (.inr rfl)

theorem pays_outside {before next : WorkerPc} (different : next ≠ before) :
    Pays (.outside before) (.outside next) :=
  .inr ⟨different, rfl⟩

theorem pays_dequeue (phase : DequeuePhase)
    (alive : (dequeueStep memory accel phase).2 ≠ .crashed) :
    Pays (.dequeue phase) (dequeueStep memory accel phase).2 := by
  have lower := dequeueStep_lowers memory accel phase
  rcases dequeueStep_place memory accel phase with
    ⟨next, stays⟩ | crashes | ⟨result, rfl⟩
  · rw [stays] at lower ⊢
    exact .inl ⟨rfl, lower⟩
  · exact absurd crashes alive
  · refine .inr ?_
    cases result <;>
      exact ⟨by simp [dequeueStep, LockedWorkerPc.view], rfl⟩

theorem pays_unlink (slot : Slot) (phase : UnlinkPhase)
    (alive : (unlinkStep memory accel slot phase).2 ≠ .crashed) :
    Pays (.unlink slot phase) (unlinkStep memory accel slot phase).2 := by
  have lower := unlinkStep_lowers memory accel slot phase
  rcases unlinkStep_place memory accel slot phase with
    ⟨next, stays⟩ | crashes | rfl
  · rw [stays] at lower ⊢
    exact .inl ⟨rfl, lower⟩
  · exact absurd crashes alive
  · exact .inr ⟨by simp [unlinkStep, LockedWorkerPc.view], rfl⟩

/-- Every step of a worker that does not crash pays. -/
theorem lockedWorkerStep_pays {pc next : LockedWorkerPc}
    (taken : lockedWorkerStep kernel memory now expired accel pc = some (after, next))
    (alive : next ≠ .crashed) : Pays pc next := by
  cases pc with
  | outside pc =>
      by_cases ordinary : pc.Ordinary
      · rw [lockedWorkerStep_ordinary ordinary, Option.map_eq_some_iff] at taken
        obtain ⟨⟨action, later⟩, moved, same⟩ := taken
        cases same
        exact pays_outside (workerStep_moves moved)
      · cases pc with
        | testQueue =>
            simp only [lockedWorkerStep] at taken
            split at taken <;> cases taken <;> exact pays_outside (by simp)
        | dequeue =>
            simp only [lockedWorkerStep, Option.map_eq_some_iff, Prod.mk.injEq] at taken
            obtain ⟨_, -, -, rfl⟩ := taken
            exact .inl ⟨rfl, (by decide : 14 < 15)⟩
        | exec slot phase =>
            cases phase with
            | raiseLoad =>
                cases taken
                exact .inl ⟨rfl, Nat.one_lt_two⟩
            | lowerLoad =>
                cases taken
                exact .inl ⟨rfl, Nat.one_lt_two⟩
            | unlink =>
                simp only [lockedWorkerStep, Option.map_eq_some_iff, Prod.mk.injEq] at taken
                obtain ⟨_, -, -, rfl⟩ := taken
                exact .inl ⟨rfl, (by decide : 7 < 8)⟩
            | _ => exact absurd trivial ordinary
        | _ => exact absurd trivial ordinary
  | dequeue phase =>
      have moved := @pays_dequeue memory accel phase
      rw [Option.some.inj taken] at moved
      exact moved alive
  | unlink slot phase =>
      have moved := @pays_unlink memory accel slot phase
      rw [Option.some.inj taken] at moved
      exact moved alive
  | raiseLoad slot loaded =>
      cases taken
      exact .inr ⟨by simp [LockedWorkerPc.view], rfl⟩
  | lowerLoad slot loaded =>
      cases taken
      exact .inr ⟨by simp [LockedWorkerPc.view], rfl⟩
  | crashed => cases taken

/-- A worker that has left takes no step. -/
theorem view_ne_exited {pc next : LockedWorkerPc}
    (taken : lockedWorkerStep kernel memory now expired accel pc = some (after, next)) :
    pc.view ≠ .exited := by
  intro exited
  cases pc with
  | outside pc =>
      cases exited
      cases taken
  | _ => cases exited

end Pays

/-! ## What a worker owes -/

section Steps

variable {kernel : Kernel} {locked next : Locked} {event : LockedEvent} {label : Label}

/-- No more is ever pending than the step of the program costs. -/
theorem pending_le_of_run {history : List LockedEvent}
    (run : (lockedMachine kernel).Run history locked) (accel : AccelIndex) :
    (locked.workers accel).pending ≤ (locked.workers accel).view.cost := by
  refine run.invariant (fun _ locked =>
    (locked.workers accel).pending ≤ (locked.workers accel).view.cost) ?_ ?_
  · rintro _ ⟨ticks, links, -, rfl⟩
    exact le_rfl
  · intro history locked label event next reached bounded taken
    obtain ⟨_, _, coarse, realizes⟩ := realizes_of_run reached
    obtain ⟨_, realized, -⟩ := (realizes.matched coarse taken).exists_step
    rcases worker_of_step taken accel with ⟨-, expired, moved⟩ | ⟨-, stays⟩
    · rcases lockedWorkerStep_pays moved (realized.worker_ne_crashed accel) with
        ⟨sameView, lower⟩ | ⟨-, fresh⟩
      · rw [sameView]
        exact lower.le.trans bounded
      · exact fresh.le
    · rwa [stays]

end Steps

/-- The step of a worker, outside the places whose steps are free. -/
def charged (accel : AccelIndex) (free : WorkerPc → Bool) (locked : Locked) (event : LockedEvent) :
    Bool :=
  decide (event.actor = .worker accel) && !free (locked.workers accel).view

/-- A rank of the machine without locks that pays for every step of a worker outside the free
places, as long as the steps are `Good`. -/
structure Charges (kernel : Kernel) (accel : AccelIndex) (free : WorkerPc → Bool)
    (Good : Locked → LockedEvent → Prop) (Owes : Nat → System → Prop) : Prop where
  free_cost : ∀ pc, free pc = true → pc.cost = 1
  affords : ∀ {left system}, Owes left system → system.workers accel ≠ .exited →
    (system.workers accel).cost ≤ left
  lowers : ∀ {trace system left locked next reached} {label event step action},
    (machine kernel).Run trace system → Owes left system → Realizes locked system →
    Realizes next reached → Good locked event →
    (lockedMachine kernel).step label locked = some (event, next) →
    (machine kernel).step step system = some (⟨event.actor, action⟩, reached) →
    ∃ after, Owes after reached ∧
      after + (if event.actor = .worker accel ∧ free (system.workers accel) = false then
        (system.workers accel).cost else 0) ≤ left

/-- The rank of the state that is realized, less what is paid inside the section. -/
def Owing (kernel : Kernel) (accel : AccelIndex) (Owes : Nat → System → Prop) (owed : Nat)
    (locked : Locked) : Prop :=
  ∃ trace system left, (machine kernel).Run trace system ∧ Realizes locked system ∧
    Owes left system ∧
    left + (locked.workers accel).pending ≤ owed + (locked.workers accel).view.cost

section Owing

variable {kernel : Kernel} {accel : AccelIndex} {free : WorkerPc → Bool}
  {Good : Locked → LockedEvent → Prop} {Owes : Nat → System → Prop}

/-- At the start a worker owes its rank. -/
theorem Owing.start {history : List LockedEvent} {locked : Locked} {trace : List Event}
    {system : System} {left : Nat} (reached : (lockedMachine kernel).Run history locked)
    (run : (machine kernel).Run trace system) (realizes : Realizes locked system)
    (owes : Owes left system) : Owing kernel accel Owes left locked :=
  ⟨trace, system, left, run, realizes, owes,
    Nat.add_le_add_left (pending_le_of_run reached accel) left⟩

section Own

variable {owed left : Nat} {locked next : Locked} {event : LockedEvent} {label : Label}
  {trace : List Event} {system reached : System}

/-- Inside a section the machine without locks does not move, and the step is paid out of what
is pending. -/
theorem Owing.pay (charges : Charges kernel accel free Good Owes)
    (run : (machine kernel).Run trace reached) (realized : Realizes next reached)
    (owes : Owes left reached)
    (bound : left + (locked.workers accel).pending ≤ owed + (locked.workers accel).view.cost)
    (alive : locked.workers accel ≠ .crashed)
    (notExited : (locked.workers accel).view ≠ .exited)
    (sameView : (next.workers accel).view = (locked.workers accel).view)
    (lower : (next.workers accel).pending < (locked.workers accel).pending) :
    ∃ after, Owing kernel accel Owes after next ∧
      after + (charged accel free locked event).toNat ≤ owed := by
  have positive := LockedWorkerPc.pending_pos alive
  have afforded := charges.affords owes (by rwa [realized.views accel, sameView])
  rw [realized.views accel, sameView] at afforded
  refine ⟨owed - 1, ⟨trace, reached, left, run, realized, owes, ?_⟩, ?_⟩
  · rw [sameView]
    omega
  · have atMostOne := Bool.toNat_le (charged accel free locked event)
    omega

/-- With the last step of a section, and outside, it does, and the rank goes down by what the
step of the program costs. -/
theorem Owing.advance (charges : Charges kernel accel free Good Owes)
    (run : (machine kernel).Run trace system) (realizes : Realizes locked system)
    (realized : Realizes next reached) (owes : Owes left system) (good : Good locked event)
    (bound : left + (locked.workers accel).pending ≤ owed + (locked.workers accel).view.cost)
    (taken : (lockedMachine kernel).step label locked = some (event, next))
    (own : event.actor = .worker accel) {step : Label} {action : Action}
    (stepped : (machine kernel).step step system = some (⟨event.actor, action⟩, reached))
    (fresh : (next.workers accel).pending = (next.workers accel).view.cost) :
    ∃ after, Owing kernel accel Owes after next ∧
      after + (charged accel free locked event).toNat ≤ owed := by
  have positive := LockedWorkerPc.pending_pos (realizes.worker_ne_crashed accel)
  obtain ⟨after, owesAfter, lowered⟩ :=
    charges.lowers run owes realizes realized good taken stepped
  refine ⟨after, ⟨_, reached, after, run.extend (Machine.Steps.single step stepped), realized,
    owesAfter, fresh ▸ le_rfl⟩, ?_⟩
  rw [realizes.views accel] at lowered
  cases isFree : free (locked.workers accel).view with
  | true =>
      have single := charges.free_cost _ isFree
      simp only [charged, isFree, Bool.not_true, Bool.and_false, Bool.toNat_false]
      omega
  | false =>
      simp only [isFree, own, true_and, ↓reduceIte] at lowered
      simp only [charged, own, isFree, decide_true, Bool.not_false, Bool.and_true,
        Bool.toNat_true]
      omega

/-- A step of the worker. -/
theorem Owing.step_own (charges : Charges kernel accel free Good Owes)
    (owing : Owing kernel accel Owes owed locked) (good : Good locked event)
    (taken : (lockedMachine kernel).step label locked = some (event, next))
    (own : event.actor = .worker accel) {expired : Bool}
    (moved : lockedWorkerStep kernel locked.memory locked.jiffies expired accel
      (locked.workers accel) = some (next.memory, next.workers accel)) :
    ∃ after, Owing kernel accel Owes after next ∧
      after + (charged accel free locked event).toNat ≤ owed := by
  obtain ⟨trace, system, left, run, realizes, owes, bound⟩ := owing
  obtain ⟨reached, realized, answer⟩ := (realizes.matched run taken).exists_step
  have view := realizes.views accel
  have viewAfter := realized.views accel
  rcases lockedWorkerStep_pays moved (realized.worker_ne_crashed accel) with
    ⟨sameView, lower⟩ | ⟨different, fresh⟩
  · have silent : reached = system := by
      refine answer.resolve_right ?_
      rintro ⟨step, action, stepped⟩
      obtain ⟨_, steps⟩ := (stepped_of_step stepped).workerStep_of_actor own
      exact workerStep_moves steps (by rw [viewAfter, view, sameView])
    subst silent
    exact Owing.pay charges run realized owes bound (realizes.worker_ne_crashed accel)
      (view_ne_exited moved) sameView lower
  · have moves : reached ≠ system := by
      rintro rfl
      exact different (viewAfter.symm.trans view)
    obtain ⟨step, action, stepped⟩ := answer.resolve_left moves
    exact Owing.advance charges run realizes realized owes good bound taken own stepped fresh

end Own

/-- As long as the worker owes and has not left, something is left to pay. -/
theorem Owing.left_pos (charges : Charges kernel accel free Good Owes) {owed : Nat}
    {locked : Locked} (owing : Owing kernel accel Owes owed locked)
    (notExited : ∀ {trace left system}, (machine kernel).Run trace system → Owes left system →
      system.workers accel ≠ .exited) : 0 < owed := by
  obtain ⟨trace, system, left, run, realizes, owes, bound⟩ := owing
  have positive := LockedWorkerPc.pending_pos (realizes.worker_ne_crashed accel)
  have afforded := charges.affords owes (notExited run owes)
  rw [realizes.views accel] at afforded
  omega

/-- Every step leaves the worker owing, and a charged step is among those owed. -/
theorem Owing.step (charges : Charges kernel accel free Good Owes) {owed : Nat}
    {locked next : Locked} {event : LockedEvent} {label : Label}
    (owing : Owing kernel accel Owes owed locked) (good : Good locked event)
    (taken : (lockedMachine kernel).step label locked = some (event, next)) :
    ∃ after, Owing kernel accel Owes after next ∧
      after + (charged accel free locked event).toNat ≤ owed := by
  rcases worker_of_step taken accel with ⟨own, expired, moved⟩ | ⟨foreign, stays⟩
  · exact owing.step_own charges good taken own moved
  · have unpaid : (charged accel free locked event).toNat = 0 := by simp [charged, foreign]
    rw [unpaid]
    obtain ⟨trace, system, left, run, realizes, owes, bound⟩ := owing
    obtain ⟨reached, realized, rfl | ⟨step, action, stepped⟩⟩ :=
      (realizes.matched run taken).exists_step
    · exact ⟨owed, ⟨trace, reached, left, run, realized, owes, by rwa [stays]⟩, le_rfl⟩
    · obtain ⟨after, owesAfter, lowered⟩ :=
        charges.lowers run owes realizes realized good taken stepped
      rw [if_neg fun both => foreign both.1] at lowered
      refine ⟨owed, ⟨_, reached, after, run.extend (Machine.Steps.single step stepped), realized,
        owesAfter, ?_⟩, le_rfl⟩
      rw [stays]
      omega

/-- Where no step is free, the steps of the worker are counted. -/
theorem Owing.spends (charges : Charges kernel accel (fun _ => false) Good Owes) {owed : Nat}
    {history events : List LockedEvent} {locked finish : Locked}
    (run : (lockedMachine kernel).Run history locked)
    (owing : Owing kernel accel Owes owed locked)
    (guarded : (lockedMachine kernel).StepsWhere Good locked events finish) :
    ∃ left, Owing kernel accel Owes left finish ∧
      left + events.countP (fun event => event.actor = .worker accel) ≤ owed := by
  refine guarded.spends_owed _ (Owing kernel accel Owes) ?_ run owing
  intro history left state label event next _ owes good taken
  simpa [charged] using owes.step charges good taken

end Owing

/-! ## The steps left of a call -/

/-- The most steps a thread takes until its call has returned. -/
def LockedClientPc.stepsLeft : LockedClientPc → Nat
  | .outside pc => pc.stepsLeft
  | .alloc _ _ phase => phase.remaining + 21
  | .fill _ _ _ _ rest => rest.length + 15
  | .enqueue _ _ _ phase => phase.remaining + 3
  | .free _ _ _ _ phase => phase.remaining
  | .info _ _ rest => rest.length + 2
  | .crashed => 0

/-- The thread is in its call still, or has returned from it. -/
def LockedClientPc.Calls (pc : LockedClientPc) : Prop :=
  pc.InCall ∨ ∃ reply, pc = .outside (.returned reply)

section Calls

variable {kernel : Kernel} {memory after : Memory} {now : UInt64} {thread : Nat}

theorem allocStep_place (memory : Memory) (desc : TaskDesc) (accel : AccelIndex)
    (phase : AllocPhase) :
    (∃ next, (allocStep memory desc accel phase).2 = .alloc desc accel next) ∨
      (allocStep memory desc accel phase).2 = .crashed ∨ ∃ result, phase = .unlock result := by
  cases phase with
  | testEmpty =>
      simp only [allocStep]
      split <;> exact .inl ⟨_, rfl⟩
  | first =>
      simp only [allocStep]
      split
      · exact .inl ⟨_, rfl⟩
      · exact .inr (.inl rfl)
  | del slot op =>
      rcases memory.listStep_place op _ _ _ with ⟨next, goes⟩ | passes | crashes
      · exact .inl ⟨_, goes⟩
      · exact .inl ⟨_, passes⟩
      · exact .inr (.inl crashes)
  | memset slot word rest => cases rest <;> exact .inl ⟨_, rfl⟩
  | unlock result => exact .inr (.inr ⟨result, rfl⟩)
  | _ => exact .inl ⟨_, rfl⟩

theorem enqueueStep_place (memory : Memory) (desc : TaskDesc) (accel : AccelIndex) (slot : Slot)
    (phase : EnqueuePhase) :
    (∃ next, (enqueueStep memory desc accel slot phase).2 = .enqueue desc accel slot next) ∨
      (enqueueStep memory desc accel slot phase).2 = .crashed ∨ phase = .unlock := by
  cases phase with
  | add op =>
      rcases memory.listStep_place op _ _ _ with ⟨next, goes⟩ | passes | crashes
      · exact .inl ⟨_, goes⟩
      · exact .inl ⟨_, passes⟩
      · exact .inr (.inl crashes)
  | unlock => exact .inr (.inr rfl)

theorem freeStep_place (memory : Memory) (desc : TaskDesc) (accel : AccelIndex) (slot : Slot)
    (ret : Int) (phase : FreePhase) :
    (∃ next, (freeStep memory desc accel slot ret phase).2 = .free desc accel slot ret next) ∨
      (freeStep memory desc accel slot ret phase).2 = .crashed ∨ phase = .unlock := by
  cases phase with
  | writeState => exact .inl ⟨_, rfl⟩
  | add op =>
      rcases memory.listStep_place op _ _ _ with ⟨next, goes⟩ | passes | crashes
      · exact .inl ⟨_, goes⟩
      · exact .inl ⟨_, passes⟩
      · exact .inr (.inl crashes)
  | unlock => exact .inr (.inr rfl)

/-- What a step inside a call does: it is one of those left, and the thread has returned or is
still in the call. -/
structure Advances (before after : LockedClientPc) : Prop where
  lowers : after.stepsLeft < before.stepsLeft
  calls : after.Calls

theorem advances_alloc (memory : Memory) (desc : TaskDesc) (accel : AccelIndex)
    (phase : AllocPhase) :
    Advances (.alloc desc accel phase) (allocStep memory desc accel phase).2 := by
  have lower := allocStep_lowers memory desc accel phase
  rcases allocStep_place memory desc accel phase with ⟨next, stays⟩ | crashes | ⟨result, rfl⟩
  · rw [stays] at lower ⊢
    exact ⟨Nat.add_lt_add_right lower 21, .inl trivial⟩
  · rw [crashes]
    exact ⟨Nat.add_pos_right _ (by decide), .inl trivial⟩
  · cases result with
    | none => exact ⟨Nat.succ_pos _, .inr ⟨_, rfl⟩⟩
    | some slot => exact ⟨Nat.lt_succ_self 21, .inl trivial⟩

theorem advances_enqueue (memory : Memory) (desc : TaskDesc) (accel : AccelIndex) (slot : Slot)
    (phase : EnqueuePhase) :
    Advances (.enqueue desc accel slot phase) (enqueueStep memory desc accel slot phase).2 := by
  have lower := enqueueStep_lowers memory desc accel slot phase
  rcases enqueueStep_place memory desc accel slot phase with ⟨next, stays⟩ | crashes | rfl
  · rw [stays] at lower ⊢
    exact ⟨Nat.add_lt_add_right lower 3, .inl trivial⟩
  · rw [crashes]
    exact ⟨Nat.add_pos_right _ (by decide), .inl trivial⟩
  · exact ⟨Nat.lt_succ_self 3, .inl trivial⟩

theorem advances_free (memory : Memory) (desc : TaskDesc) (accel : AccelIndex) (slot : Slot)
    (ret : Int) (phase : FreePhase) :
    Advances (.free desc accel slot ret phase) (freeStep memory desc accel slot ret phase).2 := by
  have lower := freeStep_lowers memory desc accel slot ret phase
  rcases freeStep_place memory desc accel slot ret phase with ⟨next, stays⟩ | crashes | rfl
  · rw [stays] at lower ⊢
    exact ⟨lower, .inl trivial⟩
  · rw [crashes] at lower ⊢
    exact ⟨lower, .inl trivial⟩
  · exact ⟨Nat.one_pos, .inr ⟨_, rfl⟩⟩

theorem advances_outside {choice : Bool} {pc : ClientPc} {next : LockedClientPc}
    (inCall : pc.InCall)
    (taken : outsideStep kernel memory now thread (.advance choice) pc = some (after, next)) :
    Advances (.outside pc) next := by
  by_cases ordinary : pc.Ordinary
  · rw [outsideStep_ordinary ordinary, Option.map_eq_some_iff] at taken
    obtain ⟨⟨action, later⟩, moved, same⟩ := taken
    cases same
    obtain ⟨lowered, calls⟩ := clientStep_stepsLeft inCall moved
    refine ⟨lowered, calls.imp id ?_⟩
    rintro ⟨reply, rfl⟩
    exact ⟨reply, rfl⟩
  · cases pc with
    | accelInfo info accel =>
        simp only [outsideStep, Option.map_eq_some_iff, Prod.mk.injEq] at taken
        obtain ⟨_, -, -, rfl⟩ := taken
        exact ⟨(by decide : infoFields.length + 2 < 11), .inl trivial⟩
    | submit desc accel phase =>
        cases phase with
        | fill slot =>
            cases taken
            exact ⟨(by decide : laterFields.length + 15 < 21), .inl trivial⟩
        | alloc =>
            simp only [outsideStep, Option.map_eq_some_iff, Prod.mk.injEq] at taken
            obtain ⟨_, -, -, rfl⟩ := taken
            exact ⟨(by decide : 48 < 49), .inl trivial⟩
        | enqueue slot =>
            simp only [outsideStep, Option.map_eq_some_iff, Prod.mk.injEq] at taken
            obtain ⟨_, -, -, rfl⟩ := taken
            exact ⟨(by decide : 9 < 10), .inl trivial⟩
        | rollback slot ret =>
            simp only [outsideStep, Option.map_eq_some_iff, Prod.mk.injEq] at taken
            obtain ⟨_, -, -, rfl⟩ := taken
            exact ⟨(by decide : 7 < 8), .inl trivial⟩
        | _ => exact absurd trivial ordinary
    | _ => exact absurd trivial ordinary

/-- Every step inside a call is one of those left. -/
theorem lockedClientStep_advances {input : ClientInput} {pc next : LockedClientPc}
    (inCall : pc.InCall)
    (taken : lockedClientStep kernel memory now thread input pc = some (after, next)) :
    Advances pc next := by
  cases input with
  | call call copied =>
      cases pc with
      | outside pc =>
          simp only [lockedClientStep, Option.map_eq_some_iff, Prod.exists, Prod.mk.injEq] at taken
          obtain ⟨action, later, moved, -, -⟩ := taken
          cases clientTaken_of_step moved with
          | enter _ _ _ resting =>
              rcases resting with rfl | ⟨reply, rfl⟩
              · exact inCall.elim
              · exact inCall.elim
      | _ => cases taken
  | advance choice =>
      cases pc with
      | outside pc => exact advances_outside inCall taken
      | alloc desc accel phase =>
          have moved := advances_alloc memory desc accel phase
          rwa [Option.some.inj taken] at moved
      | fill desc accel slot field rest =>
          cases rest <;> cases taken
          · exact ⟨(by decide : 14 < 15), .inl trivial⟩
          · exact ⟨by simp [LockedClientPc.stepsLeft], .inl trivial⟩
      | enqueue desc accel slot phase =>
          have moved := advances_enqueue memory desc accel slot phase
          rwa [Option.some.inj taken] at moved
      | free desc accel slot ret phase =>
          have moved := advances_free memory desc accel slot ret phase
          rwa [Option.some.inj taken] at moved
      | info info accel rest =>
          cases rest <;> cases taken
          · exact ⟨(by decide : 1 < 2), .inl trivial⟩
          · exact ⟨by simp [LockedClientPc.stepsLeft], .inl trivial⟩
      | crashed => cases taken

/-- A new call has no more steps left than the longest. -/
theorem lockedClientStep_call_le {call : Call} {copied : Bool} {pc next : LockedClientPc}
    (taken : lockedClientStep kernel memory now thread (.call call copied) pc =
      some (after, next)) : next.stepsLeft ≤ 522 := by
  cases pc with
  | outside pc =>
      simp only [lockedClientStep, Option.map_eq_some_iff, Prod.exists, Prod.mk.injEq] at taken
      obtain ⟨action, later, -, -, rfl⟩ := taken
      exact later.stepsLeft_le
  | _ => cases taken

/-- No call ever has more steps left than the longest. -/
theorem stepsLeft_le_of_run {history : List LockedEvent} {locked : Locked}
    (run : (lockedMachine kernel).Run history locked) (thread : Nat) :
    (locked.clients thread).stepsLeft ≤ 522 := by
  refine run.invariant (fun _ locked => (locked.clients thread).stepsLeft ≤ 522) ?_ ?_
  · rintro _ ⟨ticks, links, -, rfl⟩
    exact Nat.zero_le _
  · intro history locked label event next _ bounded taken
    rcases client_of_step taken thread with ⟨-, input, moved⟩ | ⟨-, stays⟩
    · by_cases inCall : (locked.clients thread).InCall
      · exact (lockedClientStep_advances inCall moved).lowers.le.trans bounded
      · cases input with
        | call call copied => exact lockedClientStep_call_le moved
        | advance choice =>
            cases place : locked.clients thread with
            | outside pc =>
                rw [place] at inCall moved
                cases pc with
                | idle => cases moved
                | returned reply => cases moved
                | _ => exact absurd trivial inCall
            | _ => exact absurd (place ▸ trivial) inCall
    · rwa [stays]

end Calls

end CortexForge.Concurrent
