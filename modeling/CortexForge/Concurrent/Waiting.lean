import CortexForge.Concurrent.Service
import CortexForge.Concurrent.Release

/-!
Contract: what a thread of the driver can be waiting for.

A client inside a call can take its next step, or it stands at a lock that another thread
holds. The same goes for a worker that has not left, as soon as its sleep has been ended. The
holder of the lock can take its next step and gives the lock back (`Concurrent.Release`), so
there are no chains of threads that wait for each other: nobody who holds a lock waits.

Owns: the lock a thread is about to take, and that a thread proceeds.

Does not own: which of several threads that wait for one lock gets it next.
-/

namespace CortexForge.Concurrent

open CortexForge.Foundation

/-! ## Locks that are about to be taken -/

/-- The lock a client is about to take. -/
def LockedClientPc.wants : LockedClientPc → Option Lock
  | .outside (.submit _ _ .alloc) | .outside (.submit _ _ (.rollback _ _)) => some .task
  | .outside (.submit _ accel (.enqueue _)) | .outside (.accelInfo _ accel) => some (.accel accel)
  | _ => none

/-- The same for a worker. -/
def LockedWorkerPc.wants (accel : AccelIndex) : LockedWorkerPc → Option Lock
  | .outside .dequeue | .outside (.exec _ .unlink) => some (.accel accel)
  | _ => none

def Locked.wants (locked : Locked) : Actor → Option Lock
  | .client thread => (locked.clients thread).wants
  | .worker accel => (locked.workers accel).wants accel
  | .stopper | .clock => none

/-- The thread whose step a label is. -/
def Label.actor : Label → Actor
  | .client thread _ => .client thread
  | .worker accel _ => .worker accel
  | .stopper => .stopper
  | .tick => .clock

/-- The thread can take the step, or it waits for a lock that another thread holds: one that can
take its own next step and gives the lock back. -/
def Proceeds (kernel : Kernel) (locked : Locked) (label : Label) : Prop :=
  ((lockedMachine kernel).step label locked).isSome ∨
    ∃ lock holder, locked.wants label.actor = some lock ∧
      locked.memory.owner lock = some holder ∧ holder ≠ label.actor ∧
      GivesBack kernel locked lock holder

/-- A thread that wants a lock is in no section. -/
theorem Locked.inside_of_wants {locked : Locked} {actor : Actor} {lock : Lock}
    (wants : locked.wants actor = some lock) : locked.inside actor = none := by
  cases actor with
  | client thread =>
      cases place : locked.clients thread with
      | outside pc => simp [Locked.inside, place, LockedClientPc.lock?]
      | _ => simp [Locked.wants, place, LockedClientPc.wants] at wants
  | worker accel =>
      cases place : locked.workers accel with
      | outside pc => simp [Locked.inside, place, LockedWorkerPc.lock?]
      | _ => simp [Locked.wants, place, LockedWorkerPc.wants] at wants
  | stopper => rfl
  | clock => rfl

section Proceeds

variable {kernel : Kernel} {history : List LockedEvent} {locked : Locked} {label : Label}

/-- A thread that only a lock can keep from its step proceeds. -/
theorem proceeds_of_wants (run : (lockedMachine kernel).Run history locked) {lock : Lock}
    (wants : locked.wants label.actor = some lock)
    (moves : locked.memory.owner lock = none →
      ((lockedMachine kernel).step label locked).isSome) : Proceeds kernel locked label := by
  cases owned : locked.memory.owner lock with
  | none => exact .inl (moves owned)
  | some holder =>
      refine .inr ⟨lock, holder, wants, owned, ?_, gives_back run owned⟩
      rintro rfl
      obtain ⟨_, _, -, realizes⟩ := realizes_of_run run
      have inside := (realizes.exclusive _ _).mpr owned
      rw [Locked.inside_of_wants wants] at inside
      cases inside

theorem step_client_isSome {thread : Nat} {input : ClientInput} :
    ((lockedMachine kernel).step (.client thread input) locked).isSome =
      (lockedClientStep kernel locked.memory locked.jiffies thread input
        (locked.clients thread)).isSome := by
  simp [lockedMachine, lockedStep]

theorem step_worker_isSome {accel : AccelIndex} {expired : Bool} :
    ((lockedMachine kernel).step (.worker accel expired) locked).isSome =
      (lockedWorkerStep kernel locked.memory locked.jiffies expired accel
        (locked.workers accel)).isSome := by
  simp [lockedMachine, lockedStep]

/-- The thread is inside a call. -/
def LockedClientPc.InCall : LockedClientPc → Prop
  | .outside pc => pc.InCall
  | _ => True

instance : (pc : LockedClientPc) → Decidable pc.InCall
  | .outside pc => inferInstanceAs (Decidable pc.InCall)
  | .alloc _ _ _ | .fill _ _ _ _ _ | .enqueue _ _ _ _ | .free _ _ _ _ _ | .info _ _ _
  | .crashed => isTrue trivial

/-- A client inside a call proceeds, whatever the environment decides. -/
theorem client_proceeds (run : (lockedMachine kernel).Run history locked) {thread : Nat}
    (inCall : (locked.clients thread).InCall) (choice : Bool) :
    Proceeds kernel locked (.client thread (.advance choice)) := by
  have acquires {lock : Lock} (wants : (locked.clients thread).wants = some lock)
      (moves : locked.memory.owner lock = none →
        (lockedClientStep kernel locked.memory locked.jiffies thread (.advance choice)
          (locked.clients thread)).isSome) :
      Proceeds kernel locked (.client thread (.advance choice)) :=
    proceeds_of_wants run wants fun free => by rw [step_client_isSome]; exact moves free
  cases place : locked.clients thread with
  | outside pc =>
      rw [place] at inCall acquires
      by_cases ordinary : pc.Ordinary
      · refine .inl ?_
        rw [step_client_isSome, place, lockedClientStep, outsideStep_ordinary ordinary,
          Option.isSome_map]
        exact clientStep_isSome kernel _ _ choice inCall
      · cases pc with
        | accelInfo info accel =>
            exact acquires rfl fun free => by
              simp [lockedClientStep, outsideStep, Memory.acquire, free]
        | submit desc accel phase =>
            cases phase with
            | fill slot => exact .inl (by rw [step_client_isSome, place]; rfl)
            | alloc =>
                exact acquires rfl fun free => by
                  simp [lockedClientStep, outsideStep, Memory.acquire, free]
            | enqueue slot =>
                exact acquires rfl fun free => by
                  simp [lockedClientStep, outsideStep, Memory.acquire, free]
            | rollback slot ret =>
                exact acquires rfl fun free => by
                  simp [lockedClientStep, outsideStep, Memory.acquire, free]
            | _ => exact absurd trivial ordinary
        | _ => exact absurd trivial ordinary
  | crashed =>
      obtain ⟨_, _, -, realizes⟩ := realizes_of_run run
      exact absurd place (realizes.client_ne_crashed thread)
  | _ => exact .inl (by rw [step_client_isSome, place]; rfl)

/-- A worker proceeds that has not left, and that has been woken or whose timeout has expired if
it sleeps. -/
theorem worker_proceeds (run : (lockedMachine kernel).Run history locked) {accel : AccelIndex}
    {expired : Bool} (notExited : locked.workers accel ≠ .outside .exited)
    (awake : expired = true ∨ (locked.workers accel = .outside .asleep →
      (locked.memory.dev.accelerators accel).workWait.woken = true)) :
    Proceeds kernel locked (.worker accel expired) := by
  have acquires (wants : (locked.workers accel).wants accel = some (.accel accel))
      (moves : locked.memory.owner (.accel accel) = none →
        (lockedWorkerStep kernel locked.memory locked.jiffies expired accel
          (locked.workers accel)).isSome) :
      Proceeds kernel locked (.worker accel expired) :=
    proceeds_of_wants run wants fun free => by rw [step_worker_isSome]; exact moves free
  cases place : locked.workers accel with
  | outside pc =>
      rw [place] at notExited awake acquires
      by_cases ordinary : pc.Ordinary
      · refine .inl ?_
        rw [step_worker_isSome, place, lockedWorkerStep_ordinary ordinary, Option.isSome_map]
        have stays : pc ≠ .exited := fun same => notExited (by rw [same])
        cases expired with
        | true => exact workerStep_isSome_of_expired kernel _ _ accel stays
        | false =>
            refine workerStep_isSome kernel _ _ accel stays fun asleep => ?_
            exact awake.resolve_left Bool.false_ne_true (by rw [asleep])
      · cases pc with
        | testQueue =>
            refine .inl ?_
            rw [step_worker_isSome, place, lockedWorkerStep]
            split <;> rfl
        | dequeue =>
            exact acquires rfl fun free => by simp [lockedWorkerStep, Memory.acquire, free]
        | exec slot phase =>
            cases phase with
            | raiseLoad => exact .inl (by rw [step_worker_isSome, place]; rfl)
            | lowerLoad => exact .inl (by rw [step_worker_isSome, place]; rfl)
            | unlink =>
                exact acquires rfl fun free => by simp [lockedWorkerStep, Memory.acquire, free]
            | _ => exact absurd trivial ordinary
        | _ => exact absurd trivial ordinary
  | crashed =>
      obtain ⟨_, _, -, realizes⟩ := realizes_of_run run
      exact absurd place (realizes.worker_ne_crashed accel)
  | _ => exact .inl (by rw [step_worker_isSome, place]; rfl)

end Proceeds

end CortexForge.Concurrent
