import CortexForge.Concurrent.ClientSections

/-!
Contract: every step of a worker with locks is a step without them, or none.

Nobody but the worker takes tasks off the queue of its accelerator, and nobody else reads
its active list, so both sections of the worker do their work with the unlock. The test
that the worker makes without the mutex finds the queue empty exactly as long as no
`list_add_tail` has made its last store. The load and the store of an update of
`load_percent` are one step, because only the worker stores that field.

Owns: the answer to every step of a worker.
-/

namespace CortexForge.Concurrent

open CortexForge.Foundation
open CortexForge.Foundation.Links (ListOp SameAt Adding Deleting)

section Worker

variable {kernel : Kernel} {locked : Locked} {system : System} {trace : List Event}
  {accel : AccelIndex} {after : Memory}

/-! ## The mutex -/

/-- Where a worker stands does not depend on the owners. -/
theorem WorkerStands.of_owner {memory : Memory} {dev : Dev} {pc : LockedWorkerPc}
    (stands : WorkerStands memory dev accel pc) (owner : Lock → Option Actor) :
    WorkerStands { memory with owner := owner } dev accel pc := by
  cases pc <;> exact stands

/-- A worker takes its mutex. -/
theorem Realizes.acquireWorker (realizes : Realizes locked system) {pc : LockedWorkerPc}
    (acquired : locked.memory.acquire (.accel accel) (.worker accel) = some after)
    (outside : (locked.workers accel).lock? accel = none)
    (enters : pc.lock? accel = some (.accel accel))
    (stays : pc.view = (locked.workers accel).view)
    (stands : AtRest locked.memory system.dev (.accel accel) →
      WorkerStands locked.memory system.dev accel pc) :
    Realizes (locked.moveWorker accel after pc) system := by
  obtain ⟨free, rfl⟩ := Memory.acquire_eq_some acquired
  refine realizes.stayWorker (realizes.confined_owner (.inl free)) ?_
    ((stands (realizes.atRest _ free)).of_owner _) ?_ stays
  · rw [enters]
    exact realizes.exclusive.acquire outside free
  · rintro _ ⟨⟩ released
    simp at released

/-- A worker gives its mutex back and makes visible what it has done to its lists. -/
theorem Realizes.releaseWorker (realizes : Realizes locked system) (inv : Inv trace system)
    {dev : Dev} (change : Accel → Accel) (changed : dev = system.dev.modifyAccel accel change)
    (listsOnly : ∀ unit, bareAccel (change unit) = bareAccel unit)
    (isInside : (locked.workers accel).lock? accel = some (.accel accel))
    (rest : (queueView locked.memory dev accel).AtRest accel) (pc : WorkerPc) :
    Realizes (locked.moveWorker accel (locked.memory.release (.accel accel)) (.outside pc))
      { system with dev := dev, workers := Function.update system.workers accel pc } := by
  have owned := (realizes.exclusive (.worker accel) (.accel accel)).mp isInside
  have confined : Confined (.worker accel) (some (.accel accel)) none locked.memory
      (locked.memory.release (.accel accel)) system dev := by
    refine realizes.confined_lists inv change changed owned
      (fun node _ => SameAt.refl node locked.memory.links) ?_ rfl listsOnly
    intro lock different
    exact Function.update_of_ne (fun same => different (congrArg some same.symm)) _ _
  refine realizes.moveWorker confined (realizes.exclusive.release isInside) trivial ?_
  rintro _ ⟨⟩ -
  exact rest

/-- A worker stays inside its section and stores into nodes of its accelerator only. -/
theorem Realizes.innerWorker (realizes : Realizes locked system) (inv : Inv trace system)
    {pc : LockedWorkerPc} {links : Links ListNode}
    (isInside : (locked.workers accel).lock? accel = some (.accel accel))
    (stillInside : pc.lock? accel = some (.accel accel))
    (stays : pc.view = (locked.workers accel).view)
    (within : ∀ node, ¬ system.Owns (.accel accel) node →
      SameAt node locked.memory.links links)
    (stands : WorkerStands { locked.memory with links := links } system.dev accel pc) :
    Realizes (locked.moveWorker accel { locked.memory with links := links } pc) system := by
  have owned := (realizes.exclusive (.worker accel) (.accel accel)).mp isInside
  refine realizes.stayWorker (realizes.confined_links inv owned within)
    (realizes.exclusive.stay (stillInside.trans isInside.symm)) stands ?_ stays
  rintro _ ⟨⟩ released
  rw [show locked.memory.owner (.accel accel) = none from released] at owned
  cases owned

/-- A worker stays inside its section and stores nothing. -/
theorem Realizes.waitWorker (realizes : Realizes locked system) (inv : Inv trace system)
    {pc : LockedWorkerPc} (isInside : (locked.workers accel).lock? accel = some (.accel accel))
    (stillInside : pc.lock? accel = some (.accel accel))
    (stays : pc.view = (locked.workers accel).view)
    (stands : WorkerStands locked.memory system.dev accel pc) :
    Realizes (locked.moveWorker accel locked.memory pc) system :=
  realizes.innerWorker inv isInside stillInside stays
    (fun node _ => SameAt.refl node locked.memory.links) stands

/-! ## Taking a task -/

section Dequeue

variable {slot : Slot} {others : List Slot} {op : ListOp ListNode} {next : LockedWorkerPc}

/-- An access of the `list_del`: it touches nodes of the queue only. -/
theorem Realizes.dequeueDel_matched (realizes : Realizes locked system) (inv : Inv trace system)
    (isInside : (locked.workers accel).lock? accel = some (.accel accel))
    (isView : (locked.workers accel).view = .dequeue)
    (head : (system.dev.accelerators accel).taskQueue = slot :: others)
    (deleting : Deleting (.taskQueue accel) (.entry slot) (entries others) op locked.memory.links)
    (active : locked.memory.links.Ring (.activeTasks accel)
      (entries (system.dev.accelerators accel).activeTasks))
    (taken : dequeueStep locked.memory accel (.del slot op) = (after, next)) :
    Matched kernel system (.worker accel) (locked.moveWorker accel after next) := by
  obtain ⟨links, more, stepped, elsewhere, leads⟩ := deleting.step
  have queued {node : ListNode}
      (listed : node ∈ .taskQueue accel :: .entry slot :: entries others) :
      node ∈ .taskQueue accel :: entries (system.dev.accelerators accel).taskQueue := by
    rw [head]
    exact listed
  have within (node : ListNode) (foreign : ¬ system.Owns (.accel accel) node) :
      SameAt node locked.memory.links links :=
    elsewhere node fun listed => foreign (owns_of_queued (queued listed))
  have stillActive : links.Ring (.activeTasks accel)
      (entries (system.dev.accelerators accel).activeTasks) :=
    Links.Ring.congr active fun node member =>
      elsewhere node fun listed => inv.lists_apart member (queued listed)
  cases more with
  | some op =>
      simp only [dequeueStep, Memory.listStep_some stepped, Prod.mk.injEq] at taken
      obtain ⟨rfl, rfl⟩ := taken
      exact .stay (realizes.innerWorker inv isInside rfl isView.symm within
        (.del head leads stillActive))
  | none =>
      simp only [dequeueStep, Memory.listStep_none stepped, Prod.mk.injEq] at taken
      obtain ⟨rfl, rfl⟩ := taken
      exact .stay (realizes.innerWorker inv isInside rfl isView.symm within
        (.add head leads (.load stillActive)))

/-- An access of the `list_add_tail`: it touches nodes of the active list and the entry of the
task, which is on no list at this point. -/
theorem Realizes.dequeueAdd_matched (realizes : Realizes locked system) (inv : Inv trace system)
    (isInside : (locked.workers accel).lock? accel = some (.accel accel))
    (isView : (locked.workers accel).view = .dequeue)
    (head : (system.dev.accelerators accel).taskQueue = slot :: others)
    (queue : locked.memory.links.Ring (.taskQueue accel) (entries others))
    (adding : Adding (.activeTasks accel) (entries (system.dev.accelerators accel).activeTasks)
      (.entry slot) op locked.memory.links)
    (taken : dequeueStep locked.memory accel (.add slot op) = (after, next)) :
    Matched kernel system (.worker accel) (locked.moveWorker accel after next) := by
  have queued {node : ListNode} (listed : node = .entry slot ∨ node ∈ .taskQueue accel ::
      entries others) :
      node ∈ .taskQueue accel :: entries (system.dev.accelerators accel).taskQueue := by
    simp only [head, entries_cons, List.mem_cons] at listed ⊢
    tauto
  have absent : .entry slot ∉
      .activeTasks accel :: entries (system.dev.accelerators accel).activeTasks :=
    fun member => inv.lists_apart member (queued (.inl rfl))
  obtain ⟨links, more, stepped, elsewhere, leads⟩ := adding.step absent
  have within (node : ListNode) (foreign : ¬ system.Owns (.accel accel) node) :
      SameAt node locked.memory.links links := by
    refine elsewhere node fun listed => foreign ?_
    rcases List.mem_cons.mp listed with rfl | listed
    · exact owns_of_queued (queued (.inl rfl))
    · exact owns_of_active listed
  have stillQueued : links.Ring (.taskQueue accel) (entries others) := by
    refine Links.Ring.congr queue fun node member => elsewhere node fun listed => ?_
    have nodup := inv.partition.nodup (.taskQueue accel)
    rw [show content trace system (.taskQueue accel) = slot :: others from head] at nodup
    rcases List.mem_cons.mp listed with rfl | active
    · exact (List.nodup_cons.mp nodup).1 (by simpa using member)
    · exact inv.lists_apart active (queued (.inr member))
  cases more with
  | some op =>
      simp only [dequeueStep, Memory.listStep_some stepped, Prod.mk.injEq] at taken
      obtain ⟨rfl, rfl⟩ := taken
      exact .stay (realizes.innerWorker inv isInside rfl isView.symm within
        (.add head stillQueued leads))
  | none =>
      simp only [dequeueStep, Memory.listStep_none stepped, Prod.mk.injEq] at taken
      obtain ⟨rfl, rfl⟩ := taken
      refine .stay (realizes.innerWorker inv isInside rfl isView.symm within
        (.some head stillQueued ?_))
      rw [entries_snoc]
      exact leads

end Dequeue

/-- A step of the first section of the worker's loop. -/
theorem Realizes.dequeue_matched (realizes : Realizes locked system)
    (run : (machine kernel).Run trace system) {phase : DequeuePhase} {next : LockedWorkerPc}
    (pc : locked.workers accel = .dequeue phase)
    (taken : dequeueStep locked.memory accel phase = (after, next)) :
    Matched kernel system (.worker accel) (locked.moveWorker accel after next) := by
  have inv := inv_of_run run
  have isInside : (locked.workers accel).lock? accel = some (.accel accel) := by rw [pc]; rfl
  have isView : (locked.workers accel).view = .dequeue := by rw [pc]; rfl
  have view : system.workers accel = .dequeue := (realizes.views accel).trans isView
  have shape := realizes.workers accel
  rw [pc] at shape
  change (queueView locked.memory system.dev accel).InDequeue accel phase at shape
  cases shape with
  | testEmpty rest =>
      by_cases empty : locked.memory.links.listEmpty (.taskQueue accel) = true
      · simp only [dequeueStep, empty, ↓reduceIte, Prod.mk.injEq] at taken
        obtain ⟨rfl, rfl⟩ := taken
        have isNil : (system.dev.accelerators accel).taskQueue = [] := by
          simpa [queueView, entries] using rest.queue.listEmpty_iff.mp empty
        exact .stay (realizes.waitWorker inv isInside rfl isView.symm (.none rest isNil))
      · simp only [dequeueStep, empty, Bool.false_eq_true, ↓reduceIte, Prod.mk.injEq] at taken
        obtain ⟨rfl, rfl⟩ := taken
        have notNil : (system.dev.accelerators accel).taskQueue ≠ [] := fun isNil =>
          empty (rest.queue.listEmpty_iff.mpr (by simp [queueView, isNil]))
        exact .stay (realizes.waitWorker inv isInside rfl isView.symm (.first rest notNil))
  | first rest filled =>
      obtain ⟨slot, others, head⟩ := List.exists_cons_of_ne_nil filled
      have ring := rest.queue
      rw [head, entries_cons] at ring
      simp only [dequeueStep, show locked.memory.links.next (.taskQueue accel) =
        .node (.entry slot) from ring.next_head, Prod.mk.injEq] at taken
      obtain ⟨rfl, rfl⟩ := taken
      exact .stay (realizes.waitWorker inv isInside rfl isView.symm
        (.del head (.load ring) rest.active))
  | del head deleting active =>
      exact realizes.dequeueDel_matched inv isInside isView head deleting active taken
  | add head queue adding =>
      exact realizes.dequeueAdd_matched inv isInside isView head queue adding taken
  | none rest empty =>
      cases taken
      have answered : workerStep kernel system.dev system.jiffies false accel
          (system.workers accel) = some (.tau, .loop) := by
        have isNil : (system.dev.accelerators accel).taskQueue = [] := empty
        simp only [view, workerStep, isNil]
      refine .worker answered (realizes.releaseWorker inv (fun unit => unit) ?_ (fun _ => rfl)
        isInside rest .loop)
      simp [Dev.modifyAccel]
  | @some slot others head queue active =>
      cases taken
      have isQueue : (system.dev.accelerators accel).taskQueue = slot :: others := head
      have answered : workerStep kernel system.dev system.jiffies false accel
          (system.workers accel) = some (.dequeue accel slot, .exec slot .writeRunning) := by
        simp only [view, workerStep, isQueue]
      refine .worker answered (realizes.releaseWorker inv (fun unit =>
        { unit with
          taskQueue := unit.taskQueue.erase slot
          activeTasks := unit.activeTasks ++ [slot] }) rfl (fun _ => rfl) isInside ⟨?_, ?_⟩ _)
      · simp only [queueView, Dev.modifyAccel_same, isQueue, List.erase_cons_head]
        exact queue
      · simp only [queueView, Dev.modifyAccel_same]
        exact active

/-! ## Taking a task off the active list -/

/-- A step of the second section. -/
theorem Realizes.unlink_matched (realizes : Realizes locked system)
    (run : (machine kernel).Run trace system) {slot : Slot} {phase : UnlinkPhase}
    {next : LockedWorkerPc} (pc : locked.workers accel = .unlink slot phase)
    (taken : unlinkStep locked.memory accel slot phase = (after, next)) :
    Matched kernel system (.worker accel) (locked.moveWorker accel after next) := by
  have inv := inv_of_run run
  have isInside : (locked.workers accel).lock? accel = some (.accel accel) := by rw [pc]; rfl
  have isView : (locked.workers accel).view = .exec slot .unlink := by rw [pc]; rfl
  have view : system.workers accel = .exec slot .unlink := (realizes.views accel).trans isView
  have shape := realizes.workers accel
  rw [pc] at shape
  change (queueView locked.memory system.dev accel).InUnlink accel slot phase at shape
  cases shape with
  | @del op alone queue deleting =>
      obtain ⟨links, more, stepped, elsewhere, leads⟩ := deleting.step
      have active {node : ListNode} (listed : node ∈ [.activeTasks accel, .entry slot]) :
          node ∈ .activeTasks accel :: entries (system.dev.accelerators accel).activeTasks := by
        rw [show (system.dev.accelerators accel).activeTasks = [slot] from alone]
        exact listed
      have within (node : ListNode) (foreign : ¬ system.Owns (.accel accel) node) :
          SameAt node locked.memory.links links :=
        elsewhere node fun listed => foreign (owns_of_active (active listed))
      have stillQueued : links.Ring (.taskQueue accel)
          (entries (system.dev.accelerators accel).taskQueue) :=
        Links.Ring.congr queue fun node member =>
          elsewhere node fun listed => inv.lists_apart (active listed) member
      cases more with
      | some op =>
          simp only [unlinkStep, Memory.listStep_some stepped, Prod.mk.injEq] at taken
          obtain ⟨rfl, rfl⟩ := taken
          exact .stay (realizes.innerWorker inv isInside rfl isView.symm within
            (.del alone stillQueued leads))
      | none =>
          simp only [unlinkStep, Memory.listStep_none stepped, Prod.mk.injEq] at taken
          obtain ⟨rfl, rfl⟩ := taken
          exact .stay (realizes.innerWorker inv isInside rfl isView.symm within
            (.unlock alone stillQueued leads))
  | unlock alone queue active =>
      cases taken
      have isAlone : (system.dev.accelerators accel).activeTasks = [slot] := alone
      have answered : workerStep kernel system.dev system.jiffies false accel
          (system.workers accel) = some (.unlink accel slot, .loop) := by
        simp only [view, workerStep, execStep]
      refine .worker answered (realizes.releaseWorker inv (fun unit =>
        { unit with activeTasks := unit.activeTasks.erase slot }) rfl (fun _ => rfl) isInside
        ⟨?_, ?_⟩ _)
      · simp only [queueView, Dev.modifyAccel_same]
        exact queue
      · simp only [queueView, Dev.modifyAccel_same, isAlone, List.erase_cons_head]
        exact active

/-! ## The load -/

/-- The store of an updated load, from a value that is still in memory. -/
theorem Realizes.load_matched (realizes : Realizes locked system) {slot : Slot}
    {update : Touch} {phase : WorkPhase} {change : UInt32 → UInt32} {loaded : UInt32}
    {pc : WorkerPc} (updates : ∀ unit : Accel,
      update.apply unit = { unit with loadPercent := change unit.loadPercent })
    (outside : (locked.workers accel).lock? accel = none)
    (isView : (locked.workers accel).view = pc)
    (answered : workerStep kernel system.dev system.jiffies false accel pc =
      some (.touch accel update, .exec slot phase))
    (current : loaded = (system.dev.accelerators accel).loadPercent) :
    Matched kernel system (.worker accel) (locked.moveWorker accel
      (locked.memory.modifyAccel accel fun unit => { unit with loadPercent := change loaded })
      (.outside (.exec slot phase))) := by
  have view : system.workers accel = pc := (realizes.views accel).trans isView
  rw [← view] at answered
  -- The value loaded before is the value that is updated now.
  have same : (locked.memory.modifyAccel accel fun unit =>
      { unit with loadPercent := change loaded }) =
        { locked.memory with dev := (Action.touch accel update).apply locked.memory.dev } := by
    simp only [Memory.modifyAccel, Action.apply, Dev.modifyAccel, updates,
      realizes.accelerators accel, bareAccel, current]
  rw [same]
  have plain : (Action.touch accel update).Plain := trivial
  have confined := realizes.confined_plain plain
    fun target other touches => (stepped_of_step (step_worker answered)).madeBy touches
  refine .worker answered (realizes.moveWorker confined
    (realizes.exclusive.stay (by rw [Locked.inside, outside]; rfl)) trivial ?_)
  intro lock isMine
  cases isMine

/-! ## Steps outside the sections -/

/-- The places from which a worker takes the same step in both machines. -/
def WorkerPc.Ordinary : WorkerPc → Prop
  | .testQueue | .dequeue | .exec _ .raiseLoad | .exec _ .lowerLoad | .exec _ .unlink => False
  | _ => True

theorem lockedWorkerStep_ordinary {memory : Memory} {now : UInt64} {expired : Bool}
    {pc : WorkerPc} (ordinary : pc.Ordinary) :
    lockedWorkerStep kernel memory now expired accel (.outside pc) =
      (workerStep kernel memory.dev now expired accel pc).map fun (action, next) =>
        ({ memory with dev := action.apply memory.dev }, .outside next) := by
  cases pc with
  | exec slot phase => cases phase <;> first | rfl | exact ordinary.elim
  | testQueue => exact ordinary.elim
  | dequeue => exact ordinary.elim
  | _ => rfl

/-- An ordinary step depends on the flags of the accelerator and on the task of the worker. -/
theorem workerStep_congr {dev other : Dev} {now : UInt64} {expired : Bool} {pc : WorkerPc}
    (ordinary : pc.Ordinary)
    (same : dev.accelerators accel = bareAccel (other.accelerators accel))
    (executed : ∀ slot phase, pc = .exec slot phase → dev.tasks slot = other.tasks slot) :
    workerStep kernel dev now expired accel pc = workerStep kernel other now expired accel pc := by
  cases pc with
  | exec slot phase =>
      have sameTask := executed slot phase rfl
      cases phase <;> simp only [workerStep, execStep, sameTask, same, bareAccel]
  | testQueue => exact ordinary.elim
  | dequeue => exact ordinary.elim
  | _ => simp only [workerStep, same, bareAccel]

/-- An ordinary step performs a plain action. -/
theorem workerStep_plain {dev : Dev} {now : UInt64} {expired : Bool} {pc next : WorkerPc}
    {action : Action} (ordinary : pc.Ordinary)
    (taken : workerStep kernel dev now expired accel pc = some (action, next)) :
    action.Plain := by
  cases workerTaken_of_step taken with
  | exec slot phase =>
      cases phase with
      | unlink => exact ordinary.elim
      | writeRunning => exact fun desc isFill => by cases isFill
      | writeCompleteJiffies stamp => exact fun desc isFill => by cases isFill
      | writeComplete => exact fun desc isFill => by cases isFill
      | writeError => exact fun desc isFill => by cases isFill
      | completeAll => exact fun desc isFill => by cases isFill
      | _ =>
          simp only [execStep]
          first | trivial | (split <;> trivial)
  | dequeue slot rest head => exact ordinary.elim
  | _ => trivial

/-- The task a worker executes is not being filled. -/
theorem Realizes.executed_task_eq (realizes : Realizes locked system) (inv : Inv trace system)
    {slot : Slot} {phase : WorkPhase} (view : system.workers accel = .exec slot phase) :
    locked.memory.dev.tasks slot = system.dev.tasks slot := by
  refine realizes.tasks slot fun thread filling => ?_
  have held := (realizes.clients thread).held_of_filling filling
  have submitting : placeOf trace slot = .submitting thread :=
    (inv.partition.mem (.submitting thread) slot).mp (by simp [content, held])
  have active : slot ∈ (system.dev.accelerators accel).activeTasks := by
    rw [inv.executing accel]
    simp [System.executes, view, WorkerPc.claim]
  have place := (inv.partition.mem (.activeTasks accel) slot).mp active
  rw [submitting] at place
  cases place

theorem Realizes.plain_worker_matched (realizes : Realizes locked system)
    (run : (machine kernel).Run trace system) {expired : Bool} {pc next : WorkerPc}
    {action : Action} (stands : locked.workers accel = .outside pc) (ordinary : pc.Ordinary)
    (taken : workerStep kernel locked.memory.dev locked.jiffies expired accel pc =
      some (action, next)) :
    Matched kernel system (.worker accel) (locked.moveWorker accel
      { locked.memory with dev := action.apply locked.memory.dev } (.outside next)) := by
  have inv := inv_of_run run
  have view : system.workers accel = pc := by rw [realizes.views accel, stands]; rfl
  have sameNow : locked.jiffies = system.jiffies := by
    rw [Locked.jiffies, System.jiffies, realizes.ticks]
  have plain := workerStep_plain ordinary taken
  rw [sameNow, workerStep_congr ordinary (realizes.accelerators accel), ← view] at taken
  · have confined := realizes.confined_plain plain fun target update touches =>
      (stepped_of_step (step_worker taken)).madeBy touches
    exact .worker taken (realizes.moveWorker confined
      (realizes.exclusive.stay (by rw [Locked.inside, stands]; rfl)) trivial
      fun _ isMine => by cases isMine)
  · rintro slot phase rfl
    exact realizes.executed_task_eq inv view

/-- What the worker sees of its queue without the mutex. -/
theorem Realizes.listEmpty_iff (realizes : Realizes locked system) (inv : Inv trace system)
    (outside : (locked.workers accel).lock? accel = none) :
    locked.memory.links.listEmpty (.taskQueue accel) = true ↔
      (system.dev.accelerators accel).taskQueue = [] := by
  have nil : entries (system.dev.accelerators accel).taskQueue = [] ↔
      (system.dev.accelerators accel).taskQueue = [] := by simp [entries]
  rw [← nil]
  cases owner : locked.memory.owner (.accel accel) with
  | none => exact (realizes.atRest _ owner).queue.listEmpty_iff
  | some holder =>
      have isInside := (realizes.exclusive holder (.accel accel)).mpr owner
      cases holder with
      | client thread =>
          have stands := realizes.clients thread
          simp only [Locked.inside] at isInside
          cases pc : locked.clients thread with
          | enqueue desc target slot phase =>
              rw [pc] at stands isInside
              cases isInside
              cases phase with
              | unlock => exact stands.2.queue.listEmpty_iff
              | add op =>
                  refine stands.2.adding.listEmpty_iff ?_
                  simpa [queueView] using (inv.not_listed_of_enqueue stands.1).1
          | info info target rest =>
              rw [pc] at stands isInside
              cases isInside
              exact stands.1.queue.listEmpty_iff
          | _ =>
              rw [pc] at isInside
              cases isInside
      | worker index =>
          simp only [Locked.inside] at isInside
          by_cases same : index = accel
          · subst same
            rw [outside] at isInside
            cases isInside
          · cases pc : locked.workers index <;> rw [pc] at isInside <;>
              simp_all [LockedWorkerPc.lock?]
      | stopper => cases isInside
      | clock => cases isInside

/-! ## Every step of a worker -/

/-- A worker that is in no section stores nothing. -/
theorem Realizes.lookWorker (realizes : Realizes locked system) {pc : LockedWorkerPc}
    (outside : (locked.workers accel).lock? accel = none) (stillOutside : pc.lock? accel = none)
    (stands : WorkerStands locked.memory system.dev accel pc) :
    Realizes (locked.moveWorker accel locked.memory pc)
      { system with workers := Function.update system.workers accel pc.view } := by
  have confined : Confined (.worker accel) none none locked.memory locked.memory system
      system.dev := by
    refine realizes.confined (fun _ isMine => by cases isMine) ?_ (fun _ _ => rfl) rfl rfl rfl
      fun _ => rfl
    intro lock _
    exact ⟨fun node _ => SameAt.refl node _, SameGuarded.refl locked.memory system.dev lock⟩
  exact realizes.moveWorker confined (realizes.exclusive.stay (stillOutside.trans outside.symm))
    stands fun _ isMine => by cases isMine

/-- The same where the counterpart stays. -/
theorem Realizes.lookStay (realizes : Realizes locked system) {pc : LockedWorkerPc}
    (outside : (locked.workers accel).lock? accel = none) (stillOutside : pc.lock? accel = none)
    (stays : pc.view = (locked.workers accel).view)
    (stands : WorkerStands locked.memory system.dev accel pc) :
    Realizes (locked.moveWorker accel locked.memory pc) system := by
  have moved := realizes.lookWorker outside stillOutside stands
  rwa [stays, ← realizes.views accel, Function.update_eq_self] at moved

/-- A worker that is in no section tests its queue, enters a section, loads its load, or takes
an ordinary step. -/
theorem Realizes.outside_worker_matched (realizes : Realizes locked system)
    (run : (machine kernel).Run trace system) {expired : Bool} {pc : WorkerPc}
    {next : LockedWorkerPc} (stands : locked.workers accel = .outside pc)
    (taken : lockedWorkerStep kernel locked.memory locked.jiffies expired accel (.outside pc) =
      some (after, next)) :
    Matched kernel system (.worker accel) (locked.moveWorker accel after next) := by
  have inv := inv_of_run run
  have outside : (locked.workers accel).lock? accel = none := by rw [stands]; rfl
  have isView : (locked.workers accel).view = pc := by rw [stands]; rfl
  have view : system.workers accel = pc := (realizes.views accel).trans isView
  have sameLoad : (locked.memory.dev.accelerators accel).loadPercent =
      (system.dev.accelerators accel).loadPercent := by
    rw [realizes.accelerators accel]
    rfl
  by_cases ordinary : pc.Ordinary
  · rw [lockedWorkerStep_ordinary ordinary, Option.map_eq_some_iff] at taken
    obtain ⟨⟨action, counterpart⟩, moved, same⟩ := taken
    cases same
    exact realizes.plain_worker_matched run stands ordinary moved
  · cases pc with
    | testQueue =>
        have sees := realizes.listEmpty_iff inv outside
        by_cases empty : locked.memory.links.listEmpty (.taskQueue accel) = true
        · simp only [lockedWorkerStep, empty, ↓reduceIte, Option.some.injEq,
            Prod.mk.injEq] at taken
          obtain ⟨rfl, rfl⟩ := taken
          have answered : workerStep kernel system.dev system.jiffies false accel
              (system.workers accel) = some (.tau, .testRunning) := by
            simp only [view, workerStep, sees.mp empty, List.isEmpty_nil, ↓reduceIte]
          exact .worker answered (realizes.lookWorker outside rfl trivial)
        · simp only [lockedWorkerStep, empty, Bool.false_eq_true, ↓reduceIte,
            Option.some.injEq, Prod.mk.injEq] at taken
          obtain ⟨rfl, rfl⟩ := taken
          have notNil : ¬ (system.dev.accelerators accel).taskQueue.isEmpty = true :=
            fun isNil => empty (sees.mpr (List.isEmpty_iff.mp isNil))
          have answered : workerStep kernel system.dev system.jiffies false accel
              (system.workers accel) = some (.tau, .finishWait) := by
            simp only [view, workerStep, if_neg notNil]
          exact .worker answered (realizes.lookWorker outside rfl trivial)
    | dequeue =>
        simp only [lockedWorkerStep, Option.map_eq_some_iff, Prod.mk.injEq] at taken
        obtain ⟨memory, acquired, rfl, rfl⟩ := taken
        exact .stay (realizes.acquireWorker acquired outside rfl isView.symm fun rest =>
          .testEmpty rest)
    | exec slot phase =>
        cases phase with
        | raiseLoad =>
            cases taken
            exact .stay (realizes.lookStay outside rfl isView.symm sameLoad)
        | lowerLoad =>
            cases taken
            exact .stay (realizes.lookStay outside rfl isView.symm sameLoad)
        | unlink =>
            simp only [lockedWorkerStep, Option.map_eq_some_iff, Prod.mk.injEq] at taken
            obtain ⟨memory, acquired, rfl, rfl⟩ := taken
            have alone : (system.dev.accelerators accel).activeTasks = [slot] := by
              rw [inv.executing accel]
              simp [System.executes, view, WorkerPc.claim]
            refine .stay (realizes.acquireWorker acquired outside rfl isView.symm fun rest =>
              .del alone rest.queue (.load ?_))
            have ring := rest.active
            rwa [show (queueView locked.memory system.dev accel).active = [slot] from alone] at ring
        | _ => exact absurd trivial ordinary
    | _ => exact absurd trivial ordinary

theorem Realizes.worker_matched (realizes : Realizes locked system)
    (run : (machine kernel).Run trace system) {expired : Bool} {next : LockedWorkerPc}
    (taken : lockedWorkerStep kernel locked.memory locked.jiffies expired accel
      (locked.workers accel) = some (after, next)) :
    Matched kernel system (.worker accel) (locked.moveWorker accel after next) := by
  cases stands : locked.workers accel with
  | outside pc =>
      rw [stands] at taken
      exact realizes.outside_worker_matched run stands taken
  | dequeue phase =>
      rw [stands] at taken
      exact realizes.dequeue_matched run stands (Option.some.inj taken)
  | unlink slot phase =>
      rw [stands] at taken
      exact realizes.unlink_matched run stands (Option.some.inj taken)
  | raiseLoad slot loaded =>
      have current := realizes.workers accel
      rw [stands] at taken current
      cases taken
      exact realizes.load_matched (fun _ => rfl) (by rw [stands]; rfl) (by rw [stands]) rfl
        current
  | lowerLoad slot loaded =>
      have current := realizes.workers accel
      rw [stands] at taken current
      cases taken
      exact realizes.load_matched (fun _ => rfl) (by rw [stands]; rfl) (by rw [stands]) rfl
        current
  | crashed =>
      rw [stands] at taken
      cases taken

end Worker

end CortexForge.Concurrent
