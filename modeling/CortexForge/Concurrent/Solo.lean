import CortexForge.Concurrent.Refinement

/-!
Contract: a thread that is not interrupted.

Cut into atomic steps and run without interruption, SUBMIT and CANCEL do what
their sequential descriptions in `Driver` say, the scans of QUERY and CANCEL find
the slot that `findTask` finds, and a worker takes the head of its queue through
to completion.

Owns: runs of one thread on its own, their embedding into runs of the system,
and the agreement with the sequential functions.
-/

namespace CortexForge.Concurrent

open CortexForge.Foundation

/-- The steps of one thread on the device while nobody else moves. -/
inductive Alone {Pc Input : Type} (program : Dev → Input → Pc → Option (Action × Pc)) :
    Dev → Pc → List Action → Dev → Pc → Prop
  | done (dev : Dev) (pc : Pc) : Alone program dev pc [] dev pc
  | step {dev last : Dev} {pc next final : Pc} {action : Action} {actions : List Action}
      (input : Input) (taken : program dev input pc = some (action, next))
      (rest : Alone program (action.apply dev) next actions last final) :
      Alone program dev pc (action :: actions) last final

theorem Alone.trans {Pc Input : Type} {program : Dev → Input → Pc → Option (Action × Pc)}
    {first second third : Dev} {pc middle final : Pc} {before after : List Action}
    (left : Alone program first pc before second middle)
    (right : Alone program second middle after third final) :
    Alone program first pc (before ++ after) third final := by
  induction left with
  | done => exact right
  | step input taken _ inductionHypothesis => exact .step input taken (inductionHypothesis right)

/-- The program of a client thread at a fixed clock. -/
def clientProgram (kernel : Kernel) (now : UInt64) (dev : Dev) (input : ClientInput)
    (pc : ClientPc) : Option (Action × ClientPc) :=
  clientStep kernel dev now input pc

/-- The program of a worker at a fixed clock. -/
def workerProgram (kernel : Kernel) (now : UInt64) (accel : AccelIndex) (dev : Dev)
    (expired : Bool) (pc : WorkerPc) : Option (Action × WorkerPc) :=
  workerStep kernel dev now expired accel pc

/-- A client on its own is a run of the system. -/
theorem Alone.client_steps {kernel : Kernel} {now : UInt64} {start dev : Dev}
    {pc final : ClientPc} {actions : List Action}
    (alone : Alone (clientProgram kernel now) start pc actions dev final) (thread : Nat) :
    ∀ system : System, system.dev = start → system.clients thread = pc → system.jiffies = now →
      (machine kernel).Steps system (actions.map fun action => ⟨.client thread, action⟩)
        { system with
          dev := dev
          clients := Function.update system.clients thread final } := by
  induction alone with
  | done dev pc =>
      rintro system rfl rfl -
      rw [Function.update_eq_self]
      exact .refl system
  | @step dev last pc next final action actions input taken rest inductionHypothesis =>
      rintro system rfl rfl rfl
      have first := Machine.Steps.single (Label.client thread input) (step_client taken)
      have more := inductionHypothesis (system.moveClient thread action next) rfl
        (by simp [System.moveClient]) rfl
      simp only [System.moveClient, Function.update_idem] at first more
      exact first.trans more

/-- A worker on its own is a run of the system. -/
theorem Alone.worker_steps {kernel : Kernel} {now : UInt64} {accel : AccelIndex}
    {start dev : Dev} {pc final : WorkerPc} {actions : List Action}
    (alone : Alone (workerProgram kernel now accel) start pc actions dev final) :
    ∀ system : System, system.dev = start → system.workers accel = pc → system.jiffies = now →
      (machine kernel).Steps system (actions.map fun action => ⟨.worker accel, action⟩)
        { system with
          dev := dev
          workers := Function.update system.workers accel final } := by
  induction alone with
  | done dev pc =>
      rintro system rfl rfl -
      rw [Function.update_eq_self]
      exact .refl system
  | @step dev last pc next final action actions expired taken rest inductionHypothesis =>
      rintro system rfl rfl rfl
      have first := Machine.Steps.single (Label.worker accel expired) (step_worker taken)
      have more := inductionHypothesis (system.moveWorker accel action next) rfl
        (by simp [System.moveWorker]) rfl
      simp only [System.moveWorker, Function.update_idem] at first more
      exact first.trans more

/-! ## SUBMIT -/

/-- The atomic steps of `task_submit` on its own, and the copy of the descriptor
after it. -/
theorem taskSubmit_alone (kernel : Kernel) (now : UInt64) (dev : Dev) (desc : TaskDesc)
    (accel : AccelIndex) (slot : Slot)
    (inRange : ¬ numAccelerators ≤ (dev.tasks slot).accelType.toNat) :
    Alone (clientProgram kernel now) dev (.submit desc accel (.check slot))
      [.tau, .store slot (.state .pending), .tau, .store slot (.submitJiffies now),
        .enqueue accel slot, .touch accel .wakeUp, .tau, .tau]
      (taskSubmit now slot accel dev).2
      (.returned (.submit 0 { desc with taskId := (dev.tasks slot).id })) := by
  have checked : clientProgram kernel now dev (.advance true) (.submit desc accel (.check slot)) =
      some (.tau, .submit desc accel (.writePending slot)) := by
    simp [clientProgram, clientStep, submitStep, inRange]
  have sameId : (((taskSubmit now slot accel dev).2).tasks slot).id = (dev.tasks slot).id := by
    simp [taskSubmit, inRange]
  have result : (taskSubmit now slot accel dev).2 =
      (Action.touch accel .wakeUp).apply ((Action.enqueue accel slot).apply
        ((Action.store slot (.submitJiffies now)).apply
          ((Action.store slot (.state .pending)).apply dev))) := by
    simp only [taskSubmit, if_neg inRange]
    rfl
  rw [← sameId, result]
  exact .step _ checked (.step (.advance true) rfl (.step (.advance true) rfl
    (.step (.advance true) rfl (.step (.advance true) rfl (.step (.advance true) rfl
      (.step (.advance true) rfl (.step (.advance true) rfl (.done _ _))))))))

/-- The allocation step of SUBMIT is `task_alloc`. -/
theorem taskAlloc_step (kernel : Kernel) (now : UInt64) {dev allocated : Dev} (desc : TaskDesc)
    (accel : AccelIndex) {slot : Slot} (alloc : taskAlloc dev = some (slot, allocated)) :
    ∃ action, clientProgram kernel now dev (.advance true) (.submit desc accel .alloc) =
      some (action, .submit desc accel (.fill slot)) ∧ action.apply dev = allocated := by
  cases free : dev.freeTasks with
  | nil => simp [taskAlloc, free] at alloc
  | cons head rest =>
      simp only [taskAlloc, free, Option.some.injEq, Prod.mk.injEq] at alloc
      obtain ⟨rfl, rfl⟩ := alloc
      refine ⟨.alloc head (dev.nextTaskId + 1) desc, ?_, ?_⟩
      · simp [clientProgram, clientStep, submitStep, free]
      · simp [Action.apply, free]

/-- SUBMIT on its own, from its allocation on: `task_alloc`, the payload stores
and `task_submit`. -/
theorem submit_alone (kernel : Kernel) (now : UInt64) {dev allocated : Dev} {desc : TaskDesc}
    {accel : AccelIndex} {slot : Slot} (accepted : validateDesc desc = .ok accel)
    (alloc : taskAlloc dev = some (slot, allocated)) :
    ∃ actions, Alone (clientProgram kernel now) dev (.submit desc accel .alloc) actions
      (taskSubmit now slot accel (allocated.modifyTask slot (fillTask desc))).2
      (.returned (.submit 0 { desc with taskId := (allocated.tasks slot).id })) := by
  obtain ⟨action, taken, rfl⟩ := taskAlloc_step kernel now desc accel alloc
  have inRange : ¬ numAccelerators ≤
      (((action.apply dev).modifyTask slot (fillTask desc)).tasks slot).accelType.toNat := by
    rw [Dev.modifyTask_same, fillTask, validateDesc_ok accepted]
    exact Nat.not_le.mpr accel.isLt
  have submitted := taskSubmit_alone kernel now _ desc accel slot inRange
  rw [show (((action.apply dev).modifyTask slot (fillTask desc)).tasks slot).id =
    ((action.apply dev).tasks slot).id by simp [fillTask]] at submitted
  exact ⟨_, .step _ taken (.step (.advance true) rfl submitted)⟩

/-- What a SUBMIT leaves behind. -/
structure Queued (desc : TaskDesc) (accel : AccelIndex) (slot : Slot) (rest : List Slot)
    (before after : Dev) : Prop where
  freeTasks : after.freeTasks = rest
  carries : Carries desc (after.tasks slot)
  others : ∀ other, other ≠ slot → after.tasks other = before.tasks other
  taskQueue : (after.accelerators accel).taskQueue =
    (before.accelerators accel).taskQueue ++ [slot]
  running : (after.accelerators accel).running = (before.accelerators accel).running
  shouldStop : (after.accelerators accel).shouldStop = (before.accelerators accel).shouldStop

/-- SUBMIT on its own, with the device it leaves. -/
theorem submit_queues (kernel : Kernel) (now : UInt64) {dev : Dev} {desc : TaskDesc}
    {accel : AccelIndex} {slot : Slot} {rest : List Slot}
    (accepted : validateDesc desc = .ok accel) (free : dev.freeTasks = slot :: rest) :
    ∃ actions after reply, Alone (clientProgram kernel now) dev (.submit desc accel .alloc)
        actions after (.returned reply) ∧ Queued desc accel slot rest dev after := by
  have alloc : ∃ allocated, taskAlloc dev = some (slot, allocated) ∧
      allocated.freeTasks = rest ∧ allocated.accelerators = dev.accelerators ∧
      ∀ other, other ≠ slot → allocated.tasks other = dev.tasks other := by
    refine ⟨_, taskAlloc_cons free, rfl, rfl, ?_⟩
    intro other different
    exact Function.update_of_ne different _ _
  obtain ⟨allocated, isAlloc, freeAfter, sameAccels, sameOthers⟩ := alloc
  obtain ⟨actions, alone⟩ := submit_alone kernel now accepted isAlloc
  refine ⟨actions, _, _, alone, ?_⟩
  have inRange : ¬ numAccelerators ≤
      ((allocated.modifyTask slot (fillTask desc)).tasks slot).accelType.toNat := by
    rw [Dev.modifyTask_same, fillTask, validateDesc_ok accepted]
    exact Nat.not_le.mpr accel.isLt
  simp only [taskSubmit, if_neg inRange]
  constructor
  · simpa using freeAfter
  · simp only [Dev.modifyAccel_tasks, Dev.modifyTask_same]
    exact ⟨rfl, rfl, rfl, rfl, rfl, rfl, rfl⟩
  · intro other different
    simp [Dev.modifyTask_other, different, sameOthers]
  · simp [sameAccels]
  · simp [sameAccels]
  · simp [sameAccels]

/-! ## QUERY and CANCEL -/

/-- The common scan of `task_query` and `task_cancel`: where a call stands at
each stage of its lookup, and how it moves from one to the next. -/
structure Scanner (kernel : Kernel) (now : UInt64) (taskId : UInt32) where
  pc : Lookup → ClientPc
  missed : ClientPc
  hit : ∀ dev slot, (dev.tasks slot).id = taskId →
    clientProgram kernel now dev (.advance true) (pc (.scan slot.val)) =
      some (.tau, pc (.check slot))
  skip : ∀ dev slot, (dev.tasks slot).id ≠ taskId →
    clientProgram kernel now dev (.advance true) (pc (.scan slot.val)) =
      some (.tau, pc (.scan (slot.val + 1)))
  accept : ∀ dev slot, (dev.tasks slot).state ≠ .free →
    clientProgram kernel now dev (.advance true) (pc (.check slot)) =
      some (.tau, pc (.found slot))
  pass : ∀ dev slot, (dev.tasks slot).state = .free →
    clientProgram kernel now dev (.advance true) (pc (.check slot)) =
      some (.tau, pc (.scan (slot.val + 1)))
  stop : ∀ dev index, ¬ index < maxTasks →
    clientProgram kernel now dev (.advance true) (pc (.scan index)) = some (.tau, missed)

namespace Scanner

variable {kernel : Kernel} {now : UInt64} {taskId : UInt32}

/-- Where the scan ends. -/
def outcome (scanner : Scanner kernel now taskId) : Option Slot → ClientPc
  | some slot => scanner.pc (.found slot)
  | none => scanner.missed

/-- From any slot on, provided no earlier one matches, the scan ends where
`findTask` says. -/
private theorem alone_from (scanner : Scanner kernel now taskId) (dev : Dev) (index : Nat)
    (passed : ∀ other : Slot, other.val < index →
      (dev.tasks other).matchesId taskId = false) :
    ∃ actions, Alone (clientProgram kernel now) dev (scanner.pc (.scan index)) actions dev
      (scanner.outcome (findTask dev taskId)) := by
  by_cases inRange : index < maxTasks
  · -- The slot under the scan either is the first match or is passed as well.
    have next (slot : Slot) (isSlot : slot.val = index)
        (noMatch : (dev.tasks slot).matchesId taskId = false) :=
      alone_from scanner dev (index + 1) (fun other below => by
        by_cases same : other = slot
        · rw [same]
          exact noMatch
        · exact passed other (by
            have : other.val ≠ slot.val := fun equal => same (Fin.ext equal)
            omega))
    obtain ⟨slot, rfl⟩ : ∃ slot : Slot, slot.val = index := ⟨⟨index, inRange⟩, rfl⟩
    by_cases sameId : (dev.tasks slot).id = taskId
    · by_cases notFree : (dev.tasks slot).state ≠ .free
      · have found := findTask_eq_some_of_first
          (Task.matchesId_eq_true.mpr ⟨sameId, notFree⟩) passed
        rw [found]
        exact ⟨_, .step _ (scanner.hit dev slot sameId)
          (.step _ (scanner.accept dev slot notFree) (.done dev _))⟩
      · obtain ⟨actions, rest⟩ := next slot rfl (by simp [Task.matchesId, not_not.mp notFree])
        exact ⟨_, .step _ (scanner.hit dev slot sameId)
          (.step _ (scanner.pass dev slot (not_not.mp notFree)) rest)⟩
    · obtain ⟨actions, rest⟩ := next slot rfl (by simp [Task.matchesId, sameId])
      exact ⟨_, .step _ (scanner.skip dev slot sameId) rest⟩
  · have notFound : findTask dev taskId = none := by
      rw [findTask_eq_none]
      intro slot sameId
      have noMatch := passed slot (Nat.lt_of_lt_of_le slot.isLt (Nat.not_lt.mp inRange))
      simpa [Task.matchesId, sameId] using noMatch
    rw [notFound]
    exact ⟨_, .step _ (scanner.stop dev index inRange) (.done dev _)⟩
termination_by maxTasks - index

theorem alone (scanner : Scanner kernel now taskId) (dev : Dev) :
    ∃ actions, Alone (clientProgram kernel now) dev (scanner.pc (.scan 0)) actions dev
      (scanner.outcome (findTask dev taskId)) :=
  scanner.alone_from dev 0 nofun

/-- The scan of `task_query`. -/
def query (kernel : Kernel) (now : UInt64) (taskId : UInt32) : Scanner kernel now taskId where
  pc
    | .scan index => .query taskId (.scan index)
    | .check slot => .query taskId (.checkState slot)
    | .found slot => .query taskId (.readId slot)
  missed := .returned (.query taskId Errno.enoent.ret none)
  hit := fun dev slot sameId => by simp [clientProgram, clientStep, queryStep, sameId]
  skip := fun dev slot otherId => by simp [clientProgram, clientStep, queryStep, otherId]
  accept := fun dev slot notFree => by simp [clientProgram, clientStep, queryStep, notFree]
  pass := fun dev slot free => by simp [clientProgram, clientStep, queryStep, free]
  stop := fun dev index beyond => by simp [clientProgram, clientStep, queryStep, beyond]

/-- The scan of `task_cancel`. -/
def cancel (kernel : Kernel) (now : UInt64) (taskId : UInt32) : Scanner kernel now taskId where
  pc
    | .scan index => .cancel taskId (.scan index)
    | .check slot => .cancel taskId (.checkState slot)
    | .found slot => .cancel taskId (.writeState slot)
  missed := .returned (.cancel taskId Errno.enoent.ret)
  hit := fun dev slot sameId => by simp [clientProgram, clientStep, cancelStep, sameId]
  skip := fun dev slot otherId => by simp [clientProgram, clientStep, cancelStep, otherId]
  accept := fun dev slot notFree => by simp [clientProgram, clientStep, cancelStep, notFree]
  pass := fun dev slot free => by simp [clientProgram, clientStep, cancelStep, free]
  stop := fun dev index beyond => by simp [clientProgram, clientStep, cancelStep, beyond]

end Scanner

/-- CANCEL on its own is `task_cancel`. -/
theorem cancel_alone (kernel : Kernel) (now : UInt64) (dev : Dev) (taskId : UInt32) :
    ∃ actions, Alone (clientProgram kernel now) dev (.cancel taskId (.scan 0)) actions
      (taskCancel dev taskId).2 (.returned (.cancel taskId (taskCancel dev taskId).1)) := by
  obtain ⟨actions, scanned⟩ := (Scanner.cancel kernel now taskId).alone dev
  unfold taskCancel
  cases found : findTask dev taskId with
  | none =>
      rw [found] at scanned
      exact ⟨actions, scanned⟩
  | some slot =>
      rw [found] at scanned
      have stores : dev.modifyTask slot cancelTask =
          (Action.store slot .done).apply ((Action.store slot (.errorCode ecanceledCode)).apply
            ((Action.store slot (.state .cancelled)).apply dev)) := by
        simp [Action.apply, Store.apply, Dev.modifyTask, cancelTask]
      simp only [stores]
      exact ⟨_, scanned.trans (.step (.advance true) rfl (.step (.advance true) rfl
        (.step (.advance true) rfl (.done _ _))))⟩

/-! ## A worker -/

/-- What a worker does first with a task, from the head of its loop to the test of its
deadline. -/
def startActions (accel : AccelIndex) (slot : Slot) : List Action :=
  [.tau, .touch accel .prepareToWait, .tau, .touch accel .finishWait, .tau,
    .dequeue accel slot, .store slot (.state .running), .touch accel .raiseLoad]

/-- What it does after the `msleep(10)` of a task without a deadline, back to the head of its
loop. -/
def finishActions (now : UInt64) (accel : AccelIndex) (slot : Slot) : List Action :=
  [.tau, .tau, .store slot (.completeJiffies now), .store slot (.state .complete),
    .store slot (.errorCode 0), .touch accel .lowerLoad, .store slot .done,
    .unlink accel slot]

/-- The device after a list of actions. -/
def applyAll (actions : List Action) (dev : Dev) : Dev :=
  actions.foldl (fun dev action => action.apply dev) dev

/-- A worker on its own starts the task at the head of its queue. -/
theorem start_alone (kernel : Kernel) (now : UInt64) {accel : AccelIndex} {dev : Dev}
    {slot : Slot} {rest : List Slot} (running : (dev.accelerators accel).running = true)
    (head : (dev.accelerators accel).taskQueue = slot :: rest) :
    Alone (workerProgram kernel now accel) dev .loop (startActions accel slot)
      (applyAll (startActions accel slot) dev) (.exec slot .testTimeout) := by
  have atLoop : workerProgram kernel now accel dev false .loop = some (.tau, .prepare) := by
    simp [workerProgram, workerStep, running]
  refine .step false atLoop (.step false rfl ?_)
  refine .step false
    (show workerProgram kernel now accel _ false .testQueue = some (.tau, .finishWait) by
      simp [workerProgram, workerStep, Action.apply, Touch.apply, head]) (.step false rfl ?_)
  refine .step false
    (show workerProgram kernel now accel _ false .recheck = some (.tau, .dequeue) by
      simp [workerProgram, workerStep, Action.apply, Touch.apply, running]) ?_
  refine .step false
    (show workerProgram kernel now accel _ false .dequeue =
        some (.dequeue accel slot, .exec slot .writeRunning) by
      simp [workerProgram, workerStep, Action.apply, Touch.apply, head]) ?_
  exact .step false rfl (.step false rfl (.done _ _))

/-- A task without a deadline is executed by a short sleep. -/
theorem sleep_alone (kernel : Kernel) (now : UInt64) {accel : AccelIndex} {dev : Dev}
    {slot : Slot} (noDeadline : (dev.tasks slot).timeoutMs = 0) :
    Alone (workerProgram kernel now accel) dev (.exec slot .testTimeout) [.tau] dev
      (.exec slot .sleepShort) := by
  refine .step false ?_ (.done _ _)
  simp [workerProgram, workerStep, execStep, noDeadline]

/-- A worker on its own completes the task after its sleep. -/
theorem finish_alone (kernel : Kernel) (now : UInt64) (accel : AccelIndex) (slot : Slot)
    (dev : Dev) :
    Alone (workerProgram kernel now accel) dev (.exec slot .sleepShort)
      (finishActions now accel slot) (applyAll (finishActions now accel slot) dev) .loop :=
  .step false rfl (.step false rfl (.step false rfl (.step false rfl (.step false rfl
    (.step false rfl (.step false rfl (.step false rfl (.done _ _))))))))

/-- The device after a round of the worker that reads `now` as it completes the task. -/
def afterRound (now : UInt64) (accel : AccelIndex) (slot : Slot) (dev : Dev) : Dev :=
  applyAll (finishActions now accel slot) (applyAll (startActions accel slot) dev)

/-- A worker takes the task at the head of its queue through a round of its loop, with a sleep
of any length. -/
theorem round_steps (kernel : Kernel) (asleep : Nat) {system : System} {accel : AccelIndex}
    {slot : Slot} {rest : List Slot} (atLoop : system.workers accel = .loop)
    (running : (system.dev.accelerators accel).running = true)
    (head : (system.dev.accelerators accel).taskQueue = slot :: rest)
    (noDeadline : (system.dev.tasks slot).timeoutMs = 0) :
    ∃ events, (machine kernel).Steps system events
      { system with
        dev := afterRound (UInt64.ofNat (system.ticks + asleep)) accel slot system.dev
        ticks := system.ticks + asleep } := by
  have started := (start_alone kernel system.jiffies running head).trans
    (sleep_alone kernel system.jiffies (by
      simpa [applyAll, startActions, Action.apply, Store.apply] using noDeadline))
  have finished := finish_alone kernel (UInt64.ofNat (system.ticks + asleep)) accel slot
    (applyAll (startActions accel slot) system.dev)
  have toSleep := started.worker_steps system rfl atLoop rfl
  have sleeps := steps_tick kernel
    { system with
      dev := applyAll (startActions accel slot) system.dev
      workers := Function.update system.workers accel (.exec slot .sleepShort) } asleep
  have toLoop := finished.worker_steps
    { system with
      dev := applyAll (startActions accel slot) system.dev
      ticks := system.ticks + asleep
      workers := Function.update system.workers accel (.exec slot .sleepShort) } rfl
    (Function.update_self ..) rfl
  have backAtLoop : Function.update system.workers accel .loop = system.workers := by
    rw [← atLoop, Function.update_eq_self]
  simp only [Function.update_idem, backAtLoop] at toLoop
  exact ⟨_, (toSleep.trans sleeps).trans toLoop⟩

/-- What the worker's round leaves behind. -/
structure Worked (accel : AccelIndex) (slot : Slot) (before after : Dev) : Prop where
  freeTasks : after.freeTasks = before.freeTasks
  complete : (after.tasks slot).state = .complete
  others : ∀ other, other ≠ slot → after.tasks other = before.tasks other
  taskQueue : (after.accelerators accel).taskQueue =
    (before.accelerators accel).taskQueue.erase slot
  running : (after.accelerators accel).running = (before.accelerators accel).running

theorem worked (now : UInt64) (accel : AccelIndex) (slot : Slot) (dev : Dev) :
    Worked accel slot dev (afterRound now accel slot dev) where
  freeTasks := rfl
  complete := by
    simp [afterRound, applyAll, startActions, finishActions, Action.apply, Store.apply]
  others := fun other different => by
    simp [afterRound, applyAll, startActions, finishActions, Action.apply, Dev.modifyTask_other,
      different]
  taskQueue := by
    simp [afterRound, applyAll, startActions, finishActions, Action.apply, Touch.apply]
  running := by
    simp [afterRound, applyAll, startActions, finishActions, Action.apply, Touch.apply]

end CortexForge.Concurrent
