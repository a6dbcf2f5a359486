import CortexForge.Concurrent.Mirror

/-!
Contract: what one accelerator's tasks see of the others.

The accelerators share the pool, the id counter and the lookup by id, and the stopping
thread waits for every worker. The run is reduced to one accelerator by leaving out the
steps of the other workers, the SUBMITs to the other accelerators and the lookups of
their tasks. Two things of the others cannot be left out: a pool that they have used up
refuses a SUBMIT which the reduced run would accept, and the step by which a worker
leaves its thread is what `kthread_stop` waits for.

Owns: the steps that belong to the other accelerators, the blocks of the reduced run,
the correspondence of the two runs, and the runs that a mere deletion breaks.
-/

namespace CortexForge.Concurrent

open CortexForge.Foundation

/-! ## The reduced run -/

/-- The step belongs to another accelerator: it is a step of its worker, or of a SUBMIT to
it, or of a QUERY or CANCEL of one of its tasks. -/
def Deletes (accel : AccelIndex) (mine : Slot → Bool) (system : System) : Label → Prop
  | .worker target _ => target ≠ accel
  | .client _ (.call call copied) => (enterCall copied call).Foreign accel mine
  | .client thread (.advance _) => (system.clients thread).Foreign accel mine
  | .stopper | .tick => False

/-- The step takes a worker out of its thread function. -/
def LeavesThread (system : System) : Label → Prop
  | .worker target _ => Leaves system.dev target (system.workers target)
  | .client _ _ | .stopper | .tick => False

def Label.rename (mine : Slot → Bool) : Label → Label
  | .client thread (.call call copied) => .client thread (.call (call.rename mine) copied)
  | .client thread (.advance choice) => .client thread (.advance choice)
  | .worker target expired => .worker target expired
  | .stopper => .stopper
  | .tick => .tick

/-- The block of the reduced run for a step of the run.

A step of the other accelerators is left out, unless a worker leaves its thread by it. A
SUBMIT to the accelerator is made together with its allocation, and not at all if the
pool is exhausted. A lookup of the accelerator's own tasks takes as many steps as it has
slots to pass. Every other step is kept, under new ids. -/
inductive Answers (accel : AccelIndex) (mine : Slot → Bool) (system : System) :
    Label → List Label → Prop
  | deleted {label : Label} (deletes : Deletes accel mine system label)
      (stays : ¬ LeavesThread system label) : Answers accel mine system label []
  | leaves {target : AccelIndex} (expired : Bool) (different : target ≠ accel)
      (leaves : Leaves system.dev target (system.workers target)) :
      Answers accel mine system (.worker target expired) [.worker target false]
  | kept {label : Label} (keeps : ¬ Deletes accel mine system label) :
      Answers accel mine system label [label.rename mine]
  | requested {call : Call} {copied : Bool} {desc : TaskDesc} (thread : Nat)
      (asks : enterCall copied call = .submit desc accel .alloc) :
      Answers accel mine system (.client thread (.call call copied)) []
  | granted {thread : Nat} {desc : TaskDesc} (choice : Bool)
      (asking : system.clients thread = .submit desc accel .alloc)
      (room : system.dev.freeTasks ≠ []) :
      Answers accel mine system (.client thread (.advance choice))
        [.client thread (.call (.submit desc) true), .client thread (.advance choice)]
  | refused {thread : Nat} {desc : TaskDesc} (choice : Bool)
      (asking : system.clients thread = .submit desc accel .alloc)
      (exhausted : system.dev.freeTasks = []) :
      Answers accel mine system (.client thread (.advance choice)) []
  | scanned {thread : Nat} {taskId : UInt32} {look : Lookup} (choice : Bool) (count : Nat)
      (looking : (system.clients thread).lookup = some (taskId, look))
      (own : ¬ ForeignId mine taskId) :
      Answers accel mine system (.client thread (.advance choice))
        (List.replicate count (.client thread (.advance true)))

/-- What holds between a run and the reduced run at corresponding points. -/
structure Corresponds (accel : AccelIndex) (mine : Slot → Bool) (trace : List Event)
    (system : System) (reducedTrace : List Event) (reduced : System) : Prop where
  ticks : reduced.ticks = system.ticks
  dev : Mirrors accel mine system.dev reduced.dev
  worker : reduced.workers accel = (system.workers accel).rename mine
  others : ∀ other, other ≠ accel →
    reduced.workers other = if system.workers other = .exited then .exited else .loop
  stopper : reduced.stopper = system.stopper
  clients : ∀ thread, ClientMirrors accel mine (system.clients thread) (reduced.clients thread)
  order : dequeued accel reducedTrace = (dequeued accel trace).map (renameSlot mine)

theorem Corresponds.initial (accel : AccelIndex) (mine : Slot → Bool) (ticks : Nat) :
    Corresponds accel mine [] (initial ticks) [] (initial ticks) where
  ticks := rfl
  dev := Mirrors.initial accel mine
  worker := rfl
  others := fun _ _ => rfl
  stopper := rfl
  clients := fun _ => .own (show ClientPc.Owns accel mine .idle from trivial)
  order := rfl

/-! ## Whose slots the threads hold -/

section Holders

variable {accel target : AccelIndex} {mine : Slot → Bool} {trace : List Event} {system : System}
  {slot : Slot}

/-- A slot queued on an accelerator is a slot of that accelerator. -/
theorem Settles.mine_iff_of_accel (settles : Settles accel mine trace) (inv : Inv trace system)
    (queued : (ledger trace slot).point.accel? = some target) :
    mine slot = true ↔ target = accel := by
  have allocated : (ledger trace slot).point ≠ .free := by
    intro free
    rw [free] at queued
    cases queued
  rw [settles slot allocated, (inv.facts slot).target target queued]
  exact ⟨Fin.ext, congrArg Fin.val⟩

theorem Settles.mine_of_queued (settles : Settles accel mine trace) (inv : Inv trace system)
    (queued : slot ∈ (system.dev.accelerators accel).taskQueue) : mine slot = true := by
  have queuedHere : (ledger trace slot).point.accel? = some accel := by
    rw [inv.point_of_queued queued]
    rfl
  exact (settles.mine_iff_of_accel inv queuedHere).mpr rfl

/-- A worker executes slots of its accelerator. -/
theorem Settles.mine_iff_of_exec (settles : Settles accel mine trace) (inv : Inv trace system)
    {phase : WorkPhase} (executing : system.workers target = .exec slot phase) :
    mine slot = true ↔ target = accel := by
  refine settles.mine_iff_of_accel inv ?_
  have claimed : (system.workers target).claim target = some (slot, phase.point target) := by
    rw [executing]
    rfl
  rw [inv.workerClaim target slot _ claimed]
  exact Point.accel_of_place (Or.inr (phase.point_place target))

theorem Settles.mine_of_active (settles : Settles accel mine trace) (inv : Inv trace system)
    (active : slot ∈ (system.dev.accelerators accel).activeTasks) : mine slot = true := by
  rw [inv.executing accel, System.executes] at active
  cases pc : system.workers accel with
  | exec held phase =>
      have same : slot = held := by simpa [pc, WorkerPc.claim] using active
      rw [same]
      exact (settles.mine_iff_of_exec inv pc).mpr rfl
  | _ => simp [pc, WorkerPc.claim] at active

/-- A submission holds a slot of the accelerator it goes to. -/
theorem Settles.mine_iff_of_claim (settles : Settles accel mine trace) (inv : Inv trace system)
    {thread : Nat} {desc : TaskDesc} {phase : SubmitPhase} {claim : Claim}
    (submitting : system.clients thread = .submit desc target phase)
    (claimed : phase.claim thread desc = some claim) : mine claim.slot = true ↔ target = accel := by
  have claimed' : (system.clients thread).claim thread = some claim := by
    rw [submitting]
    exact claimed
  obtain ⟨point, sameDesc⟩ := inv.clientClaim thread claim claimed'
  have allocated : (ledger trace claim.slot).point ≠ .free := by
    intro free
    have place := ClientPc.claim_place claimed'
    rw [← point, free] at place
    cases place
  have valid : validateDesc claim.desc = .ok target := by
    have sound := inv.sound thread
    rw [submitting] at sound
    cases phase <;> simp only [SubmitPhase.claim, Option.some.injEq, reduceCtorEq] at claimed <;>
      subst claimed <;> first | exact sound | exact sound.elim
  rw [settles claim.slot allocated, sameDesc, validateDesc_ok valid]
  exact ⟨Fin.ext, congrArg Fin.val⟩

end Holders

/-! ## One step and its block -/

/-- The reduced run has a block for the step, and corresponds after it. -/
def Answered (kernel : Kernel) (accel : AccelIndex) (mine : Slot → Bool) (system : System)
    (label : Label) (trace : List Event) (next : System) (reducedTrace : List Event)
    (reduced : System) : Prop :=
  ∃ block events reached, Answers accel mine system label block ∧
    (machine kernel).execute block reduced = some (events, reached) ∧
    Corresponds accel mine trace next (reducedTrace ++ events) reached

/-- Two runs that correspond so far, and what the invariants say about them. -/
structure Stage (accel : AccelIndex) (mine : Slot → Bool) (trace : List Event) (system : System)
    (reducedTrace : List Event) (reduced : System) : Prop where
  corresponds : Corresponds accel mine trace system reducedTrace reduced
  inv : Inv trace system
  settled : Settles accel mine trace
  ordered : Ordered system.dev
  orderedReduced : Ordered reduced.dev
  counter : system.dev.nextTaskId.toNat ≤ maxTasks

section Steps

variable {kernel : Kernel} {accel : AccelIndex} {mine : Slot → Bool}
  {trace reducedTrace : List Event} {system reduced : System}

theorem Stage.of_run (run : (machine kernel).Run trace system)
    (runReduced : (machine kernel).Run reducedTrace reduced)
    (settled : Settles accel mine trace)
    (corresponds : Corresponds accel mine trace system reducedTrace reduced) :
    Stage accel mine trace system reducedTrace reduced where
  corresponds := corresponds
  inv := inv_of_run run
  settled := settled
  ordered := ordered_of_run run
  orderedReduced := ordered_of_run runReduced
  counter := by
    have := (ids_of_run run).counter
    omega

/-- The clock reads the same in both runs. -/
theorem Stage.jiffies (stage : Stage accel mine trace system reducedTrace reduced) :
    reduced.jiffies = system.jiffies := by
  rw [System.jiffies, System.jiffies, stage.corresponds.ticks]

/-- An action for the accelerator has the same effect in both runs. -/
theorem Stage.apply (stage : Stage accel mine trace system reducedTrace reduced) {action : Action}
    (owns : action.Owns accel mine) :
    Mirrors accel mine (action.apply system.dev) ((action.rename mine).apply reduced.dev) :=
  stage.corresponds.dev.apply owns (fun _ => stage.settled.mine_of_queued stage.inv)
    (fun _ => stage.settled.mine_of_active stage.inv)

theorem answered_tick (stage : Stage accel mine trace system reducedTrace reduced) :
    Answered kernel accel mine system .tick (trace ++ [⟨.clock, .tau⟩])
      { system with ticks := system.ticks + 1 } reducedTrace reduced := by
  have corresponds := stage.corresponds
  have taken : (machine kernel).step .tick reduced =
      some (⟨.clock, .tau⟩, { reduced with ticks := reduced.ticks + 1 }) := rfl
  refine ⟨[.tick], _, _, .kept id, Machine.execute_single taken, ?_⟩
  refine ⟨congrArg (· + 1) corresponds.ticks, corresponds.dev, corresponds.worker,
    corresponds.others, corresponds.stopper, corresponds.clients, ?_⟩
  rw [dequeued_snoc, dequeued_snoc, corresponds.order]
  simp [Event.dequeuedBy]

/-- The stopping thread takes the same step in both runs. -/
theorem stopperStep_mirrors (corresponds : Corresponds accel mine trace system reducedTrace reduced)
    {action : Action} {pc : StopperPc}
    (taken : stopperStep system.dev system.workers system.stopper = some (action, pc)) :
    stopperStep reduced.dev reduced.workers reduced.stopper = some (action, pc) ∧
      action.Owns accel mine ∧ action.rename mine = action := by
  have exited (other : AccelIndex) :
      reduced.workers other = .exited ↔ system.workers other = .exited := by
    by_cases same : other = accel
    · rw [same, corresponds.worker]
      cases system.workers accel <;> simp [WorkerPc.rename]
    · rw [corresponds.others other same]
      split <;> simp_all
  rw [corresponds.stopper]
  generalize system.stopper = before at taken
  cases stopperMove_of_step taken with
  | skip other stopped =>
      refine ⟨?_, trivial, rfl⟩
      simp only [stopperStep, dif_pos other.isLt, Fin.eta, corresponds.dev.workerThread, stopped,
        ↓reduceIte]
  | select other started =>
      refine ⟨?_, trivial, rfl⟩
      simp only [stopperStep, dif_pos other.isLt, Fin.eta, corresponds.dev.workerThread,
        if_neg started]
  | finish index past =>
      refine ⟨?_, trivial, rfl⟩
      simp only [stopperStep, dif_neg (Nat.not_lt.mpr past)]
  | join other gone =>
      refine ⟨?_, trivial, rfl⟩
      simp only [stopperStep, if_pos ((exited other).mpr gone)]
  | _ => exact ⟨rfl, trivial, rfl⟩

theorem answered_stopper (stage : Stage accel mine trace system reducedTrace reduced)
    {action : Action} {pc : StopperPc}
    (taken : stopperStep system.dev system.workers system.stopper = some (action, pc)) :
    Answered kernel accel mine system .stopper (trace ++ [⟨.stopper, action⟩])
      { system with dev := action.apply system.dev, stopper := pc } reducedTrace reduced := by
  have corresponds := stage.corresponds
  obtain ⟨takenReduced, owns, sameAction⟩ := stopperStep_mirrors corresponds taken
  have stepped : (machine kernel).step .stopper reduced = some (⟨.stopper, action⟩,
      { reduced with dev := action.apply reduced.dev, stopper := pc }) := by
    show step kernel .stopper reduced = _
    simp only [step, takenReduced]
    rfl
  have dev := stage.apply owns
  rw [sameAction] at dev
  refine ⟨[.stopper], _, _, .kept id, Machine.execute_single stepped, ?_⟩
  refine ⟨corresponds.ticks, dev, corresponds.worker, corresponds.others, rfl,
    corresponds.clients, ?_⟩
  rw [dequeued_snoc, dequeued_snoc, corresponds.order]
  simp [Event.dequeuedBy]

/-! ### Workers -/

/-- The accelerator's own worker. -/
theorem answered_own_worker (stage : Stage accel mine trace system reducedTrace reduced)
    {expired : Bool} {action : Action} {pc : WorkerPc}
    (taken : workerStep kernel system.dev system.jiffies expired accel (system.workers accel) =
      some (action, pc)) :
    Answered kernel accel mine system (.worker accel expired) (trace ++ [⟨.worker accel, action⟩])
      (system.moveWorker accel action pc) reducedTrace reduced := by
  have corresponds := stage.corresponds
  obtain ⟨takenReduced, owns⟩ := workerStep_rename corresponds.dev
    (fun _ => stage.settled.mine_of_queued stage.inv)
    (fun _ _ executing => (stage.settled.mine_iff_of_exec stage.inv executing).mpr rfl) taken
  rw [← corresponds.worker, ← stage.jiffies] at takenReduced
  refine ⟨[.worker accel expired], _, _, .kept (fun deleted => deleted rfl),
    Machine.execute_single (step_worker takenReduced), ?_⟩
  refine ⟨corresponds.ticks, stage.apply owns, ?_, ?_, corresponds.stopper,
    corresponds.clients, ?_⟩
  · simp [System.moveWorker]
  · intro other different
    simpa [System.moveWorker, different] using corresponds.others other different
  · rw [dequeued_snoc, dequeued_snoc, corresponds.order, List.map_append]
    cases action <;> simp [Event.dequeuedBy, Action.rename]

/-- A step of another worker, after which the reduced run has that worker where it should
be. -/
theorem Corresponds.other_worker
    (corresponds : Corresponds accel mine trace system reducedTrace reduced)
    {target : AccelIndex} {action : Action} {pc reducedPc : WorkerPc} {events : List Event}
    (different : target ≠ accel) (foreign : action.Foreign accel mine)
    (standing : reducedPc = if pc = .exited then .exited else .loop)
    (silent : ∀ event ∈ events, event.actor = .worker target) :
    Corresponds accel mine (trace ++ [⟨.worker target, action⟩])
      (system.moveWorker target action pc) (reducedTrace ++ events)
      { reduced with workers := Function.update reduced.workers target reducedPc } := by
  refine ⟨corresponds.ticks, corresponds.dev.skip foreign, ?_, ?_, corresponds.stopper,
    corresponds.clients, ?_⟩
  · simpa [System.moveWorker, Ne.symm different] using corresponds.worker
  · intro other otherDifferent
    by_cases same : other = target
    · subst same
      simpa [System.moveWorker] using standing
    · simpa [System.moveWorker, same] using corresponds.others other otherDifferent
  · have none (taken : Action) : Event.dequeuedBy accel ⟨.worker target, taken⟩ = Option.none := by
      cases taken <;> simp [Event.dequeuedBy, different]
    have noneOf : events.filterMap (Event.dequeuedBy accel) = [] := by
      rw [List.filterMap_eq_nil_iff]
      rintro ⟨actor, taken⟩ member
      cases silent _ member
      exact none taken
    rw [dequeued_snoc, none, dequeued, List.filterMap_append, noneOf]
    simpa [dequeued] using corresponds.order

/-- The worker of another accelerator leaves its thread, or is left out. -/
theorem answered_other_worker (stage : Stage accel mine trace system reducedTrace reduced)
    {target : AccelIndex} (different : target ≠ accel) {expired : Bool} {action : Action}
    {pc : WorkerPc}
    (taken : workerStep kernel system.dev system.jiffies expired target (system.workers target) =
      some (action, pc)) :
    Answered kernel accel mine system (.worker target expired)
      (trace ++ [⟨.worker target, action⟩]) (system.moveWorker target action pc) reducedTrace
      reduced := by
  have corresponds := stage.corresponds
  have foreignSlots (slot : Slot) (phase : WorkPhase)
      (executing : system.workers target = .exec slot phase) : mine slot = false := by
    rw [← Bool.not_eq_true, stage.settled.mine_iff_of_exec stage.inv executing]
    exact different
  obtain ⟨foreign, notExited, leaves⟩ := workerStep_foreign different foreignSlots taken
  have waiting : reduced.workers target = .loop := by
    rw [corresponds.others target different, if_neg notExited]
  by_cases leaving : Leaves system.dev target (system.workers target)
  · have stopped : (reduced.dev.accelerators target).running = false := by
      rw [corresponds.dev.running]
      exact leaving.2
    have takenReduced : workerStep kernel reduced.dev reduced.jiffies false target
        (reduced.workers target) = some (.tau, .exited) := by
      rw [waiting]
      simp [workerStep, stopped]
    exact ⟨[.worker target false], _, _, .leaves expired different leaving,
      Machine.execute_single (step_worker takenReduced),
      corresponds.other_worker different foreign (by rw [if_pos (leaves.mpr leaving)]) (by simp)⟩
  · have standing : reduced.workers target = if pc = .exited then .exited else .loop := by
      rw [waiting, if_neg (mt leaves.mp leaving)]
    have skipped : Corresponds accel mine (trace ++ [⟨.worker target, action⟩])
        (system.moveWorker target action pc) (reducedTrace ++ [])
        { reduced with
          workers := Function.update reduced.workers target (reduced.workers target) } :=
      corresponds.other_worker different foreign standing (by simp)
    rw [Function.update_eq_self] at skipped
    exact ⟨[], [], reduced, .deleted different leaving, rfl, skipped⟩

/-! ### Clients -/

/-- A step of a client, with whatever steps of the same client the reduced run takes. -/
theorem Corresponds.client (corresponds : Corresponds accel mine trace system reducedTrace reduced)
    {thread : Nat} {action : Action} {pc reducedPc : ClientPc} {dev : Dev} {events : List Event}
    (mirrors : Mirrors accel mine (action.apply system.dev) dev)
    (clientMirrors : ClientMirrors accel mine pc reducedPc)
    (silent : ∀ event ∈ events, event.actor = .client thread) :
    Corresponds accel mine (trace ++ [⟨.client thread, action⟩])
      (system.moveClient thread action pc) (reducedTrace ++ events)
      { reduced with dev := dev, clients := Function.update reduced.clients thread reducedPc } := by
  refine ⟨corresponds.ticks, mirrors, corresponds.worker, corresponds.others,
    corresponds.stopper, ?_, ?_⟩
  · intro other
    by_cases same : other = thread
    · subst same
      simpa [System.moveClient] using clientMirrors
    · simpa [System.moveClient, same] using corresponds.clients other
  · have noneOf : events.filterMap (Event.dequeuedBy accel) = [] := by
      rw [List.filterMap_eq_nil_iff]
      rintro ⟨actor, taken⟩ member
      cases silent _ member
      rfl
    have none : Event.dequeuedBy accel ⟨.client thread, action⟩ = Option.none := rfl
    rw [dequeued_snoc, none, dequeued, List.filterMap_append, noneOf]
    simpa [dequeued] using corresponds.order

/-- A step of a client that the reduced run leaves out. -/
theorem Corresponds.client_skip
    (corresponds : Corresponds accel mine trace system reducedTrace reduced) {thread : Nat}
    {action : Action} {pc : ClientPc}
    (mirrors : Mirrors accel mine (action.apply system.dev) reduced.dev)
    (clientMirrors : ClientMirrors accel mine pc (reduced.clients thread)) :
    Corresponds accel mine (trace ++ [⟨.client thread, action⟩])
      (system.moveClient thread action pc) (reducedTrace ++ []) reduced := by
  have skipped : Corresponds accel mine (trace ++ [⟨.client thread, action⟩])
      (system.moveClient thread action pc) (reducedTrace ++ [])
      { reduced with
        clients := Function.update reduced.clients thread (reduced.clients thread) } :=
    corresponds.client mirrors clientMirrors (by simp)
  simpa only [Function.update_eq_self] using skipped

/-- A call is entered in both runs, left out, or postponed until there is a slot. -/
theorem answered_call (stage : Stage accel mine trace system reducedTrace reduced)
    {thread : Nat} (resting : (system.clients thread).Resting) (call : Call) (copied : Bool) :
    Answered kernel accel mine system (.client thread (.call call copied))
      (trace ++ [⟨.client thread, .tau⟩])
      (system.moveClient thread .tau (enterCall copied call)) reducedTrace reduced := by
  have corresponds := stage.corresponds
  have restingReduced := (corresponds.clients thread).resting resting
  rcases enterCall_cases accel mine copied call with foreign | ⟨desc, -, -, -, asks⟩ | owns
  · exact ⟨[], [], reduced, .deleted foreign id, rfl,
      corresponds.client_skip corresponds.dev (.deleted foreign restingReduced)⟩
  · refine ⟨[], [], reduced, .requested thread asks, rfl,
      corresponds.client_skip corresponds.dev ?_⟩
    rw [asks]
    exact .waiting desc restingReduced
  · have taken : clientStep kernel reduced.dev reduced.jiffies (.call (call.rename mine) copied)
        (reduced.clients thread) = some (.tau, enterCall copied (call.rename mine)) :=
      clientStep_call restingReduced _ _
    refine ⟨_, _, _, .kept owns.not_foreign, Machine.execute_single (step_client taken), ?_⟩
    rw [enterCall_rename]
    exact corresponds.client corresponds.dev (.own owns) (by simp)

/-! ### Lookups -/

section Advance

variable {thread : Nat} {choice : Bool} {action : Action} {pc : ClientPc} {taskId : UInt32}
  {look : Lookup}

/-- The task a lookup has found has the sought id, or the sought id was 0. -/
theorem Stage.found_id (stage : Stage accel mine trace system reducedTrace reduced) {slot : Slot}
    (looking : (system.clients thread).lookup = some (taskId, .found slot)) :
    taskId = 0 ∨ taskId.toNat = slot.val + 1 := by
  obtain ⟨visible, zero | sameId⟩ := stage.inv.looks thread taskId _ looking
  · exact Or.inl zero
  · have allocated : (ledger trace slot).point ≠ .free := visible.filled.ne_free
    right
    rw [← sameId, ← (stage.inv.facts slot).taskId allocated]
    exact stage.ordered.ids slot ((stage.ordered.below stage.inv).mpr allocated)

/-- A lookup of another accelerator's task is left out. -/
theorem answered_foreign_lookup (stage : Stage accel mine trace system reducedTrace reduced)
    (looking : (system.clients thread).lookup = some (taskId, look))
    (foreign : ForeignId mine taskId) (resting : (reduced.clients thread).Resting)
    (taken : clientStep kernel system.dev system.jiffies (.advance choice)
      (system.clients thread) = some (action, pc)) :
    Answered kernel accel mine system (.client thread (.advance choice))
      (trace ++ [⟨.client thread, action⟩]) (system.moveClient thread action pc) reducedTrace
      reduced := by
  obtain ⟨outcome, effect⟩ := lookup_advance looking taken
  have dev : Mirrors accel mine (action.apply system.dev) reduced.dev := by
    rcases effect with rfl | ⟨slot, write, rfl, rfl⟩
    · exact stage.corresponds.dev
    · obtain ⟨other, notMine, isId⟩ := foreign
      have sameSlot : slot = other := by
        rcases stage.found_id looking with rfl | isSlot
        · exact absurd isId.symm (Nat.succ_ne_zero _)
        · exact Fin.ext (by omega)
      rw [← sameSlot] at notMine
      exact stage.corresponds.dev.skip notMine
  have deletes : Deletes accel mine system (.client thread (.advance choice)) :=
    (ClientPc.foreign_of_lookup looking).mpr foreign
  refine ⟨[], [], reduced, .deleted deletes id, rfl, stage.corresponds.client_skip dev ?_⟩
  rcases outcome with ⟨after, ahead, -, -⟩ | ⟨reply, rfl, notSubmit, -⟩
  · exact .deleted ((ClientPc.foreign_of_lookup ahead).mpr foreign) resting
  · exact .answered_other notSubmit resting

/-- A lookup that the reduced run makes as well, when it ends without a task of the
accelerator: the reduced run scans to the end of its array. -/
theorem answered_miss (stage : Stage accel mine trace system reducedTrace reduced)
    {reply : Reply} (index : Nat)
    (looking : (system.clients thread).lookup = some (taskId, look))
    (own : ¬ ForeignId mine taskId)
    (scanning : reduced.clients thread = ((system.clients thread).scanAt index).rename mine)
    (noMatch : ∀ slot : Slot, rank mine index ≤ slot.val →
      (reduced.dev.tasks slot).matchesId (renameId mine taskId) = false)
    (dev : Mirrors accel mine (action.apply system.dev) reduced.dev)
    (notSubmit : ∀ ret desc, reply ≠ .submit ret desc) :
    Answered kernel accel mine system (.client thread (.advance choice))
      (trace ++ [⟨.client thread, action⟩])
      (system.moveClient thread action (.returned reply)) reducedTrace reduced := by
  obtain ⟨count, reducedReply, executed⟩ :=
    lookup_misses kernel thread index reduced looking scanning noMatch
  refine ⟨_, _, _, .scanned choice count looking own, executed, ?_⟩
  refine stage.corresponds.client dev (.answered_other notSubmit (Or.inr ⟨reducedReply, rfl⟩)) ?_
  intro event member
  rw [List.eq_of_mem_replicate member]

/-- A lookup that the reduced run makes as well, while it stands at a slot of another
accelerator: the reduced run waits. -/
theorem answered_wait (stage : Stage accel mine trace system reducedTrace reduced)
    (looking : (system.clients thread).lookup = some (taskId, look))
    (own : ¬ ForeignId mine taskId)
    (dev : Mirrors accel mine (action.apply system.dev) reduced.dev)
    (mirrors : ClientMirrors accel mine pc (reduced.clients thread)) :
    Answered kernel accel mine system (.client thread (.advance choice))
      (trace ++ [⟨.client thread, action⟩]) (system.moveClient thread action pc) reducedTrace
      reduced :=
  ⟨List.replicate 0 _, [], reduced, .scanned choice 0 looking own, rfl,
    stage.corresponds.client_skip dev mirrors⟩

/-- What a lookup at a slot of another accelerator comes to leaves it waiting. -/
theorem waits_of_astray {dev : Dev} {slot : Slot} {after : Lookup}
    (ahead : pc.lookup = some (taskId, after)) (moved : LookupStep dev taskId look after)
    (standing : look = .check slot ∨ look = .found slot) (own : ¬ ForeignId mine taskId)
    (foreign : mine slot = false) :
    ClientMirrors accel mine pc ((pc.scanAt slot.val).rename mine) := by
  cases moved with
  | hit other => rcases standing with stands | stands <;> cases stands
  | skip other => rcases standing with stands | stands <;> cases stands
  | accept other notFree =>
      rcases standing with stands | stands <;> cases stands
      exact .astray ahead (Or.inr rfl) own foreign
  | keep other =>
      rcases standing with stands | stands <;> cases stands
      exact .astray ahead (Or.inr rfl) own foreign
  | pass other free =>
      rcases standing with stands | stands <;> cases stands
      rw [← ClientPc.rename_scanAt_succ foreign, ← ClientPc.eq_scanAt ahead]
      exact .own ((ClientPc.owns_of_lookup ahead).mpr ⟨own, trivial⟩)

/-- A lookup that stands at a slot of another accelerator waits in the reduced run, until
it passes the slot or ends there. -/
theorem answered_astray (stage : Stage accel mine trace system reducedTrace reduced) {slot : Slot}
    (looking : (system.clients thread).lookup = some (taskId, look))
    (standing : look = .check slot ∨ look = .found slot) (own : ¬ ForeignId mine taskId)
    (foreign : mine slot = false)
    (scanning : reduced.clients thread = ((system.clients thread).scanAt slot.val).rename mine)
    (taken : clientStep kernel system.dev system.jiffies (.advance choice)
      (system.clients thread) = some (action, pc)) :
    Answered kernel accel mine system (.client thread (.advance choice))
      (trace ++ [⟨.client thread, action⟩]) (system.moveClient thread action pc) reducedTrace
      reduced := by
  obtain ⟨outcome, effect⟩ := lookup_advance looking taken
  have dev : Mirrors accel mine (action.apply system.dev) reduced.dev := by
    rcases effect with rfl | ⟨held, write, rfl, rfl⟩
    · exact stage.corresponds.dev
    · rcases standing with stands | stands <;> cases stands
      exact stage.corresponds.dev.skip foreign
  rcases outcome with ⟨after, ahead, moved, sameCall⟩ | ⟨reply, rfl, notSubmit, ends⟩
  · refine answered_wait stage looking own dev ?_
    rw [scanning, ← sameCall]
    exact waits_of_astray ahead moved standing own foreign
  · -- Only a lookup of id 0 can have found the slot, and no slot in use has that id.
    have isFound : look = .found slot := by
      rcases standing with rfl | atFound
      · rcases ends with ⟨_, isScan, -⟩ | ⟨_, isFound⟩
        · cases isScan
        · cases isFound
      · exact atFound
    subst isFound
    have zero : taskId = 0 := by
      rcases stage.found_id looking with zero | isId
      · exact zero
      · exact absurd ⟨slot, foreign, isId⟩ own
    subst zero
    exact answered_miss stage slot.val looking own scanning
      (fun other _ => stage.orderedReduced.not_matches_zero other) dev notSubmit

/-- A lookup at a slot of the accelerator takes the same step in both runs. -/
theorem answered_steady_lookup (stage : Stage accel mine trace system reducedTrace reduced)
    (looking : (system.clients thread).lookup = some (taskId, look))
    (own : ¬ ForeignId mine taskId) (steady : look.Steady mine)
    (standing : reduced.clients thread = (system.clients thread).rename mine)
    (taken : clientStep kernel system.dev system.jiffies (.advance choice)
      (system.clients thread) = some (action, pc)) :
    Answered kernel accel mine system (.client thread (.advance choice))
      (trace ++ [⟨.client thread, action⟩]) (system.moveClient thread action pc) reducedTrace
      reduced := by
  obtain ⟨takenReduced, actionOwns, pcOwns⟩ :=
    lookup_rename stage.corresponds.dev stage.ordered looking own steady taken
  rw [← standing, ← stage.jiffies] at takenReduced
  have kept : ¬ Deletes accel mine system (.client thread (.advance choice)) :=
    mt (ClientPc.foreign_of_lookup looking).mp own
  exact ⟨_, _, _, .kept kept, Machine.execute_single (step_client takenReduced),
    stage.corresponds.client (stage.apply actionOwns) (.own pcOwns) (by simp)⟩

/-- A scan that is not at a slot of the accelerator: it passes a slot of another one, or
the array ends. -/
theorem answered_unsteady_scan (stage : Stage accel mine trace system reducedTrace reduced)
    {index : Nat} (looking : (system.clients thread).lookup = some (taskId, .scan index))
    (own : ¬ ForeignId mine taskId) (unsteady : ¬ Mine mine index)
    (standing : reduced.clients thread = (system.clients thread).rename mine)
    (taken : clientStep kernel system.dev system.jiffies (.advance choice)
      (system.clients thread) = some (action, pc)) :
    Answered kernel accel mine system (.client thread (.advance choice))
      (trace ++ [⟨.client thread, action⟩]) (system.moveClient thread action pc) reducedTrace
      reduced := by
  obtain ⟨outcome, effect⟩ := lookup_advance looking taken
  have isTau : action = .tau := by
    rcases effect with isTau | ⟨slot, write, isFound, -⟩
    · exact isTau
    · cases isFound
  subst isTau
  have scanning : reduced.clients thread =
      ((system.clients thread).scanAt index).rename mine := by
    rw [standing, ← ClientPc.eq_scanAt looking]
  rcases outcome with ⟨after, ahead, moved, sameCall⟩ | ⟨reply, rfl, notSubmit, ends⟩
  · have foreign (slot : Slot) (isSlot : slot.val = index) : mine slot = false := by
      subst isSlot
      simpa [mine_val] using unsteady
    refine answered_wait stage looking own stage.corresponds.dev ?_
    rw [scanning, ← sameCall]
    cases moved with
    | hit slot sameId => exact .astray ahead (Or.inl rfl) own (foreign slot rfl)
    | skip slot otherId =>
        rw [← ClientPc.rename_scanAt_succ (foreign slot rfl), ← ClientPc.eq_scanAt ahead]
        exact .own ((ClientPc.owns_of_lookup ahead).mpr ⟨own, trivial⟩)
  · -- Past the last slot: what is left of the reduced array has never been used.
    have beyond : maxTasks ≤ index := by
      rcases ends with ⟨other, isScan, beyond⟩ | ⟨slot, isFound⟩
      · cases isScan
        exact Nat.not_lt.mp beyond
      · cases isFound
    refine answered_miss stage index looking own scanning ?_ stage.corresponds.dev notSubmit
    intro slot ahead
    have unused : reduced.dev.nextTaskId.toNat ≤ slot.val := by
      rw [stage.corresponds.dev.counter]
      exact (rank_mono (stage.counter.trans beyond)).trans ahead
    rw [stage.orderedReduced.fresh slot unused]
    simp [Task.matchesId, Task.zero]

/-- A lookup that both runs make. -/
theorem answered_own_lookup (stage : Stage accel mine trace system reducedTrace reduced)
    (looking : (system.clients thread).lookup = some (taskId, look))
    (own : ¬ ForeignId mine taskId) (owns : look.Owns mine)
    (standing : reduced.clients thread = (system.clients thread).rename mine)
    (taken : clientStep kernel system.dev system.jiffies (.advance choice)
      (system.clients thread) = some (action, pc)) :
    Answered kernel accel mine system (.client thread (.advance choice))
      (trace ++ [⟨.client thread, action⟩]) (system.moveClient thread action pc) reducedTrace
      reduced := by
  by_cases steady : look.Steady mine
  · exact answered_steady_lookup stage looking own steady standing taken
  · cases look with
    | check slot => exact absurd owns steady
    | found slot => exact absurd owns steady
    | scan index => exact answered_unsteady_scan stage looking own steady standing taken

/-! ### Submissions -/

/-- The check of `task_submit` passes in every run. -/
theorem Inv.check_passes (inv : Inv trace system) {desc : TaskDesc} {target : AccelIndex}
    {slot : Slot} (checking : system.clients thread = .submit desc target (.check slot)) :
    ¬ numAccelerators ≤ (system.dev.tasks slot).accelType.toNat := by
  have claimed : (system.clients thread).claim thread = some ⟨slot, .filled thread, desc⟩ := by
    rw [checking]
    rfl
  obtain ⟨point, sameDesc⟩ := inv.clientClaim thread _ claimed
  have filled : (ledger trace slot).point.Filled := by
    rw [point]
    trivial
  have sound := inv.sound thread
  rw [checking] at sound
  rw [((inv.facts slot).payload filled).accelType, sameDesc, validateDesc_ok sound]
  exact Nat.not_le.mpr target.isLt

/-- The slot of an allocation belongs to the accelerator of its descriptor. -/
theorem Settles.alloc {slot : Slot} {desc : TaskDesc}
    (settles : Settles accel mine (trace ++ [⟨.client thread, .alloc slot taskId desc⟩])) :
    mine slot = true ↔ desc.accelType.toNat = accel.val := by
  have settled := settles slot
  rw [ledger_of_about rfl] at settled
  exact settled (by simp [Life.advance])

/-- A SUBMIT that asks for a slot: refused and left out, or granted in both runs. -/
theorem answered_alloc (stage : Stage accel mine trace system reducedTrace reduced)
    {desc : TaskDesc} (asking : system.clients thread = .submit desc accel .alloc)
    (resting : (reduced.clients thread).Resting)
    (settles : Settles accel mine (trace ++ [⟨.client thread, action⟩]))
    (taken : clientStep kernel system.dev system.jiffies (.advance choice)
      (system.clients thread) = some (action, pc)) :
    Answered kernel accel mine system (.client thread (.advance choice))
      (trace ++ [⟨.client thread, action⟩]) (system.moveClient thread action pc) reducedTrace
      reduced := by
  have valid : validateDesc desc = .ok accel := by
    have sound := stage.inv.sound thread
    rw [asking] at sound
    exact sound
  rw [asking] at taken
  cases free : system.dev.freeTasks with
  | nil =>
      simp only [clientStep, submitStep, free, Option.some.injEq, Prod.mk.injEq] at taken
      obtain ⟨rfl, rfl⟩ := taken
      exact ⟨[], [], reduced, .refused choice asking free, rfl,
        stage.corresponds.client_skip stage.corresponds.dev
          (.answered_refused Errno.enomem desc resting)⟩
  | cons slot rest =>
      simp only [clientStep, submitStep, free, Option.some.injEq, Prod.mk.injEq] at taken
      obtain ⟨rfl, rfl⟩ := taken
      have own : mine slot = true := settles.alloc.mpr (validateDesc_ok valid)
      obtain ⟨⟨others, freeReduced⟩, dev⟩ :=
        stage.corresponds.dev.alloc_own stage.ordered stage.orderedReduced free own desc
      have entered : clientStep kernel reduced.dev reduced.jiffies (.call (.submit desc) true)
          (reduced.clients thread) = some (.tau, .submit desc accel .alloc) := by
        rw [clientStep_call resting]
        simp [enterCall, valid]
      have granted : clientStep kernel
          (reduced.moveClient thread .tau (.submit desc accel .alloc)).dev
          (reduced.moveClient thread .tau (.submit desc accel .alloc)).jiffies (.advance choice)
          ((reduced.moveClient thread .tau (.submit desc accel .alloc)).clients thread) =
          some (.alloc (renameSlot mine slot) (reduced.dev.nextTaskId + 1) desc,
            .submit desc accel (.fill (renameSlot mine slot))) := by
        simp only [System.moveClient, Function.update_self, Action.apply, clientStep, submitStep,
          freeReduced]
      refine ⟨_, _, _, .granted choice asking (by simp [free]),
        Machine.execute_cons (step_client entered) (Machine.execute_single (step_client granted)),
        ?_⟩
      have mirrored : ClientMirrors accel mine (.submit desc accel (.fill slot))
          (.submit desc accel (.fill (renameSlot mine slot))) :=
        .own (show ClientPc.Owns accel mine (.submit desc accel (.fill slot)) from ⟨rfl, own⟩)
      have silent : ∀ event ∈ [Event.mk (.client thread) .tau, Event.mk (.client thread)
          (.alloc (renameSlot mine slot) (reduced.dev.nextTaskId + 1) desc)],
          event.actor = .client thread := by simp
      have moved := stage.corresponds.client dev mirrored silent
      simpa only [System.moveClient, Function.update_idem, Action.apply] using moved

/-- A SUBMIT to another accelerator touches nothing of this one. -/
theorem submitStep_foreign (stage : Stage accel mine trace system reducedTrace reduced)
    {desc : TaskDesc} {target : AccelIndex} {phase : SubmitPhase} (choice : Bool)
    (different : target ≠ accel)
    (allocated : ∀ slot rest, phase = .alloc → system.dev.freeTasks = slot :: rest →
      mine slot = false)
    (submitting : system.clients thread = .submit desc target phase) :
    Mirrors accel mine
        ((submitStep system.dev system.jiffies choice desc target phase).1.apply system.dev)
        reduced.dev ∧
      ∀ reducedPc : ClientPc, reducedPc.Resting → ClientMirrors accel mine
        (submitStep system.dev system.jiffies choice desc target phase).2 reducedPc := by
  have sound := stage.inv.sound thread
  rw [submitting] at sound
  have mirrors := stage.corresponds.dev
  have foreignSlot (claim : Claim) (claimed : phase.claim thread desc = some claim) :
      mine claim.slot = false := by
    rw [← Bool.not_eq_true, stage.settled.mine_iff_of_claim stage.inv submitting claimed]
    exact different
  have inFlight (next : SubmitPhase) (reducedPc : ClientPc) (resting : reducedPc.Resting) :
      ClientMirrors accel mine (.submit desc target next) reducedPc :=
    .deleted different resting
  cases phase with
  | alloc =>
      cases free : system.dev.freeTasks with
      | nil =>
          simp only [submitStep, free]
          exact ⟨mirrors, fun _ resting => .answered_refused Errno.enomem desc resting⟩
      | cons slot rest =>
          simp only [submitStep, free]
          exact ⟨mirrors.alloc_foreign stage.ordered free (allocated slot rest rfl free) desc,
            inFlight _⟩
  | check slot =>
      simp only [submitStep]
      split <;> exact ⟨mirrors, inFlight _⟩
  | copyOut taskId =>
      simp only [submitStep]
      split
      · refine ⟨mirrors, fun _ resting => .answered (Or.inr ⟨_, rfl⟩) resting ?_⟩
        intro other accepted
        cases accepted
        rw [validateDesc_ok sound]
        exact fun same => different (Fin.ext same)
      · exact ⟨mirrors, fun _ resting => .answered_refused Errno.efault desc resting⟩
  | rollback slot ret => exact sound.elim
  | fill slot => exact ⟨mirrors.skip (foreignSlot _ rfl), inFlight _⟩
  | writePending slot => exact ⟨mirrors.skip (foreignSlot _ rfl), inFlight _⟩
  | writeSubmitJiffies slot stamp => exact ⟨mirrors.skip (foreignSlot _ rfl), inFlight _⟩
  | enqueue slot => exact ⟨mirrors.skip different, inFlight _⟩
  | wakeUp slot => exact ⟨mirrors.skip ⟨different, by simp, by simp⟩, inFlight _⟩
  | readJiffies slot => exact ⟨mirrors, inFlight _⟩
  | readId slot => exact ⟨mirrors, inFlight _⟩

/-- A SUBMIT to another accelerator is left out. -/
theorem answered_foreign_submit (stage : Stage accel mine trace system reducedTrace reduced)
    {desc : TaskDesc} {target : AccelIndex} {phase : SubmitPhase} (different : target ≠ accel)
    (submitting : system.clients thread = .submit desc target phase)
    (resting : (reduced.clients thread).Resting)
    (settles : Settles accel mine (trace ++ [⟨.client thread, action⟩]))
    (taken : clientStep kernel system.dev system.jiffies (.advance choice)
      (system.clients thread) = some (action, pc)) :
    Answered kernel accel mine system (.client thread (.advance choice))
      (trace ++ [⟨.client thread, action⟩]) (system.moveClient thread action pc) reducedTrace
      reduced := by
  rw [submitting] at taken
  have allocated (slot : Slot) (rest : List Slot) (isAlloc : phase = .alloc)
      (free : system.dev.freeTasks = slot :: rest) : mine slot = false := by
    subst isAlloc
    simp only [clientStep, submitStep, free, Option.some.injEq, Prod.mk.injEq] at taken
    obtain ⟨rfl, rfl⟩ := taken
    have sound := stage.inv.sound thread
    rw [submitting] at sound
    rw [← Bool.not_eq_true, settles.alloc, validateDesc_ok sound]
    exact fun same => different (Fin.ext same)
  obtain ⟨dev, mirrored⟩ := submitStep_foreign stage choice different allocated submitting
  simp only [clientStep, Option.some.injEq] at taken
  rw [taken] at dev mirrored
  have deletes : Deletes accel mine system (.client thread (.advance choice)) := by
    rw [Deletes, submitting]
    exact different
  exact ⟨[], [], reduced, .deleted deletes id, rfl,
    stage.corresponds.client_skip dev (mirrored _ resting)⟩

/-- A SUBMIT to the accelerator that holds its slot. -/
theorem answered_own_submit (stage : Stage accel mine trace system reducedTrace reduced)
    {desc : TaskDesc} {phase : SubmitPhase} (owns : phase.Owns mine)
    (submitting : system.clients thread = .submit desc accel phase)
    (standing : reduced.clients thread = (system.clients thread).rename mine)
    (taken : clientStep kernel system.dev system.jiffies (.advance choice)
      (system.clients thread) = some (action, pc)) :
    Answered kernel accel mine system (.client thread (.advance choice))
      (trace ++ [⟨.client thread, action⟩]) (system.moveClient thread action pc) reducedTrace
      reduced := by
  obtain ⟨same, actionOwns, pcOwns⟩ := submitStep_rename system.jiffies stage.corresponds.dev
    choice desc owns (fun slot isCheck => stage.inv.check_passes (isCheck ▸ submitting))
  rw [submitting] at taken standing
  simp only [clientStep, Option.some.injEq] at taken
  rw [taken] at same actionOwns pcOwns
  have takenReduced : clientStep kernel reduced.dev reduced.jiffies (.advance choice)
      (reduced.clients thread) = some (action.rename mine, pc.rename mine) := by
    rw [standing, stage.jiffies]
    simp only [ClientPc.rename, clientStep, same]
  have kept : ¬ Deletes accel mine system (.client thread (.advance choice)) := by
    simp [Deletes, submitting, ClientPc.Foreign]
  exact ⟨_, _, _, .kept kept, Machine.execute_single (step_client takenReduced),
    stage.corresponds.client (stage.apply actionOwns) (.own pcOwns) (by simp)⟩

/-! ### Any step -/

/-- A step that both runs take and that touches nothing. -/
theorem answered_silent (stage : Stage accel mine trace system reducedTrace reduced)
    {reducedPc : ClientPc} (keeps : ¬ (system.clients thread).Foreign accel mine)
    (takenReduced : clientStep kernel reduced.dev reduced.jiffies (.advance choice)
      (reduced.clients thread) = some (.tau, reducedPc))
    (mirrors : ClientMirrors accel mine pc reducedPc) :
    Answered kernel accel mine system (.client thread (.advance choice))
      (trace ++ [⟨.client thread, .tau⟩]) (system.moveClient thread .tau pc) reducedTrace
      reduced :=
  ⟨_, _, _, .kept keeps, Machine.execute_single (step_client takenReduced),
    stage.corresponds.client stage.corresponds.dev mirrors (by simp)⟩

/-- A step inside a call, by where the reduced run has the thread. -/
theorem answered_advance (stage : Stage accel mine trace system reducedTrace reduced)
    (settles : Settles accel mine (trace ++ [⟨.client thread, action⟩]))
    (taken : clientStep kernel system.dev system.jiffies (.advance choice)
      (system.clients thread) = some (action, pc)) :
    Answered kernel accel mine system (.client thread (.advance choice))
      (trace ++ [⟨.client thread, action⟩]) (system.moveClient thread action pc) reducedTrace
      reduced := by
  have mirrors := stage.corresponds.clients thread
  have busy : ¬ (system.clients thread).Resting := by
    rintro (idle | ⟨reply, returned⟩)
    · rw [idle] at taken
      cases taken
    · rw [returned] at taken
      cases taken
  generalize standing : system.clients thread = before at mirrors
  generalize standingReduced : reduced.clients thread = beforeReduced at mirrors
  have lookingAt {taskId : UInt32} {look : Lookup} (looks : before.lookup = some (taskId, look)) :
      (system.clients thread).lookup = some (taskId, look) := by
    rw [standing]
    exact looks
  cases mirrors with
  | answered resting _ _ => exact absurd (standing ▸ resting) busy
  | waiting desc resting =>
      exact answered_alloc stage standing (standingReduced ▸ resting) settles taken
  | astray looks stands own foreign =>
      refine answered_astray stage (lookingAt looks) stands own foreign ?_ taken
      rw [standingReduced, standing]
  | info info reducedInfo =>
      rw [standing] at taken
      cases taken
      exact answered_silent stage (by simp [standing, ClientPc.Foreign])
        (by rw [standingReduced]; rfl) (.answered_other (by simp) (Or.inr ⟨_, rfl⟩))
  | deleted foreign resting =>
      rw [← standingReduced] at resting
      cases before with
      | submit desc target phase =>
          exact answered_foreign_submit stage foreign standing resting settles taken
      | query taskId phase =>
          exact answered_foreign_lookup stage (lookingAt rfl) foreign resting taken
      | cancel taskId phase =>
          exact answered_foreign_lookup stage (lookingAt rfl) foreign resting taken
      | _ => exact foreign.elim
  | own owns =>
      have renamed : reduced.clients thread = (system.clients thread).rename mine := by
        rw [standingReduced, standing]
      cases before with
      | idle => exact absurd (Or.inl standing) busy
      | returned reply => exact absurd (Or.inr ⟨reply, standing⟩) busy
      | copyInfo info => exact owns.elim
      | query taskId phase =>
          exact answered_own_lookup stage (lookingAt rfl) owns.1 owns.2 renamed taken
      | cancel taskId phase =>
          exact answered_own_lookup stage (lookingAt rfl) owns.1 owns.2 renamed taken
      | accelInfo info target =>
          rw [standing] at taken
          cases taken
          exact answered_silent stage (by simp [standing, ClientPc.Foreign])
            (by rw [standingReduced]; rfl) (.info _ _)
      | submit desc target phase =>
          obtain ⟨rfl, phaseOwns⟩ := owns
          exact answered_own_submit stage phaseOwns standing renamed taken

end Advance

/-- Every step of a run has its block. -/
theorem answered_of_step (run : (machine kernel).Run trace system)
    (runReduced : (machine kernel).Run reducedTrace reduced)
    (corresponds : Corresponds accel mine trace system reducedTrace reduced) {label : Label}
    {event : Event} {next : System}
    (taken : (machine kernel).step label system = some (event, next))
    (settles : Settles accel mine (trace ++ [event])) :
    Answered kernel accel mine system label (trace ++ [event]) next reducedTrace reduced := by
  have settled := settles.before ((inv_of_run run).enabled (stepped_of_step taken))
  have stage := Stage.of_run run runReduced settled corresponds
  cases label with
  | client thread input =>
      obtain ⟨action, pc, moved, rfl, rfl⟩ := step_client_inv taken
      cases input with
      | call call copied =>
          have resting : (system.clients thread).Resting := by
            cases clientTaken_of_step moved with
            | enter call copied pc resting => exact resting
          rw [clientStep_call resting] at moved
          cases moved
          exact answered_call stage resting call copied
      | advance choice => exact answered_advance stage settles moved
  | worker target expired =>
      change step kernel (.worker target expired) system = some (event, next) at taken
      simp only [step, Option.map_eq_some_iff, Prod.mk.injEq] at taken
      obtain ⟨⟨action, pc⟩, moved, rfl, rfl⟩ := taken
      by_cases same : target = accel
      · subst same
        exact answered_own_worker stage moved
      · exact answered_other_worker stage same moved
  | stopper =>
      change step kernel .stopper system = some (event, next) at taken
      simp only [step, Option.map_eq_some_iff, Prod.mk.injEq] at taken
      obtain ⟨⟨action, pc⟩, moved, rfl, rfl⟩ := taken
      exact answered_stopper stage moved
  | tick =>
      cases taken
      exact answered_tick stage

end Steps

/-! ## Independence -/

/-- The accelerator and its tasks are the same in both runs, up to the renaming. -/
structure Unaffected (accel : AccelIndex) (mine : Slot → Bool) (trace : List Event)
    (system : System) (reducedTrace : List Event) (reduced : System) : Prop where
  taskQueue : (reduced.dev.accelerators accel).taskQueue =
    (system.dev.accelerators accel).taskQueue.map (renameSlot mine)
  activeTasks : (reduced.dev.accelerators accel).activeTasks =
    (system.dev.accelerators accel).activeTasks.map (renameSlot mine)
  loadPercent : (reduced.dev.accelerators accel).loadPercent =
    (system.dev.accelerators accel).loadPercent
  order : dequeued accel reducedTrace = (dequeued accel trace).map (renameSlot mine)
  tasks : ∀ slot, mine slot = true → reduced.dev.tasks (renameSlot mine slot) =
    { system.dev.tasks slot with id := renameId mine (system.dev.tasks slot).id }
  accepted : ∀ thread desc, system.clients thread = .returned (.submit 0 desc) →
    desc.accelType.toNat = accel.val →
    reduced.clients thread =
      .returned (.submit 0 { desc with taskId := renameId mine desc.taskId })

theorem Corresponds.unaffected {accel : AccelIndex} {mine : Slot → Bool}
    {trace reducedTrace : List Event} {system reduced : System}
    (corresponds : Corresponds accel mine trace system reducedTrace reduced) :
    Unaffected accel mine trace system reducedTrace reduced where
  taskQueue := by
    rw [corresponds.dev.own]
    rfl
  activeTasks := by
    rw [corresponds.dev.own]
    rfl
  loadPercent := by
    rw [corresponds.dev.own]
    rfl
  order := corresponds.order
  tasks := corresponds.dev.tasks
  accepted := by
    intro thread desc returned here
    have mirrors := corresponds.clients thread
    rw [returned] at mirrors
    generalize reduced.clients thread = reducedPc at mirrors
    cases mirrors with
    | own owns => rfl
    | deleted foreign resting => exact foreign.elim
    | answered resting restingReduced notAccepted => exact absurd here (notAccepted desc rfl)
    | astray looking standing own foreign => cases looking

/-- Every run can be reduced to one accelerator: the answers to its steps form a run, in
which the accelerator and its tasks are unaffected at all corresponding points. -/
theorem accelerator_independent (kernel : Kernel) (accel : AccelIndex) (ticks : Nat)
    (trace : List Event) (system : System)
    (steps : (machine kernel).Steps (initial ticks) trace system) :
    ∃ reducedTrace reduced,
      (machine kernel).Run reducedTrace reduced ∧
      (machine kernel).Paired (Answers accel (ownSlots accel trace))
        (Unaffected accel (ownSlots accel trace)) (initial ticks) (initial ticks) trace system
        reducedTrace reduced ∧
      Set.InjOn (renameSlot (ownSlots accel trace)) {slot | ownSlots accel trace slot = true} ∧
      Set.InjOn (renameId (ownSlots accel trace))
        {taskId | ¬ ForeignId (ownSlots accel trace) taskId} := by
  have run {history : List Event} {state : System}
      (reached : (machine kernel).Steps (initial ticks) history state) :
      (machine kernel).Run history state := ⟨initial ticks, ⟨ticks, rfl⟩, reached⟩
  obtain ⟨reducedTrace, reduced, paired⟩ := steps.paired
    (Corresponds.initial accel (ownSlots accel trace) ticks)
    (fun _ _ _ _ _ reached taken settles =>
      settles.before ((inv_of_run (run reached)).enabled (stepped_of_step taken)))
    (fun _ _ _ _ _ _ _ reached reachedReduced corresponds taken settles =>
      answered_of_step (run reached) (run reachedReduced) corresponds taken settles)
    (settles_ownSlots accel trace)
  refine ⟨reducedTrace, reduced, run paired.steps,
    paired.mono fun _ _ _ _ corresponds => corresponds.unaffected, ?_, ?_⟩
  · intro first ownFirst second ownSecond same
    exact renameSlot_injOn ownFirst ownSecond same
  · intro first ownFirst second ownSecond same
    exact renameId_injOn ownFirst ownSecond same

/-- A request without buffers or deadline for accelerator 1. -/
def secondDesc : TaskDesc := { TaskDesc.zero with accelType := 1 }

/-- The first slot goes to accelerator 0, and the second, which accelerator 1 executes, to
accelerator 1. -/
def sharedSchedule : Schedule Kernel.hz1000 (initial 0) where
  labels := callSchedule 0 (.submit TaskDesc.zero) 10 ++ callSchedule 1 (.submit secondDesc) 10 ++
    workSchedule 1 8
  enabled := by decide +kernel

theorem accelerator_independent_shared :
    (sharedSchedule.final.dev.accelerators 1).activeTasks = [1] ∧
      ∃ reducedTrace reduced, (machine Kernel.hz1000).Run reducedTrace reduced ∧
        (reduced.dev.accelerators 1).activeTasks = [0] := by
  have executing : (sharedSchedule.final.dev.accelerators 1).activeTasks = [1] := by
    decide +kernel
  have first : renameSlot (ownSlots 1 sharedSchedule.trace) 1 = 0 := by
    decide +kernel
  obtain ⟨reducedTrace, reduced, run, paired, -, -⟩ := accelerator_independent Kernel.hz1000 1 0
    sharedSchedule.trace sharedSchedule.final (Machine.steps_of_execute sharedSchedule.executed)
  refine ⟨executing, reducedTrace, reduced, run, ?_⟩
  rw [paired.related.activeTasks, executing, List.map_singleton, first]

/-! ## Mere deletion -/

instance (accel : AccelIndex) (mine : Slot → Bool) :
    (pc : ClientPc) → Decidable (pc.Foreign accel mine)
  | .submit _ _ _ => inferInstanceAs (Decidable (_ ≠ _))
  | .query taskId _ | .cancel taskId _ => inferInstanceAs (Decidable (ForeignId mine taskId))
  | .idle | .accelInfo _ _ | .copyInfo _ | .returned _ => inferInstanceAs (Decidable False)

instance (accel : AccelIndex) (mine : Slot → Bool) (system : System) :
    (label : Label) → Decidable (Deletes accel mine system label)
  | .worker _ _ => inferInstanceAs (Decidable (_ ≠ _))
  | .client _ (.call _ _) => inferInstanceAs (Decidable (ClientPc.Foreign _ _ _))
  | .client _ (.advance _) => inferInstanceAs (Decidable (ClientPc.Foreign _ _ _))
  | .stopper | .tick => inferInstanceAs (Decidable False)

/-- The labels of a run without the steps of the other accelerators, and nothing else
changed but the ids. -/
def deleteOthers (kernel : Kernel) (accel : AccelIndex) (mine : Slot → Bool) :
    List Label → System → List Label
  | [], _ => []
  | label :: labels, system =>
      match (machine kernel).step label system with
      | none => []
      | some (_, next) =>
          if Deletes accel mine system label then deleteOthers kernel accel mine labels next
          else label.rename mine :: deleteOthers kernel accel mine labels next

/-- SUBMITs to accelerator 0 take every slot, one to accelerator 1 is refused, and its
thread makes another call. -/
def crowdedSchedule : Schedule Kernel.hz1000 (initial 0) where
  labels := (List.range maxTasks).flatMap
      (fun thread => callSchedule thread (.submit TaskDesc.zero) 1) ++
    callSchedule maxTasks (.submit secondDesc) 1 ++ callSchedule maxTasks (.submit secondDesc) 0
  enabled := by decide +kernel

/-- Accelerator 0 is stopped: its worker leaves, and `kthread_stop` returns. -/
def joinedSchedule : Schedule Kernel.hz1000 (initial 0) where
  labels := List.replicate 5 .stopper ++ [.worker 0 false, .stopper]
  enabled := by decide +kernel

/-- After a mere deletion the refused SUBMIT is accepted, so that its thread cannot make
the next call; and `kthread_stop` waits for a worker that never leaves. -/
theorem deletion_leaves_no_run :
    ((machine Kernel.hz1000).execute crowdedSchedule.labels (initial 0) =
        some (crowdedSchedule.trace, crowdedSchedule.final) ∧
      (machine Kernel.hz1000).execute (deleteOthers Kernel.hz1000 1
        (ownSlots 1 crowdedSchedule.trace) crowdedSchedule.labels (initial 0)) (initial 0) =
        none) ∧
    (machine Kernel.hz1000).execute joinedSchedule.labels (initial 0) =
        some (joinedSchedule.trace, joinedSchedule.final) ∧
      (machine Kernel.hz1000).execute (deleteOthers Kernel.hz1000 1
        (ownSlots 1 joinedSchedule.trace) joinedSchedule.labels (initial 0)) (initial 0) =
        none := by
  refine ⟨⟨crowdedSchedule.executed, ?_⟩, joinedSchedule.executed, ?_⟩
  · exact Option.isNone_iff_eq_none.mp (by decide +kernel)
  · exact Option.isNone_iff_eq_none.mp (by decide +kernel)

end CortexForge.Concurrent
