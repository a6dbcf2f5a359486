import CortexForge.Foundation.Partition
import CortexForge.Concurrent.Threads

/-!
Contract: the running driver refines the life cycle of its slots.

`Inv` ties the state of the system to the ledger of its history: the contents of
every slot satisfy the facts of its life, every slot is on the one list its life
names, and every program counter that holds a slot holds it at the point the
ledger says. Under `Inv` every step of every thread is an enabled event of the
life cycle, and every step preserves `Inv`.

Owns: the invariant, the refinement, and the invariant over whole runs.
-/

namespace CortexForge.Concurrent

open CortexForge.Foundation

/-- The slot an event unlinks from an accelerator. -/
def Event.retires (event : Event) : Option Slot :=
  match event.action with
  | .unlink _ slot => some slot
  | _ => none

/-- The slots the workers have unlinked, in order. -/
def retiredSlots (trace : List Event) : List Slot := trace.filterMap Event.retires

theorem retiredSlots_snoc (trace : List Event) (event : Event) :
    retiredSlots (trace ++ [event]) = retiredSlots trace ++ event.retires.toList :=
  Machine.filterMap_snoc _ trace event

/-- The slot a client thread holds. -/
def System.held (system : System) (thread : Nat) : Option Slot :=
  ((system.clients thread).claim thread).map Claim.slot

/-- The slot a worker executes. -/
def System.executes (system : System) (accel : AccelIndex) : Option Slot :=
  ((system.workers accel).claim accel).map Prod.fst

/-- The slots of every place. -/
def content (trace : List Event) (system : System) : Place → List Slot
  | .freeTasks => system.dev.freeTasks
  | .submitting thread => (system.held thread).toList
  | .taskQueue accel => (system.dev.accelerators accel).taskQueue
  | .activeTasks accel => (system.dev.accelerators accel).activeTasks
  | .retired => retiredSlots trace

/-- The place the ledger gives a slot. -/
def placeOf (trace : List Event) (slot : Slot) : Place := (ledger trace slot).point.place

/-- What a lookup in flight knows about the slot it has reached. A scan for id 0
is special: a free slot carries that id until it is allocated. -/
def Looks (trace : List Event) (taskId : UInt32) : Lookup → Prop
  | .scan _ => True
  | .check slot =>
      taskId = 0 ∨ ((ledger trace slot).point ≠ .free ∧ (ledger trace slot).taskId = taskId)
  | .found slot =>
      (ledger trace slot).point.Visible ∧ (taskId = 0 ∨ (ledger trace slot).taskId = taskId)

/-- The invariant of the running driver. -/
structure Inv (trace : List Event) (system : System) : Prop where
  facts : ∀ slot, Facts (ledger trace slot) (system.dev.tasks slot)
  partition : Partition (placeOf trace) (content trace system)
  executing : ∀ accel,
    (system.dev.accelerators accel).activeTasks = (system.executes accel).toList
  clientClaim : ∀ thread claim, (system.clients thread).claim thread = some claim →
    (ledger trace claim.slot).point = claim.point ∧
      (ledger trace claim.slot).desc = claim.desc
  workerClaim : ∀ accel slot point, (system.workers accel).claim accel = some (slot, point) →
    (ledger trace slot).point = point
  sound : ∀ thread, (system.clients thread).Sound
  looks : ∀ thread taskId look, (system.clients thread).lookup = some (taskId, look) →
    Looks trace taskId look

theorem Inv.initial (ticks : Nat) : Inv [] (initial ticks) where
  facts := fun slot => by
    rw [show (Concurrent.initial ticks).dev.tasks slot = Task.zero from probe_tasks slot]
    exact Facts.initial
  partition := by
    constructor
    · intro place
      cases place with
      | freeTasks =>
          rw [show content [] (Concurrent.initial ticks) .freeTasks = List.finRange maxTasks
            from probe_freeTasks]
          exact List.nodup_finRange maxTasks
      | _ => exact List.nodup_nil
    · intro place slot
      cases place with
      | freeTasks =>
          rw [show content [] (Concurrent.initial ticks) .freeTasks = List.finRange maxTasks
            from probe_freeTasks]
          exact ⟨fun _ => rfl, fun _ => List.mem_finRange slot⟩
      | _ => exact ⟨nofun, nofun⟩
  executing := fun _ => rfl
  clientClaim := nofun
  workerClaim := nofun
  sound := fun _ => trivial
  looks := nofun

/-! ## The lists name the points -/

section Points

variable {trace : List Event} {system : System}

theorem Inv.point_of_free (inv : Inv trace system) {slot : Slot}
    (member : slot ∈ system.dev.freeTasks) : (ledger trace slot).point = .free := by
  have place : placeOf trace slot = .freeTasks := (inv.partition.mem .freeTasks slot).mp member
  unfold placeOf at place
  cases point : (ledger trace slot).point with
  | free => rfl
  | _ => simp [point, Point.place] at place

theorem Inv.point_of_queued (inv : Inv trace system) {accel : AccelIndex} {slot : Slot}
    (member : slot ∈ (system.dev.accelerators accel).taskQueue) :
    (ledger trace slot).point = .queued accel := by
  have place : placeOf trace slot = .taskQueue accel :=
    (inv.partition.mem (.taskQueue accel) slot).mp member
  unfold placeOf at place
  cases point : (ledger trace slot).point with
  | queued other =>
      simp only [point, Point.place, Place.taskQueue.injEq] at place
      rw [place]
  | _ => simp [point, Point.place] at place

end Points

/-! ## Every step is enabled -/

/-- It is enough to look at the slot an event is about. -/
theorem enabled_of_about {trace : List Event} {event : Event}
    (about : ∀ slot, event.action.slot? = some slot →
      Enabled slot (ledger trace slot) event) (slot : Slot) :
    Enabled slot (ledger trace slot) event := by
  by_cases isAbout : event.action.slot? = some slot
  · exact about slot isAbout
  · exact .elsewhere event isAbout

private theorem Inv.client_enabled {trace : List Event} {system : System}
    (inv : Inv trace system) {thread : Nat} {action : Action} {next : ClientPc}
    (move : ClientMove system.dev thread (system.clients thread) action next) (slot : Slot) :
    Enabled slot (ledger trace slot) ⟨.client thread, action⟩ := by
  refine enabled_of_about ?_ slot
  intro slot about
  have claims := inv.clientClaim thread
  have sound := inv.sound thread
  have looks := inv.looks thread
  generalize system.clients thread = pc at move claims sound looks
  cases move with
  | quiet noSlot _ => rw [show action.slot? = none from noSlot] at about; cases about
  | alloc desc accel head rest free =>
      cases about
      exact .alloc thread _ desc (inv.point_of_free (by rw [free]; exact List.mem_cons_self))
  | fill desc accel held =>
      cases about
      obtain ⟨point, sameDesc⟩ := claims _ rfl
      rw [← show (ledger trace slot).desc = desc from sameDesc]
      exact .fill thread point
  | publish desc accel held =>
      cases about
      exact .publish thread (claims _ rfl).1
  | stamp desc accel held now =>
      cases about
      exact .stamp thread now (claims _ rfl).1
  | enqueue desc accel held =>
      cases about
      obtain ⟨point, sameDesc⟩ := claims _ rfl
      refine .enqueue thread accel point ?_
      rw [show (ledger trace slot).desc = desc from sameDesc]
      exact validateDesc_ok sound
  | rollback desc accel held ret => exact sound.elim
  | cancelState taskId held =>
      cases about
      exact .cancelState thread (looks taskId _ rfl).1
  | cancelError taskId held =>
      cases about
      exact .cancelError thread (looks taskId _ rfl).1
  | cancelDone taskId held =>
      cases about
      exact .cancelDone thread (looks taskId _ rfl).1

private theorem Inv.worker_enabled {trace : List Event} {system : System}
    (inv : Inv trace system) {accel : AccelIndex} {action : Action} {next : WorkerPc}
    (move : WorkerMove system.dev accel (system.workers accel) action next) (slot : Slot) :
    Enabled slot (ledger trace slot) ⟨.worker accel, action⟩ := by
  refine enabled_of_about ?_ slot
  intro slot about
  have claims := inv.workerClaim accel
  generalize system.workers accel = pc at move claims
  cases move with
  | quiet noSlot _ => rw [show action.slot? = none from noSlot] at about; cases about
  | dequeue head rest queue =>
      cases about
      exact .dequeue accel (inv.point_of_queued (by rw [queue]; exact List.mem_cons_self))
  | run held =>
      cases about
      exact .run accel (claims _ _ rfl)
  | time held now =>
      cases about
      exact .time accel now (claims _ _ rfl)
  | complete held =>
      cases about
      exact .complete accel (claims _ _ rfl)
  | clear held =>
      cases about
      exact .clear accel (claims _ _ rfl)
  | signal held =>
      cases about
      exact .signal accel (claims _ _ rfl)
  | unlink held =>
      cases about
      exact .unlink accel (claims _ _ rfl)

/-- The refinement: every step of the driver is an enabled event of the life of
every slot. -/
theorem Inv.enabled {kernel : Kernel} {trace : List Event} {system next : System}
    {event : Event} (inv : Inv trace system) (stepped : Stepped kernel system event next)
    (slot : Slot) : Enabled slot (ledger trace slot) event := by
  cases stepped with
  | client thread input action pc taken =>
      exact inv.client_enabled (clientMove_of_step thread taken) slot
  | worker accel expired action pc taken =>
      exact inv.worker_enabled (workerMove_of_step taken) slot
  | stopper action pc taken =>
      refine .elsewhere _ ?_
      rw [stopperStep_slot taken]
      exact nofun
  | tick => exact .elsewhere _ nofun

/-! ## Every step preserves the invariant -/

section Step

variable {trace : List Event} {system : System} {event : Event}

theorem ledger_of_elsewhere {slot : Slot} (elsewhere : event.action.slot? ≠ some slot) :
    ledger (trace ++ [event]) slot = ledger trace slot := by
  rw [ledger_snoc, Life.after_other _ elsewhere]

theorem ledger_of_about {slot : Slot} (about : event.action.slot? = some slot) :
    ledger (trace ++ [event]) slot = (ledger trace slot).advance event := by
  rw [ledger_snoc, Life.after_about _ about]

/-- A claim survives the steps of every other thread. -/
private theorem claim_kept {slot : Slot} {point : Point} (owner : Actor)
    (enabled : Enabled slot (ledger trace slot) event)
    (claimed : (ledger trace slot).point = point) (owned : point.place.actor? = some owner)
    (foreign : event.actor ≠ owner) :
    (ledger (trace ++ [event]) slot).point = point ∧
      (ledger (trace ++ [event]) slot).desc = (ledger trace slot).desc := by
  rw [ledger_snoc]
  constructor
  · rw [enabled.keeps_point (by rw [claimed]; exact owned) foreign, claimed]
  · refine (enabled.keeps_submission ?_).2.2
    intro free
    rw [← claimed, free] at owned
    cases owned

/-- A lookup keeps what it knows. -/
theorem Looks.after {taskId : UInt32} {look : Lookup} (looks : Looks trace taskId look)
    (enabled : ∀ slot, Enabled slot (ledger trace slot) event) :
    Looks (trace ++ [event]) taskId look := by
  cases look with
  | scan index => trivial
  | check slot =>
      rcases looks with zero | ⟨allocated, sameId⟩
      · exact Or.inl zero
      · obtain ⟨still, keptId, -⟩ := (enabled slot).keeps_submission allocated
        rw [← ledger_snoc] at still keptId
        exact Or.inr ⟨still, keptId.trans sameId⟩
  | found slot =>
      obtain ⟨visible, known⟩ := looks
      have still := (enabled slot).keeps_visible visible
      have keptId := ((enabled slot).keeps_submission visible.filled.ne_free).2.1
      rw [← ledger_snoc] at still keptId
      exact ⟨still, known.imp_right keptId.trans⟩

/-- What a lookup learns in one step of its own. -/
private theorem Inv.lookupStep (inv : Inv trace system) {taskId : UInt32}
    {before after : Lookup} (looks : Looks trace taskId before)
    (moved : LookupStep system.dev taskId before after) : Looks trace taskId after := by
  cases moved with
  | hit slot sameId =>
      by_cases free : (ledger trace slot).point = .free
      · exact Or.inl (sameId.symm.trans ((inv.facts slot).freeId free))
      · exact Or.inr ⟨free, ((inv.facts slot).taskId free).symm.trans sameId⟩
  | skip slot otherId => trivial
  | accept slot notFree =>
      refine ⟨(inv.facts slot).state_ne_free_iff.mp notFree, ?_⟩
      exact looks.imp_right And.right
  | pass slot free => trivial
  | keep slot => exact looks

/-- A step that is no list move leaves every slot where it is. -/
private theorem Inv.partition_still (inv : Inv trace system) {next : System}
    (enabled : ∀ slot, Enabled slot (ledger trace slot) event)
    (dev : next.dev = event.action.apply system.dev) (still : ¬ event.action.IsListMove)
    (held : ∀ thread, next.held thread = system.held thread) :
    Partition (placeOf (trace ++ [event])) (content (trace ++ [event]) next) := by
  obtain ⟨free, -, lists⟩ := Action.keeps_lists still system.dev
  rw [← dev] at free lists
  refine inv.partition.congr ?_ ?_
  · intro slot
    unfold placeOf
    by_cases about : event.action.slot? = some slot
    · rw [ledger_of_about about]
      cases isStore : event.action with
      | store target write =>
          rw [isStore] at about
          cases about
          exact (enabled slot).keeps_place isStore
      | tau => rw [isStore] at about; cases about
      | touch accel update => rw [isStore] at about; cases about
      | _ => rw [isStore] at still; exact absurd trivial still
    · rw [ledger_of_elsewhere about]
  · intro place
    cases place with
    | freeTasks => exact free
    | submitting thread => exact congrArg Option.toList (held thread)
    | taskQueue accel => exact (lists accel).1
    | activeTasks accel => exact (lists accel).2
    | retired =>
        show retiredSlots (trace ++ [event]) = retiredSlots trace
        rw [retiredSlots_snoc]
        unfold Event.retires
        cases isUnlink : event.action with
        | unlink accel slot => rw [isUnlink] at still; exact absurd trivial still
        | _ => simp

/-- A list move carries its slot from one place to another. -/
private theorem Inv.partition_moved (inv : Inv trace system) {next : System} {slot : Slot}
    (source target : Place) (about : event.action.slot? = some slot)
    (owned : placeOf trace slot = source)
    (arrives : ((ledger trace slot).advance event).point.place = target)
    (different : source ≠ target)
    (erased : content (trace ++ [event]) next source = (content trace system source).erase slot)
    (appended : content (trace ++ [event]) next target = content trace system target ++ [slot])
    (others : ∀ place, place ≠ source → place ≠ target →
      content (trace ++ [event]) next place = content trace system place) :
    Partition (placeOf (trace ++ [event])) (content (trace ++ [event]) next) := by
  have moved := inv.partition.move owned different erased appended others
  refine moved.congr ?_ (fun _ => rfl)
  intro other
  unfold placeOf
  by_cases same : other = slot
  · subst same
    rw [ledger_of_about about, Function.update_self, arrives]
  · rw [Function.update_of_ne same, ledger_of_elsewhere (by rw [about]; simpa using Ne.symm same)]

/-! ### Steps of a client -/

theorem ClientMove.activeTasks {dev : Dev} {thread : Nat} {pc next : ClientPc} {action : Action}
    (move : ClientMove dev thread pc action next) (index : AccelIndex) :
    ((action.apply dev).accelerators index).activeTasks =
      (dev.accelerators index).activeTasks := by
  cases move with
  | quiet noSlot _ =>
      exact ((Action.keeps_lists (Action.not_isListMove_of_slot noSlot) dev).2.2 index).2
  | _ => rw [Action.apply_activeTasks]

/-- The point and descriptor of a client's own claim after its own step. -/
private theorem ClientMove.claim {dev : Dev} {thread : Nat} {pc next : ClientPc}
    {action : Action} {claim : Claim} (move : ClientMove dev thread pc action next)
    (known : ∀ claim, pc.claim thread = some claim →
      (ledger trace claim.slot).point = claim.point ∧
        (ledger trace claim.slot).desc = claim.desc)
    (claimed : next.claim thread = some claim) :
    (ledger (trace ++ [⟨.client thread, action⟩]) claim.slot).point = claim.point ∧
      (ledger (trace ++ [⟨.client thread, action⟩]) claim.slot).desc = claim.desc := by
  cases move with
  | quiet noSlot same =>
      rw [same] at claimed
      rw [ledger_of_elsewhere (by rw [show action.slot? = none from noSlot]; simp)]
      exact known claim claimed
  | alloc desc accel slot rest free =>
      cases claimed
      rw [ledger_of_about rfl]
      exact ⟨rfl, rfl⟩
  | fill desc accel slot =>
      cases claimed
      rw [ledger_of_about rfl]
      exact ⟨rfl, (known _ rfl).2⟩
  | publish desc accel slot =>
      cases claimed
      rw [ledger_of_about rfl]
      exact ⟨rfl, (known _ rfl).2⟩
  | stamp desc accel slot now =>
      cases claimed
      rw [ledger_of_about rfl]
      exact ⟨rfl, (known _ rfl).2⟩
  | _ => cases claimed

theorem System.held_moveClient_self (system : System) (thread : Nat) (action : Action)
    (pc : ClientPc) :
    (system.moveClient thread action pc).held thread = (pc.claim thread).map Claim.slot := by
  simp [System.held, System.moveClient]

theorem System.held_moveClient_other (system : System) {thread other : Nat} (action : Action)
    (pc : ClientPc) (different : other ≠ thread) :
    (system.moveClient thread action pc).held other = system.held other := by
  simp [System.held, System.moveClient, different]

private theorem Inv.client_partition (inv : Inv trace system) {thread : Nat} {action : Action}
    {pc : ClientPc} (move : ClientMove system.dev thread (system.clients thread) action pc) :
    Partition (placeOf (trace ++ [⟨.client thread, action⟩]))
      (content (trace ++ [⟨.client thread, action⟩]) (system.moveClient thread action pc)) := by
  have enabled := inv.client_enabled move
  have sound := inv.sound thread
  have claims := inv.clientClaim thread
  have others (other : Nat) (different : other ≠ thread) :
      (system.moveClient thread action pc).held other = system.held other :=
    system.held_moveClient_other action pc different
  have mine := system.held_moveClient_self thread action pc
  have wasMine : system.held thread = ((system.clients thread).claim thread).map Claim.slot := rfl
  -- A step that keeps the thread's claim and moves no slot keeps the partition.
  have still (quiet : ¬ action.IsListMove)
      (same : (pc.claim thread).map Claim.slot = system.held thread) :
      Partition (placeOf (trace ++ [⟨.client thread, action⟩]))
        (content (trace ++ [⟨.client thread, action⟩])
          (system.moveClient thread action pc)) := by
    refine inv.partition_still enabled rfl quiet ?_
    intro other
    by_cases isThread : other = thread
    · rw [isThread, mine, same]
    · exact others other isThread
  generalize system.clients thread = before at move sound claims wasMine
  cases move with
  | quiet noSlot same =>
      exact still (Action.not_isListMove_of_slot noSlot) (by rw [wasMine, same])
  | fill desc accel slot => exact still id wasMine.symm
  | publish desc accel slot => exact still id wasMine.symm
  | stamp desc accel slot now => exact still id wasMine.symm
  | cancelState taskId slot => exact still id wasMine.symm
  | cancelError taskId slot => exact still id wasMine.symm
  | cancelDone taskId slot => exact still id wasMine.symm
  | rollback desc accel slot ret => exact sound.elim
  | alloc desc accel slot rest free =>
      have head : slot ∈ system.dev.freeTasks := by
        rw [free]
        exact List.mem_cons_self
      refine inv.partition_moved .freeTasks (.submitting thread) rfl
        ((inv.partition.mem .freeTasks slot).mp head) rfl (by simp) ?_ ?_ ?_
      · simp only [content, System.moveClient, Action.apply_freeTasks]
      · simp only [content, mine, wasMine]
        rfl
      · intro place notSource notTarget
        cases place with
        | freeTasks => exact absurd rfl notSource
        | submitting other =>
            exact congrArg Option.toList (others other fun same => notTarget (by rw [same]))
        | taskQueue accel => simp only [content, System.moveClient, Action.apply_taskQueue]
        | activeTasks accel => simp only [content, System.moveClient, Action.apply_activeTasks]
        | retired => simp [content, retiredSlots_snoc, Event.retires]
  | enqueue desc accel slot =>
      have stamped : (ledger trace slot).point = .stamped thread := (claims _ rfl).1
      refine inv.partition_moved (.submitting thread) (.taskQueue accel) rfl
        (by rw [placeOf, stamped]; rfl) rfl (by simp) ?_ ?_ ?_
      · simp only [content, mine, wasMine, ClientPc.claim, SubmitPhase.claim]
        simp
      · simp only [content, System.moveClient, Action.apply_taskQueue, ↓reduceIte]
      · intro place notSource notTarget
        cases place with
        | freeTasks => simp only [content, System.moveClient, Action.apply_freeTasks]
        | submitting other =>
            exact congrArg Option.toList (others other fun same => notSource (by rw [same]))
        | taskQueue other =>
            have different : accel ≠ other := fun same => notTarget (by rw [same])
            simp only [content, System.moveClient, Action.apply_taskQueue, if_neg different]
        | activeTasks accel => simp only [content, System.moveClient, Action.apply_activeTasks]
        | retired => simp [content, retiredSlots_snoc, Event.retires]

private theorem Inv.client_step (inv : Inv trace system) {kernel : Kernel} {thread : Nat}
    {input : ClientInput} {action : Action} {pc : ClientPc}
    (taken : clientStep kernel system.dev system.jiffies input (system.clients thread) =
      some (action, pc)) :
    Inv (trace ++ [⟨.client thread, action⟩]) (system.moveClient thread action pc) := by
  have move := clientMove_of_step thread taken
  have enabled := inv.client_enabled move
  have mine : (system.moveClient thread action pc).clients thread = pc := by
    simp [System.moveClient]
  have others {other : Nat} (different : other ≠ thread) :
      (system.moveClient thread action pc).clients other = system.clients other := by
    simp [System.moveClient, different]
  refine ⟨fun slot => ?_, inv.client_partition move, fun accel => ?_,
    fun other claim claimed => ?_, fun accel slot point claimed => ?_, fun other => ?_,
    fun other taskId look looking => ?_⟩
  · rw [ledger_snoc]
    exact (inv.facts slot).after (enabled slot)
  · exact (move.activeTasks accel).trans (inv.executing accel)
  · by_cases isThread : other = thread
    · subst isThread
      rw [mine] at claimed
      exact move.claim (inv.clientClaim other) claimed
    · rw [others isThread] at claimed
      obtain ⟨point, desc⟩ := inv.clientClaim other claim claimed
      have kept := claim_kept (.client other) (enabled claim.slot) point
        (by rw [ClientPc.claim_place claimed]; rfl)
        (by simpa using Ne.symm isThread)
      exact ⟨kept.1, kept.2.trans desc⟩
  · have point' := inv.workerClaim accel slot point claimed
    exact (claim_kept (.worker accel) (enabled slot) point'
      (by rw [WorkerPc.claim_place claimed]; rfl) (by simp)).1
  · by_cases isThread : other = thread
    · subst isThread
      rw [mine]
      refine (inv.sound other).step ?_ taken
      intro desc accel slot checking
      have claim := inv.clientClaim other ⟨slot, .filled other, desc⟩ (by rw [checking]; rfl)
      have payload := (inv.facts slot).payload (by rw [claim.1]; trivial)
      exact payload.accelType.trans (congrArg TaskDesc.accelType claim.2)
    · rw [others isThread]
      exact inv.sound other
  · refine Looks.after ?_ enabled
    by_cases isThread : other = thread
    · subst isThread
      rw [mine] at looking
      rcases lookup_of_step taken looking with ⟨_, _, _, _, begun⟩ | ⟨before, wasLooking, moved⟩
      · rw [begun]
        trivial
      · exact inv.lookupStep (inv.looks other taskId before wasLooking) moved
    · rw [others isThread] at looking
      exact inv.looks other taskId look looking

/-! ### Steps of a worker -/

/-- The point of a worker's own claim after its own step. -/
private theorem WorkerMove.claim {dev : Dev} {accel : AccelIndex} {pc next : WorkerPc}
    {action : Action} {slot : Slot} {point : Point}
    (move : WorkerMove dev accel pc action next)
    (known : ∀ slot point, pc.claim accel = some (slot, point) →
      (ledger trace slot).point = point)
    (claimed : next.claim accel = some (slot, point)) :
    (ledger (trace ++ [⟨.worker accel, action⟩]) slot).point = point := by
  cases move with
  | quiet noSlot same =>
      rw [same] at claimed
      rw [ledger_of_elsewhere (by rw [show action.slot? = none from noSlot]; simp)]
      exact known slot point claimed
  | unlink held => cases claimed
  | _ =>
      cases claimed
      rw [ledger_of_about rfl]
      rfl

theorem System.executes_moveWorker_self (system : System) (accel : AccelIndex)
    (action : Action) (pc : WorkerPc) :
    (system.moveWorker accel action pc).executes accel = (pc.claim accel).map Prod.fst := by
  simp [System.executes, System.moveWorker]

theorem System.executes_moveWorker_other (system : System) {accel other : AccelIndex}
    (action : Action) (pc : WorkerPc) (different : other ≠ accel) :
    (system.moveWorker accel action pc).executes other = system.executes other := by
  simp [System.executes, System.moveWorker, different]

/-- A worker's active list is what it executes, before and after its step. -/
private theorem WorkerMove.activeTasks {dev : Dev} {accel : AccelIndex} {pc next : WorkerPc}
    {action : Action} (move : WorkerMove dev accel pc action next)
    (executing : (dev.accelerators accel).activeTasks =
      ((pc.claim accel).map Prod.fst).toList) :
    ((action.apply dev).accelerators accel).activeTasks =
      ((next.claim accel).map Prod.fst).toList := by
  cases move with
  | quiet noSlot same =>
      rw [((Action.keeps_lists (Action.not_isListMove_of_slot noSlot) dev).2.2 accel).2, same]
      exact executing
  | dequeue slot rest head =>
      simp only [Action.apply_activeTasks, ↓reduceIte, executing]
      rfl
  | unlink slot =>
      simp only [Action.apply_activeTasks, ↓reduceIte, executing]
      simp [WorkerPc.claim]
  | _ =>
      rw [Action.apply_activeTasks]
      exact executing

/-- A worker touches the lists of its own accelerator only. -/
private theorem WorkerMove.other_activeTasks {dev : Dev} {accel other : AccelIndex}
    {pc next : WorkerPc} {action : Action} (move : WorkerMove dev accel pc action next)
    (different : other ≠ accel) :
    ((action.apply dev).accelerators other).activeTasks =
      (dev.accelerators other).activeTasks := by
  cases move with
  | quiet noSlot same =>
      exact ((Action.keeps_lists (Action.not_isListMove_of_slot noSlot) dev).2.2 other).2
  | dequeue slot rest head =>
      simp only [Action.apply_activeTasks, if_neg (Ne.symm different)]
  | unlink slot => simp only [Action.apply_activeTasks, if_neg (Ne.symm different)]
  | _ => rw [Action.apply_activeTasks]

private theorem Inv.worker_partition (inv : Inv trace system) {accel : AccelIndex}
    {action : Action} {pc : WorkerPc}
    (move : WorkerMove system.dev accel (system.workers accel) action pc) :
    Partition (placeOf (trace ++ [⟨.worker accel, action⟩]))
      (content (trace ++ [⟨.worker accel, action⟩]) (system.moveWorker accel action pc)) := by
  have enabled := inv.worker_enabled move
  have claims := inv.workerClaim accel
  have still (quiet : ¬ action.IsListMove) :
      Partition (placeOf (trace ++ [⟨.worker accel, action⟩]))
        (content (trace ++ [⟨.worker accel, action⟩])
          (system.moveWorker accel action pc)) :=
    inv.partition_still enabled rfl quiet fun _ => rfl
  generalize system.workers accel = before at move claims
  cases move with
  | quiet noSlot same => exact still (Action.not_isListMove_of_slot noSlot)
  | dequeue slot rest head =>
      have member : slot ∈ (system.dev.accelerators accel).taskQueue := by
        rw [head]
        exact List.mem_cons_self
      refine inv.partition_moved (.taskQueue accel) (.activeTasks accel) rfl
        ((inv.partition.mem (.taskQueue accel) slot).mp member) rfl (by simp) ?_ ?_ ?_
      · simp only [content, System.moveWorker, Action.apply_taskQueue, ↓reduceIte]
      · simp only [content, System.moveWorker, Action.apply_activeTasks, ↓reduceIte]
      · intro place notSource notTarget
        cases place with
        | freeTasks => simp only [content, System.moveWorker, Action.apply_freeTasks]
        | submitting thread => rfl
        | taskQueue other =>
            have different : accel ≠ other := fun same => notSource (by rw [same])
            simp only [content, System.moveWorker, Action.apply_taskQueue, if_neg different]
        | activeTasks other =>
            have different : accel ≠ other := fun same => notTarget (by rw [same])
            simp only [content, System.moveWorker, Action.apply_activeTasks, if_neg different]
        | retired => simp [content, retiredSlots_snoc, Event.retires]
  | unlink slot =>
      have signalled : (ledger trace slot).point = .signalled accel := claims _ _ rfl
      refine inv.partition_moved (.activeTasks accel) .retired rfl
        (by rw [placeOf, signalled]; rfl) rfl (by simp) ?_ ?_ ?_
      · simp only [content, System.moveWorker, Action.apply_activeTasks, ↓reduceIte]
      · simp [content, retiredSlots_snoc, Event.retires]
      · intro place notSource notTarget
        cases place with
        | freeTasks => simp only [content, System.moveWorker, Action.apply_freeTasks]
        | submitting thread => rfl
        | taskQueue other => simp only [content, System.moveWorker, Action.apply_taskQueue]
        | activeTasks other =>
            have different : accel ≠ other := fun same => notSource (by rw [same])
            simp only [content, System.moveWorker, Action.apply_activeTasks, if_neg different]
        | retired => exact absurd rfl notTarget
  | _ => exact still id

private theorem Inv.worker_step (inv : Inv trace system) {kernel : Kernel} {accel : AccelIndex}
    {expired : Bool} {action : Action} {pc : WorkerPc}
    (taken : workerStep kernel system.dev system.jiffies expired accel (system.workers accel) =
      some (action, pc)) :
    Inv (trace ++ [⟨.worker accel, action⟩]) (system.moveWorker accel action pc) := by
  have move := workerMove_of_step taken
  have enabled := inv.worker_enabled move
  refine ⟨fun slot => ?_, inv.worker_partition move, fun other => ?_,
    fun thread claim claimed => ?_, fun other slot point claimed => ?_, inv.sound,
    fun thread taskId look looking => (inv.looks thread taskId look looking).after enabled⟩
  · rw [ledger_snoc]
    exact (inv.facts slot).after (enabled slot)
  · by_cases isAccel : other = accel
    · subst isAccel
      rw [system.executes_moveWorker_self]
      exact move.activeTasks (inv.executing other)
    · rw [system.executes_moveWorker_other action pc isAccel]
      exact (move.other_activeTasks isAccel).trans (inv.executing other)
  · obtain ⟨point, desc⟩ := inv.clientClaim thread claim claimed
    have kept := claim_kept (.client thread) (enabled claim.slot) point
      (by rw [ClientPc.claim_place claimed]; rfl) (by simp)
    exact ⟨kept.1, kept.2.trans desc⟩
  · by_cases isAccel : other = accel
    · subst isAccel
      have claimed' : pc.claim other = some (slot, point) := by
        simpa [System.moveWorker] using claimed
      exact move.claim (inv.workerClaim other) claimed'
    · have claimed' : (system.workers other).claim other = some (slot, point) := by
        simpa [System.moveWorker, isAccel] using claimed
      exact (claim_kept (.worker other) (enabled slot) (inv.workerClaim other slot point claimed')
        (by rw [WorkerPc.claim_place claimed']; rfl) (by simpa using Ne.symm isAccel)).1

/-! ### Steps of the other threads -/

/-- A step of the stopping thread or of the clock touches no slot and no list. -/
private theorem Inv.quiet_step (inv : Inv trace system) {next : System}
    (noSlot : event.action.slot? = none) (dev : next.dev = event.action.apply system.dev)
    (clients : next.clients = system.clients) (workers : next.workers = system.workers) :
    Inv (trace ++ [event]) next := by
  have enabled (slot : Slot) : Enabled slot (ledger trace slot) event :=
    .elsewhere event (by rw [noSlot]; simp)
  have same (slot : Slot) : ledger (trace ++ [event]) slot = ledger trace slot :=
    ledger_of_elsewhere (by rw [noSlot]; simp)
  have still := Action.not_isListMove_of_slot noSlot
  have lists := Action.keeps_lists still system.dev
  refine ⟨fun slot => ?_, inv.partition_still enabled dev still ?_, fun accel => ?_,
    fun thread claim claimed => ?_, fun accel slot point claimed => ?_, fun thread => ?_,
    fun thread taskId look looking => ?_⟩
  · rw [ledger_snoc, dev]
    exact (inv.facts slot).after (enabled slot)
  · intro thread
    simp only [System.held, clients]
  · simp only [System.executes, workers]
    rw [dev, (lists.2.2 accel).2]
    exact inv.executing accel
  · rw [clients] at claimed
    rw [same]
    exact inv.clientClaim thread claim claimed
  · rw [workers] at claimed
    rw [same]
    exact inv.workerClaim accel slot point claimed
  · rw [clients]
    exact inv.sound thread
  · rw [clients] at looking
    exact (inv.looks thread taskId look looking).after enabled

/-- Every step of every thread preserves the invariant. -/
theorem Inv.step {kernel : Kernel} {next : System} (inv : Inv trace system)
    (stepped : Stepped kernel system event next) : Inv (trace ++ [event]) next := by
  cases stepped with
  | client thread input action pc taken => exact inv.client_step taken
  | worker accel expired action pc taken => exact inv.worker_step taken
  | stopper action pc taken =>
      exact inv.quiet_step (stopperStep_slot taken) rfl rfl rfl
  | tick => exact inv.quiet_step rfl rfl rfl rfl

end Step

/-- The invariant holds along every run. -/
theorem inv_of_run {kernel : Kernel} {trace : List Event} {system : System}
    (run : (machine kernel).Run trace system) : Inv trace system := by
  refine run.invariant Inv ?_ ?_
  · rintro _ ⟨ticks, rfl⟩
    exact Inv.initial ticks
  · intro trace system label event next _ inv taken
    exact inv.step (stepped_of_step taken)

/-- Every recorded event was enabled when it was taken. -/
theorem enabled_of_mem {kernel : Kernel} {trace : List Event} {system : System}
    (run : (machine kernel).Run trace system) :
    ∀ event ∈ trace, ∀ slot, ∃ life, Enabled slot life event := by
  refine run.invariant (fun trace _ => ∀ event ∈ trace, ∀ slot,
    ∃ life, Enabled slot life event) ?_ ?_
  · intro _ _ event member
    cases member
  · intro trace system label event next run sofar taken recorded member slot
    rcases List.mem_append.mp member with before | isEvent
    · exact sofar recorded before slot
    · rw [List.mem_singleton.mp isEvent]
      exact ⟨_, (inv_of_run run).enabled (stepped_of_step taken) slot⟩

/-- What one event of a run establishes about the life of a slot, and every enabled
event keeps, holds ever after. -/
theorem life_of_mem {kernel : Kernel} {trace : List Event} {system : System} {slot : Slot}
    {event : Event} (run : (machine kernel).Run trace system) (Holds : Life → Prop)
    (established : ∀ life : Life, Holds (life.after slot event))
    (kept : ∀ (life : Life) (other : Event), Enabled slot life other → Holds life →
      Holds (life.after slot other))
    (member : event ∈ trace) : Holds (ledger trace slot) := by
  refine run.invariant (fun trace _ => event ∈ trace → Holds (ledger trace slot)) ?_ ?_ member
  · intro _ _ member
    cases member
  · intro trace system label latest next reached sofar taken member
    rw [ledger_snoc]
    rcases List.mem_append.mp member with before | isLatest
    · exact kept _ _ ((inv_of_run reached).enabled (stepped_of_step taken) slot) (sofar before)
    · rw [← List.mem_singleton.mp isLatest]
      exact established _

end CortexForge.Concurrent
