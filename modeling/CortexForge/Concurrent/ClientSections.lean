import CortexForge.Concurrent.Realization

/-!
Contract: every step of a client with locks is a step without them, or none.

A section does its work in one step, which is the one that makes it visible to threads
that do not hold the lock: the store of the id in `task_alloc`, the last store of
`list_add_tail` in `task_submit` and the load of `load_percent` in `accel_get_info`. The
seven payload stores become visible with the last of them. All other steps inside a
section are answered by no step.

Owns: answers to a step, and the answer to every step of a client.
-/

namespace CortexForge.Concurrent

open CortexForge.Foundation
open CortexForge.Foundation.Links (ListOp SameAt Adding Deleting)

/-! ## Answers -/

/-- A step of a thread to a state of the machine of locks is answered by at most one step of
the same thread. -/
def Matched (kernel : Kernel) (system : System) (actor : Actor) (next : Locked) : Prop :=
  ∃ block reached, (machine kernel).Steps system block reached ∧ Realizes next reached ∧
    (block = [] ∨ ∃ action, block = [⟨actor, action⟩])

section Answers

variable {kernel : Kernel} {system : System} {next : Locked}

theorem Matched.stay {actor : Actor} (realizes : Realizes next system) :
    Matched kernel system actor next :=
  ⟨[], system, Machine.Steps.refl system, realizes, .inl rfl⟩

/-- The answer is no step, or a step of the thread. -/
theorem Matched.exists_step {actor : Actor} (matched : Matched kernel system actor next) :
    ∃ after, Realizes next after ∧ (after = system ∨ ∃ label action,
      (machine kernel).step label system = some (⟨actor, action⟩, after)) := by
  obtain ⟨block, after, steps, realizes, rfl | ⟨action, rfl⟩⟩ := matched
  · exact ⟨after, realizes, .inl (Machine.Steps.eq_of_nil steps)⟩
  · obtain ⟨label, taken⟩ := Machine.Steps.step_of_single steps
    exact ⟨after, realizes, .inr ⟨label, action, taken⟩⟩

theorem Matched.client {thread : Nat} {input : ClientInput} {action : Action} {pc : ClientPc}
    (taken : clientStep kernel system.dev system.jiffies input (system.clients thread) =
      some (action, pc))
    (realizes : Realizes next
      { system with
        dev := action.apply system.dev
        clients := Function.update system.clients thread pc }) :
    Matched kernel system (.client thread) next :=
  ⟨_, _, (Machine.Steps.refl system).snoc (step_client taken), realizes,
    .inr ⟨action, rfl⟩⟩

theorem Matched.worker {accel : AccelIndex} {expired : Bool} {action : Action} {pc : WorkerPc}
    (taken : workerStep kernel system.dev system.jiffies expired accel (system.workers accel) =
      some (action, pc))
    (realizes : Realizes next
      { system with
        dev := action.apply system.dev
        workers := Function.update system.workers accel pc }) :
    Matched kernel system (.worker accel) next :=
  ⟨_, _, (Machine.Steps.refl system).snoc (step_worker taken), realizes,
    .inr ⟨action, rfl⟩⟩

end Answers

/-! ## Steps that keep tasks and accelerators -/

section Confined

variable {locked : Locked} {system : System} {actor : Actor} {mine : Option Lock}
  {after : Memory} {dev : Dev} {trace : List Event}

theorem loadPercent_of_bare {unit other : Accel} (same : bareAccel unit = bareAccel other) :
    unit.loadPercent = other.loadPercent := by
  show (bareAccel unit).loadPercent = (bareAccel other).loadPercent
  rw [same]

/-- A step that changes lists, pointers and owners at most. -/
theorem Realizes.confined (realizes : Realizes locked system)
    (held : ∀ lock, mine = some lock →
      locked.memory.owner lock = none ∨ locked.memory.owner lock = some actor)
    (untouched : ∀ lock, mine ≠ some lock → Untouched system lock locked.memory after dev)
    (owner : ∀ lock, mine ≠ some lock → after.owner lock = locked.memory.owner lock)
    (tasks : after.dev.tasks = locked.memory.dev.tasks)
    (accelerators : after.dev.accelerators = locked.memory.dev.accelerators)
    (sameTasks : dev.tasks = system.dev.tasks)
    (sameBare : ∀ accel,
      bareAccel (dev.accelerators accel) = bareAccel (system.dev.accelerators accel)) :
    Confined actor mine none locked.memory after system dev where
  held := held
  untouched := untouched
  owner := owner
  apart := fun _ _ _ isOwn => by cases isOwn
  tasks := fun slot _ => ⟨fun task => task, Orthogonal.id, by rw [tasks], by rw [sameTasks]⟩
  fixed := fun accel => by
    rw [accelerators]
    exact Fixed.refl _
  load := fun accel _ => loadPercent_of_bare (sameBare accel)
  accelerators := fun accel => by
    rw [accelerators, sameBare accel]
    exact realizes.accelerators accel

/-- Changes within the nodes of one lock are not seen through another. -/
theorem Inv.untouched (inv : Inv trace system) {memory : Memory} {lock other : Lock}
    (different : some lock ≠ some other)
    (within : ∀ node, ¬ system.Owns lock node → SameAt node memory.links after.links)
    (guarded : SameGuarded memory after system.dev dev other) :
    Untouched system other memory after dev where
  links := fun node owns => within node fun owned =>
    different (congrArg some (inv.owns_unique owned owns))
  guarded := guarded

theorem SameGuarded.refl (memory : Memory) (dev : Dev) (lock : Lock) :
    SameGuarded memory memory dev dev lock := by
  cases lock with
  | task => exact ⟨rfl, rfl, rfl⟩
  | accel index => exact ⟨rfl, rfl⟩

/-- Only the owner of a lock is noted. -/
theorem Realizes.confined_owner (realizes : Realizes locked system) {lock : Lock}
    {newOwner : Option Actor}
    (held : locked.memory.owner lock = none ∨ locked.memory.owner lock = some actor) :
    Confined actor (some lock) none locked.memory
      { locked.memory with owner := Function.update locked.memory.owner lock newOwner } system
      system.dev := by
  refine realizes.confined ?_ ?_ ?_ rfl rfl rfl fun _ => rfl
  · rintro _ ⟨⟩
    exact held
  · intro other _
    exact ⟨fun node _ => SameAt.refl node _, SameGuarded.refl locked.memory system.dev other⟩
  · intro other different
    exact Function.update_of_ne (fun same => different (congrArg some same.symm)) _ _

/-- Only pointers of one lock are stored. -/
theorem Realizes.confined_links (realizes : Realizes locked system) (inv : Inv trace system)
    {lock : Lock} {links : Links ListNode} (held : locked.memory.owner lock = some actor)
    (within : ∀ node, ¬ system.Owns lock node → SameAt node locked.memory.links links) :
    Confined actor (some lock) none locked.memory { locked.memory with links := links } system
      system.dev := by
  refine realizes.confined ?_ ?_ (fun _ _ => rfl) rfl rfl rfl fun _ => rfl
  · rintro _ ⟨⟩
    exact .inr held
  · intro other different
    exact inv.untouched different within (SameGuarded.refl locked.memory system.dev other)

/-- A section of an accelerator changes its lists. -/
theorem Realizes.confined_lists (realizes : Realizes locked system) (inv : Inv trace system)
    {accel : AccelIndex} (change : Accel → Accel)
    (changed : dev = system.dev.modifyAccel accel change)
    (owned : locked.memory.owner (.accel accel) = some actor)
    (within : ∀ node, ¬ system.Owns (.accel accel) node →
      SameAt node locked.memory.links after.links)
    (owner : ∀ lock, some (.accel accel) ≠ some lock →
      after.owner lock = locked.memory.owner lock)
    (sameDev : after.dev = locked.memory.dev)
    (listsOnly : ∀ unit, bareAccel (change unit) = bareAccel unit) :
    Confined actor (some (.accel accel)) none locked.memory after system dev := by
  subst changed
  refine realizes.confined ?_ ?_ owner (by rw [sameDev]) (by rw [sameDev]) rfl ?_
  · rintro _ ⟨⟩
    exact .inr owned
  · intro lock different
    refine inv.untouched different within ?_
    cases lock with
    | task => exact ⟨rfl, rfl, by rw [sameDev]⟩
    | accel index =>
        have other : index ≠ accel := fun same => different (by rw [same])
        simp only [SameGuarded, system.dev.modifyAccel_other change other, and_self]
  · intro index
    by_cases same : index = accel
    · subst same
      rw [Dev.modifyAccel_same, listsOnly]
    · rw [system.dev.modifyAccel_other change same]

end Confined

/-! ## Taking and giving back a lock -/

section Lock

variable {locked : Locked} {system : System} {after : Memory} {lock : Lock}

theorem Memory.acquire_eq_some {memory : Memory} {actor : Actor}
    (acquired : memory.acquire lock actor = some after) :
    memory.owner lock = none ∧
      after = { memory with owner := Function.update memory.owner lock (some actor) } := by
  simp only [Memory.acquire] at acquired
  split at acquired
  next free =>
    cases acquired
    exact ⟨free, rfl⟩
  next => cases acquired

/-- Where a client stands does not depend on the owners. -/
theorem ClientStands.of_owner {memory : Memory} {dev : Dev} {pc : LockedClientPc}
    {view : ClientPc} (stands : ClientStands memory dev pc view) (owner : Lock → Option Actor) :
    ClientStands { memory with owner := owner } dev pc view := by
  cases pc with
  | enqueue desc accel slot phase =>
      cases phase with
      | add op => exact stands
      | unlock => exact stands
  | _ => exact stands

/-- A client takes a lock. -/
theorem Realizes.acquireClient (realizes : Realizes locked system) {thread : Nat}
    {pc : LockedClientPc} (acquired : locked.memory.acquire lock (.client thread) = some after)
    (outside : (locked.clients thread).lock? = none)
    (notFilling : (locked.clients thread).filling = none) (enters : pc.lock? = some lock)
    (stands : AtRest locked.memory system.dev lock →
      ClientStands locked.memory system.dev pc (system.clients thread)) :
    Realizes (locked.moveClient thread after pc) system := by
  obtain ⟨free, rfl⟩ := Memory.acquire_eq_some acquired
  refine realizes.stayClient (realizes.confined_owner (.inl free)) (.inl notFilling) ?_
    ((stands (realizes.atRest lock free)).of_owner _) ?_ (fun _ isOwn => by cases isOwn)
  · rw [enters]
    exact realizes.exclusive.acquire outside free
  · rintro _ ⟨⟩ released
    simp at released

/-- A client gives back its lock, and what the lock guards is in order. -/
theorem Realizes.releaseClient (realizes : Realizes locked system) {thread : Nat}
    {pc view : ClientPc} (isInside : (locked.clients thread).lock? = some lock)
    (notFilling : (locked.clients thread).filling = none)
    (rest : AtRest locked.memory system.dev lock) (same : view = pc) :
    Realizes (locked.moveClient thread (locked.memory.release lock) (.outside pc))
      { system with clients := Function.update system.clients thread view } := by
  have owned := (realizes.exclusive (.client thread) lock).mp isInside
  refine realizes.moveClient (realizes.confined_owner (.inr owned)) (.inl notFilling)
    (realizes.exclusive.release isInside) same ?_ (fun _ isOwn => by cases isOwn)
  rintro _ ⟨⟩ -
  cases lock with
  | task => exact rest
  | accel index => exact rest

/-- The same where the counterpart is past the section already. -/
theorem Realizes.releaseStay (realizes : Realizes locked system) {thread : Nat}
    {pc : ClientPc} (isInside : (locked.clients thread).lock? = some lock)
    (notFilling : (locked.clients thread).filling = none)
    (rest : AtRest locked.memory system.dev lock) (same : system.clients thread = pc) :
    Realizes (locked.moveClient thread (locked.memory.release lock) (.outside pc)) system := by
  have moved := realizes.releaseClient isInside notFilling rest same
  rwa [Function.update_eq_self] at moved

/-- A client stays inside its section and stores into nodes of its lock only. -/
theorem Realizes.innerClient {trace : List Event} (realizes : Realizes locked system)
    (inv : Inv trace system) {thread : Nat} {pc : LockedClientPc} {links : Links ListNode}
    (isInside : (locked.clients thread).lock? = some lock)
    (notFilling : (locked.clients thread).filling = none) (stillInside : pc.lock? = some lock)
    (within : ∀ node, ¬ system.Owns lock node → SameAt node locked.memory.links links)
    (stands : ClientStands { locked.memory with links := links } system.dev pc
      (system.clients thread)) :
    Realizes (locked.moveClient thread { locked.memory with links := links } pc) system := by
  have owned := (realizes.exclusive (.client thread) lock).mp isInside
  refine realizes.stayClient (realizes.confined_links inv owned within) (.inl notFilling)
    (realizes.exclusive.stay (stillInside.trans isInside.symm)) stands ?_
    (fun _ isOwn => by cases isOwn)
  rintro _ ⟨⟩ released
  rw [show locked.memory.owner lock = none from released] at owned
  cases owned

/-- A client stays inside its section and stores nothing. -/
theorem Realizes.waitClient {trace : List Event} (realizes : Realizes locked system)
    (inv : Inv trace system) {thread : Nat} {pc : LockedClientPc}
    (isInside : (locked.clients thread).lock? = some lock)
    (notFilling : (locked.clients thread).filling = none) (stillInside : pc.lock? = some lock)
    (stands : ClientStands locked.memory system.dev pc (system.clients thread)) :
    Realizes (locked.moveClient thread locked.memory pc) system :=
  realizes.innerClient inv isInside notFilling stillInside
    (fun node _ => SameAt.refl node locked.memory.links) stands

end Lock

/-! ## List operations inside a section -/

theorem Memory.listStep_some {Pc : Type} {memory : Memory} {op next : ListOp ListNode}
    {links : Links ListNode} (taken : op.step memory.links = some (links, some next))
    (going : ListOp ListNode → Pc) (past crashed : Pc) :
    memory.listStep op going past crashed = ({ memory with links := links }, going next) := by
  simp only [Memory.listStep, taken]

theorem Memory.listStep_none {Pc : Type} {memory : Memory} {op : ListOp ListNode}
    {links : Links ListNode} (taken : op.step memory.links = some (links, none))
    (going : ListOp ListNode → Pc) (past crashed : Pc) :
    memory.listStep op going past crashed = ({ memory with links := links }, past) := by
  simp only [Memory.listStep, taken]

/-! ## `task_alloc` -/

section Alloc

variable {kernel : Kernel} {locked : Locked} {system : System} {trace : List Event}

/-- A task on the free list has been zero since probe. -/
theorem Ordered.zero_of_free {dev : Dev} (ordered : Ordered dev) {slot : Slot}
    (free : slot ∈ dev.freeTasks) : dev.tasks slot = Task.zero := by
  rw [ordered.free, mem_drop_finRange] at free
  exact ordered.fresh slot free

/-- Nobody is filling a task that is on the free list. -/
theorem Realizes.not_filling_of_free (realizes : Realizes locked system)
    (inv : Inv trace system) {slot : Slot} (free : slot ∈ system.dev.freeTasks) (thread : Nat) :
    (locked.clients thread).filling ≠ some slot := by
  intro filling
  have held := (realizes.clients thread).held_of_filling filling
  have isFree : placeOf trace slot = .freeTasks := (inv.partition.mem .freeTasks slot).mp free
  have submitting : placeOf trace slot = .submitting thread :=
    (inv.partition.mem (.submitting thread) slot).mp (by simp [content, held])
  rw [isFree] at submitting
  cases submitting

/-- The first task of the free list: it is zero in memory too, and it is on the list once. -/
theorem Realizes.first_free (realizes : Realizes locked system) (inv : Inv trace system)
    (ordered : Ordered system.dev) {slot : Slot} {others : List Slot}
    (head : system.dev.freeTasks = slot :: others) :
    slot ∈ system.dev.freeTasks ∧ locked.memory.dev.tasks slot = Task.zero ∧
      system.dev.tasks slot = Task.zero ∧ slot ∉ others := by
  have isFree : slot ∈ system.dev.freeTasks := by
    rw [head]
    exact List.mem_cons_self
  have nodup := inv.partition.nodup .freeTasks
  rw [show content trace system .freeTasks = slot :: others from head] at nodup
  have isZero := ordered.zero_of_free isFree
  exact ⟨isFree, (realizes.tasks slot (realizes.not_filling_of_free inv isFree)).trans isZero,
    isZero, (List.nodup_cons.mp nodup).1⟩

theorem TaskWord.clear_zero (word : TaskWord) : word.clear Task.zero = Task.zero := by
  cases word <;> rfl

/-- Storing into a task what it holds already changes nothing. -/
theorem Memory.modifyTask_eq {memory : Memory} {slot : Slot} {change : Task → Task}
    (same : change (memory.dev.tasks slot) = memory.dev.tasks slot) :
    memory.dev.modifyTask slot change = memory.dev := by
  simp only [Dev.modifyTask, same, Function.update_eq_self]

theorem TaskWord.clearLinks_same {slot : Slot} {node : ListNode} (word : TaskWord)
    (links : Links ListNode) (different : node ≠ .entry slot) :
    SameAt node links (word.clearLinks slot links) := by
  cases word with
  | entryNext => exact ⟨by simp [TaskWord.clearLinks, different], rfl⟩
  | entryPrev => exact ⟨rfl, by simp [TaskWord.clearLinks, different]⟩
  | _ => exact SameAt.refl node links

/-- The store of the id touches the free list and one task. -/
theorem confined_writeId (realizes : Realizes locked system) {thread : Nat} {slot : Slot}
    {taskId : UInt32} {desc : TaskDesc} (owned : locked.memory.owner .task = some (.client thread))
    (deviceZero : system.dev.tasks slot = Task.zero)
    (issued : taskId = system.dev.nextTaskId + 1) :
    Confined (.client thread) (some .task) none locked.memory
      (locked.memory.modifyTask slot fun task => { task with id := taskId }) system
      ((Action.alloc slot (system.dev.nextTaskId + 1) desc).apply system.dev) where
  held := by
    rintro _ ⟨⟩
    exact .inr owned
  untouched := by
    intro lock different
    refine ⟨fun node _ => SameAt.refl node _, ?_⟩
    cases lock with
    | task => exact absurd rfl different
    | accel index => exact ⟨rfl, rfl⟩
  owner := fun _ _ => rfl
  apart := fun _ _ _ isOwn => by cases isOwn
  tasks := by
    intro other _
    by_cases same : other = slot
    · subst same
      refine ⟨fun task => { task with id := taskId }, fun desc field task => ?_, ?_, ?_⟩
      · cases field <;> rfl
      · simp [Memory.modifyTask]
      · simp [Action.apply, deviceZero, issued]
    · exact ⟨fun task => task, Orthogonal.id,
        by simp [Memory.modifyTask, Dev.modifyTask, same], by simp [Action.apply, same]⟩
  fixed := fun accel => Fixed.refl _
  load := fun _ _ => rfl
  accelerators := realizes.accelerators

/-- The nodes of the free list, by its first task. -/
theorem System.owns_free {slot : Slot} {others : List Slot} {node : ListNode}
    (head : system.dev.freeTasks = slot :: others)
    (listed : node ∈ .freeTasks :: .entry slot :: entries others) : system.Owns .task node := by
  rcases List.mem_cons.mp listed with rfl | listed
  · trivial
  · rw [← entries_cons, ← head] at listed
    obtain ⟨other, isFree, rfl⟩ := exists_of_mem_entries listed
    exact isFree

section Phases

variable {thread : Nat} {desc : TaskDesc} {accel : AccelIndex} {slot : Slot} {others : List Slot}
  {after : Memory} {next : LockedClientPc}

theorem Realizes.testEmpty_matched (realizes : Realizes locked system) (inv : Inv trace system)
    (pc : locked.clients thread = .alloc desc accel .testEmpty)
    (view : system.clients thread = .submit desc accel .alloc)
    (rest : (poolView locked.memory system.dev).AtRest)
    (taken : allocStep locked.memory desc accel .testEmpty = (after, next)) :
    Matched kernel system (.client thread) (locked.moveClient thread after next) := by
  have isInside : (locked.clients thread).lock? = some .task := by rw [pc]; rfl
  have notFilling : (locked.clients thread).filling = none := by rw [pc]; rfl
  by_cases empty : locked.memory.links.listEmpty .freeTasks = true
  · simp only [allocStep, empty, ↓reduceIte, Prod.mk.injEq] at taken
    obtain ⟨rfl, rfl⟩ := taken
    have isNil : system.dev.freeTasks = [] := by
      simpa [poolView, entries] using rest.ring.listEmpty_iff.mp empty
    exact .stay (realizes.waitClient inv isInside notFilling rfl ⟨view, .exhausted rest isNil⟩)
  · simp only [allocStep, empty, Bool.false_eq_true, ↓reduceIte, Prod.mk.injEq] at taken
    obtain ⟨rfl, rfl⟩ := taken
    have notNil : system.dev.freeTasks ≠ [] := fun isNil =>
      empty (rest.ring.listEmpty_iff.mpr (by simp [poolView, isNil]))
    exact .stay (realizes.waitClient inv isInside notFilling rfl ⟨view, .first rest notNil⟩)

theorem Realizes.first_matched (realizes : Realizes locked system) (inv : Inv trace system)
    (pc : locked.clients thread = .alloc desc accel .first)
    (view : system.clients thread = .submit desc accel .alloc)
    (rest : (poolView locked.memory system.dev).AtRest) (filled : system.dev.freeTasks ≠ [])
    (taken : allocStep locked.memory desc accel .first = (after, next)) :
    Matched kernel system (.client thread) (locked.moveClient thread after next) := by
  have isInside : (locked.clients thread).lock? = some .task := by rw [pc]; rfl
  have notFilling : (locked.clients thread).filling = none := by rw [pc]; rfl
  obtain ⟨slot, others, head⟩ := List.exists_cons_of_ne_nil filled
  have ring : locked.memory.links.Ring .freeTasks (.entry slot :: entries others) := by
    rw [← entries_cons, ← head]
    exact rest.ring
  simp only [allocStep, ring.next_head, Prod.mk.injEq] at taken
  obtain ⟨rfl, rfl⟩ := taken
  exact .stay (realizes.waitClient inv isInside notFilling rfl
    ⟨view, .del head rest.counter (.load ring)⟩)

theorem Realizes.del_matched (realizes : Realizes locked system) (inv : Inv trace system)
    {op : ListOp ListNode} (pc : locked.clients thread = .alloc desc accel (.del slot op))
    (view : system.clients thread = .submit desc accel .alloc)
    (head : system.dev.freeTasks = slot :: others)
    (counter : locked.memory.dev.nextTaskId = system.dev.nextTaskId)
    (deleting : Deleting .freeTasks (.entry slot) (entries others) op locked.memory.links)
    (taken : allocStep locked.memory desc accel (.del slot op) = (after, next)) :
    Matched kernel system (.client thread) (locked.moveClient thread after next) := by
  have isInside : (locked.clients thread).lock? = some .task := by rw [pc]; rfl
  have notFilling : (locked.clients thread).filling = none := by rw [pc]; rfl
  obtain ⟨links, more, stepped, elsewhere, leads⟩ := deleting.step
  have within (node : ListNode) (foreign : ¬ system.Owns .task node) :
      SameAt node locked.memory.links links :=
    elsewhere node fun listed => foreign (System.owns_free head listed)
  cases more with
  | some op =>
      simp only [allocStep, Memory.listStep_some stepped, Prod.mk.injEq] at taken
      obtain ⟨rfl, rfl⟩ := taken
      exact .stay (realizes.innerClient inv isInside notFilling rfl within
        ⟨view, .del head counter leads⟩)
  | none =>
      simp only [allocStep, Memory.listStep_none stepped, Prod.mk.injEq] at taken
      obtain ⟨rfl, rfl⟩ := taken
      exact .stay (realizes.innerClient inv isInside notFilling rfl within
        ⟨view, .memset .id laterWords head counter leads⟩)

/-- A word of `memset` changes at most the two pointers of the task, which is off the list. -/
theorem Realizes.memset_matched (realizes : Realizes locked system) (inv : Inv trace system)
    (ordered : Ordered system.dev) {word : TaskWord} {more : List TaskWord}
    (pc : locked.clients thread = .alloc desc accel (.memset slot word more))
    (view : system.clients thread = .submit desc accel .alloc)
    (head : system.dev.freeTasks = slot :: others)
    (counter : locked.memory.dev.nextTaskId = system.dev.nextTaskId)
    (ring : locked.memory.links.Ring .freeTasks (entries others))
    (taken : allocStep locked.memory desc accel (.memset slot word more) = (after, next)) :
    Matched kernel system (.client thread) (locked.moveClient thread after next) := by
  have isInside : (locked.clients thread).lock? = some .task := by rw [pc]; rfl
  have notFilling : (locked.clients thread).filling = none := by rw [pc]; rfl
  obtain ⟨isFree, isZero, -, notOthers⟩ := realizes.first_free inv ordered head
  have cleared : locked.memory.clearWord slot word =
      { locked.memory with links := word.clearLinks slot locked.memory.links } := by
    rw [Memory.clearWord, Memory.modifyTask_eq (by rw [isZero, word.clear_zero])]
  have within (node : ListNode) (foreign : ¬ system.Owns .task node) :
      SameAt node locked.memory.links (word.clearLinks slot locked.memory.links) :=
    word.clearLinks_same _ fun isEntry => foreign (isEntry ▸ isFree)
  have kept : (word.clearLinks slot locked.memory.links).Ring .freeTasks (entries others) := by
    refine ring.congr fun node member => word.clearLinks_same _ fun isEntry => ?_
    simp [isEntry, notOthers] at member
  cases more with
  | nil =>
      simp only [allocStep, cleared, Prod.mk.injEq] at taken
      obtain ⟨rfl, rfl⟩ := taken
      exact .stay (realizes.innerClient inv isInside notFilling rfl within
        ⟨view, .initCompletion head counter kept⟩)
  | cons second rest =>
      simp only [allocStep, cleared, Prod.mk.injEq] at taken
      obtain ⟨rfl, rfl⟩ := taken
      exact .stay (realizes.innerClient inv isInside notFilling rfl within
        ⟨view, .memset second rest head counter kept⟩)

theorem Realizes.initCompletion_matched (realizes : Realizes locked system)
    (inv : Inv trace system) (ordered : Ordered system.dev)
    (pc : locked.clients thread = .alloc desc accel (.initCompletion slot))
    (view : system.clients thread = .submit desc accel .alloc)
    (head : system.dev.freeTasks = slot :: others)
    (counter : locked.memory.dev.nextTaskId = system.dev.nextTaskId)
    (ring : locked.memory.links.Ring .freeTasks (entries others))
    (taken : allocStep locked.memory desc accel (.initCompletion slot) = (after, next)) :
    Matched kernel system (.client thread) (locked.moveClient thread after next) := by
  have isInside : (locked.clients thread).lock? = some .task := by rw [pc]; rfl
  have notFilling : (locked.clients thread).filling = none := by rw [pc]; rfl
  obtain ⟨-, isZero, -, -⟩ := realizes.first_free inv ordered head
  have same : (locked.memory.modifyTask slot fun task => { task with done := false }) =
      locked.memory := by
    rw [Memory.modifyTask, Memory.modifyTask_eq (by rw [isZero]; rfl)]
  simp only [allocStep, same, Prod.mk.injEq] at taken
  obtain ⟨rfl, rfl⟩ := taken
  exact .stay (realizes.waitClient inv isInside notFilling rfl ⟨view, .nextId head counter ring⟩)

theorem Realizes.nextId_matched (realizes : Realizes locked system)
    (pc : locked.clients thread = .alloc desc accel (.nextId slot))
    (view : system.clients thread = .submit desc accel .alloc)
    (head : system.dev.freeTasks = slot :: others)
    (counter : locked.memory.dev.nextTaskId = system.dev.nextTaskId)
    (ring : locked.memory.links.Ring .freeTasks (entries others))
    (taken : allocStep locked.memory desc accel (.nextId slot) = (after, next)) :
    Matched kernel system (.client thread) (locked.moveClient thread after next) := by
  cases taken
  have isInside : (locked.clients thread).lock? = some .task := by rw [pc]; rfl
  have notFilling : (locked.clients thread).filling = none := by rw [pc]; rfl
  have owned := (realizes.exclusive (.client thread) .task).mp isInside
  have confined : Confined (.client thread) (some .task) none locked.memory
      { locked.memory with
        dev := { locked.memory.dev with nextTaskId := locked.memory.dev.nextTaskId + 1 } }
      system system.dev := by
    refine realizes.confined ?_ ?_ (fun _ _ => rfl) rfl rfl rfl fun _ => rfl
    · rintro _ ⟨⟩
      exact .inr owned
    · intro lock different
      refine ⟨fun node _ => SameAt.refl node _, ?_⟩
      cases lock with
      | task => exact absurd rfl different
      | accel index => exact ⟨rfl, rfl⟩
  refine .stay (realizes.stayClient confined (.inl notFilling)
    (realizes.exclusive.stay isInside.symm) ⟨view, ?_⟩ ?_ (fun _ isOwn => by cases isOwn))
  · exact @PoolView.InAlloc.writeId (poolView _ _) _ _ head (congrArg (· + 1) counter) ring
  · rintro _ ⟨⟩ released
    rw [show locked.memory.owner .task = none from released] at owned
    cases owned

/-- The store of the id is the step that takes the task off the free list. -/
theorem Realizes.writeId_matched (realizes : Realizes locked system) (inv : Inv trace system)
    (ordered : Ordered system.dev) {taskId : UInt32}
    (pc : locked.clients thread = .alloc desc accel (.writeId slot taskId))
    (view : system.clients thread = .submit desc accel .alloc)
    (head : system.dev.freeTasks = slot :: others) (issued : taskId = system.dev.nextTaskId + 1)
    (counter : locked.memory.dev.nextTaskId = taskId)
    (ring : locked.memory.links.Ring .freeTasks (entries others))
    (taken : allocStep locked.memory desc accel (.writeId slot taskId) = (after, next)) :
    Matched kernel system (.client thread) (locked.moveClient thread after next) := by
  cases taken
  have isInside : (locked.clients thread).lock? = some .task := by rw [pc]; rfl
  have notFilling : (locked.clients thread).filling = none := by rw [pc]; rfl
  have owned := (realizes.exclusive (.client thread) .task).mp isInside
  obtain ⟨-, -, deviceZero, -⟩ := realizes.first_free inv ordered head
  have answered : clientStep kernel system.dev system.jiffies (.advance true)
      (system.clients thread) =
        some (.alloc slot (system.dev.nextTaskId + 1) desc, .submit desc accel (.fill slot)) := by
    simp only [view, clientStep, submitStep, head]
  refine .client answered (realizes.moveClient
    (confined_writeId realizes owned deviceZero issued) (.inl notFilling)
    (realizes.exclusive.stay isInside.symm) ⟨rfl, .allocated ⟨?_, ?_⟩ slot⟩ ?_
    (fun _ isOwn => by cases isOwn))
  · have erased : ((Action.alloc slot (system.dev.nextTaskId + 1) desc).apply
        system.dev).freeTasks = others := by
      simp [Action.apply, head]
    show locked.memory.links.Ring .freeTasks (entries ((Action.alloc slot
      (system.dev.nextTaskId + 1) desc).apply system.dev).freeTasks)
    rw [erased]
    exact ring
  · exact counter.trans issued
  · rintro _ ⟨⟩ released
    rw [show locked.memory.owner .task = none from released] at owned
    cases owned

end Phases

/-- A step of `task_alloc`, from a state in which the thread stands as it should. -/
theorem Realizes.alloc_matched (realizes : Realizes locked system)
    (run : (machine kernel).Run trace system) {thread : Nat} {desc : TaskDesc}
    {accel : AccelIndex} {phase : AllocPhase} {after : Memory} {next : LockedClientPc}
    (pc : locked.clients thread = .alloc desc accel phase)
    (taken : allocStep locked.memory desc accel phase = (after, next)) :
    Matched kernel system (.client thread) (locked.moveClient thread after next) := by
  have inv := inv_of_run run
  have ordered := ordered_of_run run
  have stands := realizes.clients thread
  rw [pc] at stands
  obtain ⟨view, shape⟩ := stands
  cases shape with
  | testEmpty rest => exact realizes.testEmpty_matched inv pc view rest taken
  | first rest filled => exact realizes.first_matched inv pc view rest filled taken
  | del head counter deleting => exact realizes.del_matched inv pc view head counter deleting taken
  | memset word more head counter ring =>
      exact realizes.memset_matched inv ordered pc view head counter ring taken
  | initCompletion head counter ring =>
      exact realizes.initCompletion_matched inv ordered pc view head counter ring taken
  | nextId head counter ring => exact realizes.nextId_matched pc view head counter ring taken
  | writeId head counter ring =>
      exact realizes.writeId_matched inv ordered pc view head counter rfl ring taken
  | exhausted rest empty =>
      cases taken
      have isNil : system.dev.freeTasks = [] := empty
      have answered : clientStep kernel system.dev system.jiffies (.advance true)
          (system.clients thread) =
            some (.tau, .returned (.submit Errno.enomem.ret desc)) := by
        simp only [view, AllocPhase.view, clientStep, submitStep, isNil]
      exact .client answered (realizes.releaseClient (by rw [pc]; rfl) (by rw [pc]; rfl) rest rfl)
  | allocated rest slot =>
      cases taken
      exact .stay (realizes.releaseStay (by rw [pc]; rfl) (by rw [pc]; rfl) rest view)

end Alloc

/-! ## `task_submit` -/

section Enqueue

variable {kernel : Kernel} {locked : Locked} {system : System} {trace : List Event}

/-- A task that a thread is about to queue is on no list of an accelerator. -/
theorem Inv.not_listed_of_enqueue (inv : Inv trace system) {thread : Nat} {desc : TaskDesc}
    {accel : AccelIndex} {slot : Slot}
    (view : system.clients thread = .submit desc accel (.enqueue slot)) :
    slot ∉ (system.dev.accelerators accel).taskQueue ∧
      slot ∉ (system.dev.accelerators accel).activeTasks := by
  have held : placeOf trace slot = .submitting thread := by
    refine (inv.partition.mem (.submitting thread) slot).mp ?_
    simp [content, System.held, view, ClientPc.claim, SubmitPhase.claim]
  constructor
  · intro queued
    have isQueued := (inv.partition.mem (.taskQueue accel) slot).mp queued
    rw [held] at isQueued
    cases isQueued
  · intro active
    have isActive := (inv.partition.mem (.activeTasks accel) slot).mp active
    rw [held] at isActive
    cases isActive

/-- The two lists of an accelerator share no node. -/
theorem Inv.lists_apart (inv : Inv trace system) {accel : AccelIndex} {node : ListNode}
    (active : node ∈ .activeTasks accel :: entries (system.dev.accelerators accel).activeTasks) :
    node ∉ .taskQueue accel :: entries (system.dev.accelerators accel).taskQueue := by
  intro queued
  rcases List.mem_cons.mp active with rfl | listed
  · simp [entries] at queued
  · obtain ⟨slot, isActive, rfl⟩ := exists_of_mem_entries listed
    have activePlace := (inv.partition.mem (.activeTasks accel) slot).mp isActive
    have isQueued : slot ∈ (system.dev.accelerators accel).taskQueue := by simpa using queued
    have queuedPlace := (inv.partition.mem (.taskQueue accel) slot).mp isQueued
    rw [activePlace] at queuedPlace
    cases queuedPlace

/-- A step of the mutex section of `task_submit`. The last store makes the task visible to the
test that the worker makes without the mutex. -/
theorem Realizes.enqueue_matched (realizes : Realizes locked system)
    (run : (machine kernel).Run trace system) {thread : Nat} {desc : TaskDesc}
    {accel : AccelIndex} {slot : Slot} {phase : EnqueuePhase} {after : Memory}
    {next : LockedClientPc} (pc : locked.clients thread = .enqueue desc accel slot phase)
    (taken : enqueueStep locked.memory desc accel slot phase = (after, next)) :
    Matched kernel system (.client thread) (locked.moveClient thread after next) := by
  have inv := inv_of_run run
  have isInside : (locked.clients thread).lock? = some (.accel accel) := by rw [pc]; rfl
  have notFilling : (locked.clients thread).filling = none := by rw [pc]; rfl
  have owned := (realizes.exclusive (.client thread) (.accel accel)).mp isInside
  have stands := realizes.clients thread
  rw [pc] at stands
  cases phase with
  | unlock =>
      cases taken
      exact .stay (realizes.releaseStay isInside notFilling stands.2 stands.1)
  | add op =>
      obtain ⟨view, shape⟩ := stands
      have absent : .entry slot ∉
          .taskQueue accel :: entries (system.dev.accelerators accel).taskQueue := by
        simpa using (inv.not_listed_of_enqueue view).1
      obtain ⟨links, more, stepped, elsewhere, leads⟩ := shape.adding.step absent
      have within (node : ListNode) (foreign : ¬ system.Owns (.accel accel) node) :
          SameAt node locked.memory.links links := by
        refine elsewhere node fun listed => foreign ?_
        rcases List.mem_cons.mp listed with rfl | listed
        · exact .inr (.inr ⟨thread, desc, view⟩)
        · have covers : (queueView locked.memory system.dev accel).Covers accel node := .inl listed
          exact covers.owned
      -- The active list shares no node with the queue or the new task.
      have active : links.Ring (.activeTasks accel)
          (entries (system.dev.accelerators accel).activeTasks) := by
        refine Links.Ring.congr shape.active fun node member => elsewhere node fun listed => ?_
        rcases List.mem_cons.mp listed with rfl | queued
        · exact (inv.not_listed_of_enqueue view).2 (by simpa using member)
        · exact inv.lists_apart member queued
      cases more with
      | some op =>
          simp only [enqueueStep, Memory.listStep_some stepped, Prod.mk.injEq] at taken
          obtain ⟨rfl, rfl⟩ := taken
          exact .stay (realizes.innerClient inv isInside notFilling rfl within
            ⟨view, leads, active⟩)
      | none =>
          simp only [enqueueStep, Memory.listStep_none stepped, Prod.mk.injEq] at taken
          obtain ⟨rfl, rfl⟩ := taken
          have answered : clientStep kernel system.dev system.jiffies (.advance true)
              (system.clients thread) =
                some (.enqueue accel slot, .submit desc accel (.wakeUp slot)) := by
            simp only [view, clientStep, submitStep]
          have confined : Confined (.client thread) (some (.accel accel)) none locked.memory
              { locked.memory with links := links } system
              ((Action.enqueue accel slot).apply system.dev) :=
            realizes.confined_lists inv
              (fun unit => { unit with taskQueue := unit.taskQueue ++ [slot] }) rfl owned within
              (fun _ _ => rfl) rfl fun _ => rfl
          refine .client answered (realizes.moveClient confined (.inl notFilling)
            (realizes.exclusive.stay isInside.symm) ⟨rfl, ?_, ?_⟩ ?_
            (fun _ isOwn => by cases isOwn))
          · simp only [queueView, Action.apply_taskQueue, ↓reduceIte, entries_snoc]
            exact leads
          · simp only [queueView, Action.apply_activeTasks]
            exact active
          · rintro _ ⟨⟩ released
            rw [show locked.memory.owner (.accel accel) = none from released] at owned
            cases owned

end Enqueue

/-! ## `accel_get_info` -/

section Info

variable {kernel : Kernel} {locked : Locked} {system : System} {trace : List Event}

/-- Loading all fields one by one is `accel_get_info`. -/
theorem foldl_infoFields (unit : Accel) (info : AccelInfo) :
    infoFields.foldl (fun image field => field.load (bareAccel unit) image) info =
      accelGetInfo unit info := rfl

/-- The load of `load_percent` decides what the snapshot is. -/
theorem accelGetInfo_of_partly {unit : Accel} {original : AccelInfo}
    {loaded rest : List InfoField} (split : infoFields = loaded ++ .loadPercent :: rest) :
    accelGetInfo unit original =
      rest.foldl (fun image field => field.load (bareAccel unit) image)
        (InfoField.loadPercent.load (bareAccel unit)
          (loaded.foldl (fun image field => field.load (bareAccel unit) image) original)) := by
  rw [← foldl_infoFields, split, List.foldl_append, List.foldl_cons]

theorem Realizes.info_matched (realizes : Realizes locked system)
    (run : (machine kernel).Run trace system) {thread : Nat} {info : AccelInfo}
    {accel : AccelIndex} {rest : List InfoField} {after : Memory} {next : LockedClientPc}
    (pc : locked.clients thread = .info info accel rest)
    (taken : infoStep locked.memory info accel rest = (after, next)) :
    Matched kernel system (.client thread) (locked.moveClient thread after next) := by
  have inv := inv_of_run run
  have isInside : (locked.clients thread).lock? = some (.accel accel) := by rw [pc]; rfl
  have notFilling : (locked.clients thread).filling = none := by rw [pc]; rfl
  have owned := (realizes.exclusive (.client thread) (.accel accel)).mp isInside
  have isBare := realizes.accelerators accel
  have stands := realizes.clients thread
  rw [pc] at stands
  obtain ⟨atRest, shape⟩ := stands
  rw [isBare] at shape
  generalize view : system.clients thread = counterpart at shape
  cases rest with
  | nil =>
      cases taken
      cases shape with
      | before original loaded split notLoaded partly =>
          rw [List.append_nil] at split
          exact absurd (split ▸ by simp [infoFields]) notLoaded
      | after loaded => exact .stay (realizes.releaseStay isInside notFilling atRest view)
  | cons field rest =>
      cases taken
      cases shape with
      | after loaded =>
          refine .stay (realizes.waitClient inv isInside notFilling rfl ⟨atRest, ?_⟩)
          rw [view, isBare]
          exact .after fun member => loaded (List.mem_cons_of_mem _ member)
      | before original loaded split notLoaded partly =>
          by_cases decisive : field = .loadPercent
          · subst decisive
            have nodup : infoFields.Nodup := by decide
            rw [split] at nodup
            have notLater : InfoField.loadPercent ∉ rest :=
              (List.nodup_cons.mp (List.nodup_append.mp nodup).2.1).1
            have answered : clientStep kernel system.dev system.jiffies (.advance true)
                (system.clients thread) = some (.tau,
                  .copyInfo (accelGetInfo (system.dev.accelerators accel) original)) := by
              rw [view]
              rfl
            have confined := realizes.confined_links inv owned fun node _ =>
              SameAt.refl node locked.memory.links
            refine .client answered (realizes.moveClient confined (.inl notFilling)
              (realizes.exclusive.stay isInside.symm) ⟨atRest, ?_⟩ ?_
              (fun _ isOwn => by cases isOwn))
            · rw [isBare, accelGetInfo_of_partly split, ← partly]
              exact .after notLater
            · rintro _ ⟨⟩ released
              rw [show locked.memory.owner (.accel accel) = none from released] at owned
              cases owned
          · refine .stay (realizes.waitClient inv isInside notFilling rfl ⟨atRest, ?_⟩)
            rw [view, isBare]
            refine .before original (loaded ++ [field]) (by simpa using split) ?_ ?_
            · simpa [notLoaded] using Ne.symm decisive
            · rw [List.foldl_append, ← partly]
              rfl

end Info

/-! ## The payload -/

section Fill

variable {kernel : Kernel} {locked : Locked} {system : System} {trace : List Event}

/-- No two threads hold one task. -/
theorem Inv.held_unique (inv : Inv trace system) {first second : Nat} {slot : Slot}
    (firstHolds : system.held first = some slot) (secondHolds : system.held second = some slot) :
    first = second := by
  have firstPlace : placeOf trace slot = .submitting first :=
    (inv.partition.mem (.submitting first) slot).mp (by simp [content, firstHolds])
  have secondPlace : placeOf trace slot = .submitting second :=
    (inv.partition.mem (.submitting second) slot).mp (by simp [content, secondHolds])
  rw [firstPlace, Place.submitting.injEq] at secondPlace
  exact secondPlace

/-- The holder of a task stores into it. -/
theorem Realizes.confined_own (realizes : Realizes locked system) (inv : Inv trace system)
    {thread : Nat} {slot : Slot} (holds : system.held thread = some slot)
    (change intended : Task → Task) :
    Confined (.client thread) none (some slot) locked.memory (locked.memory.modifyTask slot change)
      system (system.dev.modifyTask slot intended) where
  held := fun _ isMine => by cases isMine
  untouched := fun lock _ => ⟨fun node _ => SameAt.refl node _, by
    cases lock with
    | task => exact ⟨rfl, rfl, rfl⟩
    | accel index => exact ⟨rfl, rfl⟩⟩
  owner := fun _ _ => rfl
  apart := by
    rintro other _ different ⟨⟩ otherHolds
    exact different (congrArg Actor.client (inv.held_unique holds otherHolds))
  tasks := by
    intro other notOwn
    have different : other ≠ slot := fun same => notOwn (congrArg some same.symm)
    exact ⟨fun task => task, Orthogonal.id, Dev.modifyTask_other _ _ different,
      Dev.modifyTask_other _ _ different⟩
  fixed := fun accel => Fixed.refl _
  load := fun _ _ => rfl
  accelerators := realizes.accelerators

/-- The holder of a task begins to fill it: nobody else does. -/
theorem Realizes.own_task_eq (realizes : Realizes locked system) (inv : Inv trace system)
    {thread : Nat} {slot : Slot} (holds : system.held thread = some slot)
    (notFilling : (locked.clients thread).filling = none) :
    locked.memory.dev.tasks slot = system.dev.tasks slot := by
  refine realizes.tasks slot fun other filling => ?_
  have same := inv.held_unique holds ((realizes.clients other).held_of_filling filling)
  rw [← same, notFilling] at filling
  cases filling

/-- The first of the payload stores. -/
theorem Realizes.fill_begins (realizes : Realizes locked system)
    (run : (machine kernel).Run trace system) {thread : Nat} {desc : TaskDesc}
    {accel : AccelIndex} {slot : Slot}
    (pc : locked.clients thread = .outside (.submit desc accel (.fill slot))) :
    Matched kernel system (.client thread) (locked.moveClient thread
      (locked.memory.modifyTask slot (PayloadField.accelType.store desc))
      (.fill desc accel slot .priority laterFields)) := by
  have inv := inv_of_run run
  have notFilling : (locked.clients thread).filling = none := by rw [pc]; rfl
  have view := realizes.clients thread
  rw [pc] at view
  have holds : system.held thread = some slot := by
    rw [System.held, show system.clients thread = _ from view]
    rfl
  have confined := realizes.confined_own inv holds (PayloadField.accelType.store desc)
    fun task => task
  have same : (system.dev.modifyTask slot fun task => task) = system.dev := by
    simp [Dev.modifyTask]
  rw [same] at confined
  refine .stay (realizes.stayClient confined (.inl notFilling)
    (realizes.exclusive.stay (by rw [Locked.inside, pc]; rfl)) ⟨view, ?_⟩
    (fun _ isMine => by cases isMine) ?_)
  · rw [Memory.modifyTask, Dev.modifyTask_same, realizes.own_task_eq inv holds notFilling]
    rfl
  · rintro _ ⟨⟩ notStill
    exact absurd rfl notStill

/-- The others; the last one completes the payload. -/
theorem Realizes.fill_matched (realizes : Realizes locked system)
    (run : (machine kernel).Run trace system) {thread : Nat} {desc : TaskDesc}
    {accel : AccelIndex} {slot : Slot} {field : PayloadField} {rest : List PayloadField}
    {after : Memory} {next : LockedClientPc}
    (pc : locked.clients thread = .fill desc accel slot field rest)
    (taken : fillStep locked.memory desc accel slot field rest = (after, next)) :
    Matched kernel system (.client thread) (locked.moveClient thread after next) := by
  have inv := inv_of_run run
  have filling : (locked.clients thread).filling = some slot := by rw [pc]; rfl
  have holds := (realizes.clients thread).held_of_filling filling
  have stands := realizes.clients thread
  rw [pc] at stands
  obtain ⟨view, partly⟩ := stands
  have exclusive := realizes.exclusive.stay
    (show none = locked.inside (.client thread) by rw [Locked.inside, pc]; rfl)
  cases rest with
  | nil =>
      cases taken
      have answered : clientStep kernel system.dev system.jiffies (.advance true)
          (system.clients thread) =
            some (.store slot (.fill desc), .submit desc accel (.check slot)) := by
        rw [view]
        rfl
      refine .client answered (realizes.moveClient
        (realizes.confined_own inv holds (field.store desc) (fillTask desc)) (.inr filling)
        exclusive rfl (fun _ isMine => by cases isMine) ?_)
      rintro _ ⟨⟩ -
      rw [Memory.modifyTask, Dev.modifyTask_same, Action.apply, Dev.modifyTask_same]
      exact partly
  | cons second rest =>
      cases taken
      have confined := realizes.confined_own inv holds (field.store desc) fun task => task
      have same : (system.dev.modifyTask slot fun task => task) = system.dev := by
        simp [Dev.modifyTask]
      rw [same] at confined
      refine .stay (realizes.stayClient confined (.inr filling) exclusive ⟨view, ?_⟩
        (fun _ isMine => by cases isMine) ?_)
      · rw [Memory.modifyTask, Dev.modifyTask_same]
        exact partly
      · rintro _ ⟨⟩ notStill
        exact absurd rfl notStill

end Fill

/-! ## Steps outside the sections -/

/-- The actions of the steps that both machines take alike. -/
def Action.Plain : Action → Prop
  | .tau => True
  | .store _ write => ∀ desc, write ≠ .fill desc
  | .touch _ _ => True
  | _ => False

theorem Store.orthogonal {write : Store} (notFill : ∀ desc, write ≠ .fill desc) :
    Orthogonal write.apply := by
  intro desc field task
  cases write with
  | fill other => exact absurd rfl (notFill other)
  | _ => cases field <;> rfl

theorem Touch.apply_bare (update : Touch) (unit : Accel) :
    update.apply (bareAccel unit) = bareAccel (update.apply unit) := by
  cases update <;> rfl

theorem Touch.fixed (update : Touch) (unit : Accel) : Fixed unit (update.apply unit) := by
  cases update <;> exact ⟨rfl, rfl, rfl, rfl, rfl, rfl, rfl⟩

section Plain

variable {kernel : Kernel} {locked : Locked} {system : System} {trace : List Event}

theorem Action.Plain.not_listMove {action : Action} (plain : action.Plain) :
    ¬ action.IsListMove := by
  cases action <;> first | exact id | exact plain.elim

theorem Action.apply_nextTaskId_of_plain {action : Action} (plain : action.Plain) (dev : Dev) :
    (action.apply dev).nextTaskId = dev.nextTaskId :=
  (Action.keeps_lists plain.not_listMove dev).2.1

/-- A plain action is no concern of other threads. -/
theorem Realizes.confined_plain (realizes : Realizes locked system) {actor : Actor}
    {action : Action} (plain : action.Plain)
    (madeBy : ∀ accel update, action = .touch accel update → update.MadeBy accel actor) :
    Confined actor none none locked.memory
      { locked.memory with dev := action.apply locked.memory.dev } system
      (action.apply system.dev) where
  held := fun _ isMine => by cases isMine
  untouched := by
    intro lock _
    refine ⟨fun node _ => SameAt.refl node _, ?_⟩
    obtain ⟨free, issued, lists⟩ := Action.keeps_lists plain.not_listMove system.dev
    cases lock with
    | task => exact ⟨free, issued, Action.apply_nextTaskId_of_plain plain locked.memory.dev⟩
    | accel index => exact lists index
  owner := fun _ _ => rfl
  apart := fun _ _ _ isOwn => by cases isOwn
  tasks := by
    intro slot _
    simp only [Action.apply_tasks]
    by_cases about : action.slot? = some slot
    · cases action with
      | store target write =>
          exact ⟨write.apply, Store.orthogonal plain, by simp [about, Action.onTask],
            by simp [about, Action.onTask]⟩
      | tau => cases about
      | touch accel update => cases about
      | _ => exact plain.elim
    · exact ⟨fun task => task, Orthogonal.id, by simp [about], by simp [about]⟩
  fixed := by
    intro accel
    simp only [Action.apply_accelerators]
    cases action with
    | touch index update =>
        simp only [Action.onAccel]
        split
        · exact update.fixed _
        · exact Fixed.refl _
    | tau => exact Fixed.refl _
    | store slot write => exact Fixed.refl _
    | _ => exact plain.elim
  load := by
    intro accel different
    rw [Action.apply_loadPercent, if_neg, if_neg]
    · intro lowers
      exact different (madeBy accel .lowerLoad lowers)
    · intro raises
      exact different (madeBy accel .raiseLoad raises)
  accelerators := by
    intro accel
    simp only [Action.apply_accelerators, realizes.accelerators accel]
    cases action with
    | touch index update =>
        simp only [Action.onAccel]
        split
        · exact update.apply_bare _
        · rfl
    | tau => rfl
    | store slot write => rfl
    | _ => exact plain.elim

/-- What a lookup loads of a task. -/
structure SamePublic (task other : Task) : Prop where
  id : task.id = other.id
  state : task.state = other.state
  submitJiffies : task.submitJiffies = other.submitJiffies
  completeJiffies : task.completeJiffies = other.completeJiffies
  errorCode : task.errorCode = other.errorCode

theorem SamePublic.store {task other : Task} {desc : TaskDesc} {field : PayloadField}
    (same : SamePublic (field.store desc task) other) : SamePublic task other := by
  obtain ⟨id, state, submit, complete, error⟩ := same
  cases field <;> exact ⟨id, state, submit, complete, error⟩

theorem SamePublic.of_foldl {task other : Task} {desc : TaskDesc} {fields : List PayloadField}
    (same : SamePublic (fields.foldl (fun image field => field.store desc image) task) other) :
    SamePublic task other := by
  induction fields generalizing task with
  | nil => exact same
  | cons field rest inductionHypothesis => exact (inductionHypothesis same).store

/-- Lookups find in memory what they should, also in a task that is being filled. -/
theorem Realizes.samePublic (realizes : Realizes locked system) (slot : Slot) :
    SamePublic (locked.memory.dev.tasks slot) (system.dev.tasks slot) := by
  by_cases filling : ∃ thread, (locked.clients thread).filling = some slot
  · obtain ⟨thread, isFilling⟩ := filling
    have stands := realizes.clients thread
    cases pc : locked.clients thread with
    | fill desc accel target field rest =>
        rw [pc] at stands isFilling
        cases isFilling
        have whole : SamePublic ((field :: rest).foldl (fun image next => next.store desc image)
            (locked.memory.dev.tasks slot)) (system.dev.tasks slot) := by
          rw [stands.2]
          exact ⟨rfl, rfl, rfl, rfl, rfl⟩
        exact whole.of_foldl
    | _ =>
        rw [pc] at isFilling
        cases isFilling
  · rw [realizes.tasks slot fun thread isFilling => filling ⟨thread, isFilling⟩]
    exact ⟨rfl, rfl, rfl, rfl, rfl⟩

/-- The places from which a client takes the same step in both machines. -/
def ClientPc.Ordinary : ClientPc → Prop
  | .submit _ _ .alloc | .submit _ _ (.fill _) | .submit _ _ (.enqueue _)
  | .submit _ _ (.rollback _ _) | .accelInfo _ _ => False
  | _ => True

theorem outsideStep_ordinary {memory : Memory} {now : UInt64} {thread : Nat}
    {input : ClientInput} {pc : ClientPc} (ordinary : pc.Ordinary) :
    outsideStep kernel memory now thread input pc =
      (clientStep kernel memory.dev now input pc).map fun (action, next) =>
        ({ memory with dev := action.apply memory.dev }, .outside next) := by
  cases pc with
  | submit desc accel phase => cases phase <;> first | rfl | exact ordinary.elim
  | accelInfo info accel => exact ordinary.elim
  | _ => rfl

/-- An ordinary step depends on what lookups load, and on the task it checks. -/
theorem clientStep_congr {dev other : Dev} {now : UInt64} {input : ClientInput} {pc : ClientPc}
    (ordinary : pc.Ordinary) (same : ∀ slot, SamePublic (dev.tasks slot) (other.tasks slot))
    (checked : ∀ desc accel slot, pc = .submit desc accel (.check slot) →
      dev.tasks slot = other.tasks slot) :
    clientStep kernel dev now input pc = clientStep kernel other now input pc := by
  cases input with
  | call call copied => cases pc <;> rfl
  | advance choice =>
      cases pc with
      | submit desc accel phase =>
          cases phase with
          | check slot => simp only [clientStep, submitStep, checked desc accel slot rfl]
          | readId slot => simp only [clientStep, submitStep, (same slot).id]
          | alloc => exact ordinary.elim
          | _ => rfl
      | query taskId phase =>
          cases phase <;> simp only [clientStep, queryStep, (same _).id, (same _).state,
            (same _).submitJiffies, (same _).completeJiffies, (same _).errorCode]
      | cancel taskId phase =>
          cases phase <;> simp only [clientStep, cancelStep, (same _).id, (same _).state]
      | accelInfo info accel => exact ordinary.elim
      | _ => rfl

/-- An ordinary step performs a plain action. -/
theorem clientStep_plain {dev : Dev} {now : UInt64} {input : ClientInput} {pc next : ClientPc}
    {action : Action} (ordinary : pc.Ordinary)
    (taken : clientStep kernel dev now input pc = some (action, next)) : action.Plain := by
  cases clientTaken_of_step taken with
  | submit choice desc accel phase =>
      cases phase with
      | check slot =>
          simp only [submitStep]
          split <;> trivial
      | copyOut taskId =>
          simp only [submitStep]
          split <;> trivial
      | writePending slot => exact fun desc isFill => by cases isFill
      | writeSubmitJiffies slot stamp => exact fun desc isFill => by cases isFill
      | wakeUp slot => trivial
      | readJiffies slot => trivial
      | readId slot => trivial
      | _ => exact ordinary.elim
  | cancel choice taskId phase =>
      cases phase with
      | scan index =>
          simp only [cancelStep]
          split
          · split <;> trivial
          · trivial
      | checkState slot =>
          simp only [cancelStep]
          split <;> trivial
      | _ => exact fun desc isFill => by cases isFill
  | _ => trivial

/-- An ordinary step of a client. -/
theorem Realizes.plain_matched (realizes : Realizes locked system)
    (run : (machine kernel).Run trace system) {thread : Nat} {input : ClientInput}
    {pc next : ClientPc} {action : Action} (stands : locked.clients thread = .outside pc)
    (ordinary : pc.Ordinary)
    (taken : clientStep kernel locked.memory.dev locked.jiffies input pc =
      some (action, next)) :
    Matched kernel system (.client thread) (locked.moveClient thread
      { locked.memory with dev := action.apply locked.memory.dev } (.outside next)) := by
  have inv := inv_of_run run
  have notFilling : (locked.clients thread).filling = none := by rw [stands]; rfl
  have view := realizes.clients thread
  rw [stands] at view
  have sameNow : locked.jiffies = system.jiffies := by
    rw [Locked.jiffies, System.jiffies, realizes.ticks]
  have plain := clientStep_plain ordinary taken
  rw [sameNow, clientStep_congr ordinary realizes.samePublic, ← show system.clients thread = pc
    from view] at taken
  · have confined := realizes.confined_plain plain fun accel update touches =>
      (stepped_of_step (step_client taken)).madeBy touches
    exact .client taken (realizes.moveClient confined (.inl notFilling)
      (realizes.exclusive.stay (by rw [Locked.inside, stands]; rfl)) rfl
      (fun _ isMine => by cases isMine) fun _ isOwn => by cases isOwn)
  · rintro desc accel slot rfl
    refine realizes.own_task_eq inv ?_ notFilling
    rw [System.held, show system.clients thread = _ from view]
    rfl

end Plain

/-! ## Every step of a client -/

section Client

variable {kernel : Kernel} {locked : Locked} {system : System} {trace : List Event}

theorem ordinary_of_call {dev : Dev} {now : UInt64} {call : Call} {copied : Bool}
    {pc next : ClientPc} {action : Action}
    (taken : clientStep kernel dev now (.call call copied) pc = some (action, next)) :
    pc.Ordinary := by
  cases clientTaken_of_step taken with
  | enter call copied pc resting =>
      rcases resting with rfl | ⟨reply, rfl⟩
      · trivial
      · trivial

/-- A client that is in no section enters one, begins to fill its task, or takes an ordinary
step. -/
theorem Realizes.outside_matched (realizes : Realizes locked system)
    (run : (machine kernel).Run trace system) {thread : Nat} {input : ClientInput}
    {pc : ClientPc} {after : Memory} {next : LockedClientPc}
    (stands : locked.clients thread = .outside pc)
    (taken : outsideStep kernel locked.memory locked.jiffies thread input pc =
      some (after, next)) :
    Matched kernel system (.client thread) (locked.moveClient thread after next) := by
  have inv := inv_of_run run
  have outside : (locked.clients thread).lock? = none := by rw [stands]; rfl
  have notFilling : (locked.clients thread).filling = none := by rw [stands]; rfl
  have view := realizes.clients thread
  rw [stands] at view
  by_cases ordinary : pc.Ordinary
  · rw [outsideStep_ordinary ordinary, Option.map_eq_some_iff] at taken
    obtain ⟨⟨action, counterpart⟩, moved, same⟩ := taken
    cases same
    exact realizes.plain_matched run stands ordinary moved
  · cases pc with
    | accelInfo info accel =>
        simp only [outsideStep, Option.map_eq_some_iff, Prod.mk.injEq] at taken
        obtain ⟨memory, acquired, rfl, rfl⟩ := taken
        exact .stay (realizes.acquireClient acquired outside notFilling rfl fun rest =>
          ⟨rest, view ▸ .before info [] rfl List.not_mem_nil rfl⟩)
    | submit desc accel phase =>
        cases phase with
        | alloc =>
            simp only [outsideStep, Option.map_eq_some_iff, Prod.mk.injEq] at taken
            obtain ⟨memory, acquired, rfl, rfl⟩ := taken
            exact .stay (realizes.acquireClient acquired outside notFilling rfl fun rest =>
              ⟨view, .testEmpty rest⟩)
        | fill slot =>
            cases taken
            exact realizes.fill_begins run stands
        | enqueue slot =>
            simp only [outsideStep, Option.map_eq_some_iff, Prod.mk.injEq] at taken
            obtain ⟨memory, acquired, rfl, rfl⟩ := taken
            exact .stay (realizes.acquireClient acquired outside notFilling rfl fun rest =>
              ⟨view, .load rest.queue, rest.active⟩)
        | rollback slot ret =>
            have sound := inv.sound thread
            rw [show system.clients thread = _ from view] at sound
            exact sound.elim
        | _ => exact absurd trivial ordinary
    | _ => exact absurd trivial ordinary

theorem Realizes.client_matched (realizes : Realizes locked system)
    (run : (machine kernel).Run trace system) {thread : Nat} {input : ClientInput}
    {after : Memory} {next : LockedClientPc}
    (taken : lockedClientStep kernel locked.memory locked.jiffies thread input
      (locked.clients thread) = some (after, next)) :
    Matched kernel system (.client thread) (locked.moveClient thread after next) := by
  cases input with
  | call call copied =>
      cases stands : locked.clients thread with
      | outside pc =>
          rw [stands] at taken
          simp only [lockedClientStep, Option.map_eq_some_iff, Prod.exists, Prod.mk.injEq] at taken
          obtain ⟨action, counterpart, moved, rfl, rfl⟩ := taken
          exact realizes.plain_matched run stands (ordinary_of_call moved) moved
      | _ =>
          rw [stands] at taken
          cases taken
  | advance choice =>
      cases stands : locked.clients thread with
      | outside pc =>
          rw [stands] at taken
          exact realizes.outside_matched run stands taken
      | alloc desc accel phase =>
          rw [stands] at taken
          exact realizes.alloc_matched run stands (Option.some.inj taken)
      | fill desc accel slot field rest =>
          rw [stands] at taken
          exact realizes.fill_matched run stands (Option.some.inj taken)
      | enqueue desc accel slot phase =>
          rw [stands] at taken
          exact realizes.enqueue_matched run stands (Option.some.inj taken)
      | info info accel rest =>
          rw [stands] at taken
          exact realizes.info_matched run stands (Option.some.inj taken)
      | free desc accel slot ret phase =>
          -- The check of `task_submit` never fails, so its roll-back is never entered.
          have view := realizes.clients thread
          have sound := (inv_of_run run).sound thread
          rw [stands] at view
          rw [show system.clients thread = _ from view] at sound
          exact sound.elim
      | crashed =>
          rw [stands] at taken
          cases taken

end Client

end CortexForge.Concurrent
