import CortexForge.Driver.Glue

/-!
Contract: the driver never leaks, never releases twice, and never releases what another resource
needs.

In every run of the module, through every failure of a probe, what is acquired and released
follows the discipline of `Foundation.Resource`, and what is held is known from the state: the
class, the driver, what the devices hold whose probe is under way, and everything of the device
that is bound, of which there is at most one. After the module is unloaded nothing is held.
Needed means needed by another resource of the driver: what the discipline does not cover is an
open file, which keeps a pointer to the structure of its device (`Driver.Files`).

Owns: the discipline of one device, and of a run.
-/

namespace CortexForge.Glue

open CortexForge.Foundation

/-! ## The discipline of one device -/

section Discipline

variable {device : Nat} {holding : Set Resource}

theorem buildable_managed (device : Nat) : Use.Buildable Resource.Needs (managed device) where
  nodup := by simp [managed]
  order := by simp [managed, Resource.Needs, Resource.needs]
  irreflexive := by simp [managed, Resource.Needs, Resource.needs]

theorem buildable_chardev (device : Nat) : Use.Buildable Resource.Needs (chardev device) where
  nodup := by simp [chardev]
  order := by simp [chardev, Resource.Needs, Resource.needs]
  irreflexive := by simp [chardev, Resource.Needs, Resource.needs]

theorem mem_workerThreads {count : Nat} {resource : Resource} :
    resource ∈ workerThreads device count ↔ ∃ index < count, .worker device index = resource := by
  simp [workerThreads]

/-- No worker needs another, so that any order will do. -/
theorem buildable_workers {resources : List Resource} (nodup : resources.Nodup)
    (workers : ∀ resource ∈ resources, ∃ index, .worker device index = resource) :
    Use.Buildable Resource.Needs resources := by
  have apart : ∀ first ∈ resources, ∀ second ∈ resources, ¬ Resource.Needs first second := by
    intro first isFirst second isSecond
    obtain ⟨index, rfl⟩ := workers first isFirst
    obtain ⟨other, rfl⟩ := workers second isSecond
    simp [Resource.Needs, Resource.needs]
  refine ⟨nodup, ?_, fun resource member => apart resource member resource member⟩
  exact List.pairwise_of_forall_mem_list fun first isFirst second isSecond =>
    apart first isFirst second isSecond

theorem buildable_workerThreads (device count : Nat) :
    Use.Buildable Resource.Needs (workerThreads device count) ∧
      Use.Buildable Resource.Needs (workerThreads device count).reverse := by
  have nodup : (workerThreads device count).Nodup :=
    List.nodup_range.map fun _ _ same => by simpa using same
  have isWorker (resource : Resource) (member : resource ∈ workerThreads device count) :
      ∃ index, .worker device index = resource := by
    obtain ⟨index, -, same⟩ := mem_workerThreads.mp member
    exact ⟨index, same⟩
  exact ⟨buildable_workers nodup isWorker,
    buildable_workers (List.nodup_reverse.mpr nodup) fun resource member =>
      isWorker resource (List.mem_reverse.mp member)⟩

/-- A device of which nothing is held yet can be probed. -/
structure Ready (device : Nat) (holding : Set Resource) : Prop where
  closed : Use.Closed Resource.Needs holding
  driver : .platformDriver ∈ holding
  fresh : ∀ resource ∈ holding, resource.device? ≠ some device

theorem Ready.deviceClass (ready : Ready device holding) : .deviceClass ∈ holding :=
  ready.closed _ ready.driver _ (by simp [Resource.Needs, Resource.needs])

theorem Ready.not_mem (ready : Ready device holding) {resource : Resource}
    (own : resource.device? = some device) : resource ∉ holding :=
  fun member => ready.fresh resource member own

theorem device_of_managed {resource : Resource} (member : resource ∈ managed device) :
    resource.device? = some device := by
  simp only [managed, List.mem_cons, List.not_mem_nil, or_false] at member
  rcases member with rfl | rfl | rfl | rfl <;> rfl

theorem device_of_chardev {resource : Resource} (member : resource ∈ chardev device) :
    resource.device? = some device := by
  simp only [chardev, List.mem_cons, List.not_mem_nil, or_false] at member
  rcases member with rfl | rfl | rfl <;> rfl

theorem memory_mem_take {acquired : Nat} (some : 0 < acquired) :
    .memory device ∈ (managed device).take acquired := by
  obtain ⟨rest, rfl⟩ : ∃ rest, acquired = rest + 1 := ⟨acquired - 1, by omega⟩
  simp [managed]

/-- The managed resources need the driver and the structure. -/
theorem managed_supplied (driver : .platformDriver ∈ holding) :
    ∀ resource ∈ managed device, ∀ need, Resource.Needs resource need →
      need ∈ holding ∨ need ∈ managed device := by
  intro resource member need needs
  simp only [managed, List.mem_cons, List.not_mem_nil, or_false] at member
  rcases member with rfl | rfl | rfl | rfl
  · simp only [Resource.Needs, Resource.needs, List.mem_singleton] at needs
    exact Or.inl (needs ▸ driver)
  all_goals
    simp only [Resource.Needs, Resource.needs, List.mem_singleton] at needs
    exact Or.inr (needs ▸ List.mem_cons_self)

/-- The character device needs the class, the structure, and its own earlier steps. -/
theorem chardev_supplied (deviceClass : .deviceClass ∈ holding)
    (memory : .memory device ∈ holding) :
    ∀ resource ∈ chardev device, ∀ need, Resource.Needs resource need →
      need ∈ holding ∨ need ∈ chardev device := by
  intro resource member need needs
  simp only [chardev, List.mem_cons, List.not_mem_nil, or_false] at member ⊢
  rcases member with rfl | rfl | rfl <;>
    simp only [Resource.Needs, Resource.needs, List.mem_cons, List.not_mem_nil,
      or_false] at needs
  · exact Or.inl (needs ▸ memory)
  · rcases needs with rfl | rfl
    · exact Or.inl memory
    · exact Or.inr (Or.inl rfl)
  · rcases needs with rfl | rfl
    · exact Or.inl deviceClass
    · exact Or.inr (Or.inr (Or.inl rfl))

theorem workers_supplied (memory : .memory device ∈ holding) (count : Nat) :
    ∀ resource ∈ workerThreads device count, ∀ need, Resource.Needs resource need →
      need ∈ holding ∨ need ∈ workerThreads device count := by
  intro resource member need needs
  obtain ⟨index, -, rfl⟩ := mem_workerThreads.mp member
  simp only [Resource.Needs, Resource.needs, List.mem_singleton] at needs
  exact Or.inl (needs ▸ memory)

/-- What is held keeps what it needs when resources of a device are added in order. -/
theorem closed_union {resources : List Resource} (closed : Use.Closed Resource.Needs holding)
    (buildable : Use.Buildable Resource.Needs resources)
    (fresh : ∀ resource ∈ resources, resource ∉ holding)
    (supplied : ∀ resource ∈ resources, ∀ need, Resource.Needs resource need →
      need ∈ holding ∨ need ∈ resources) :
    Use.Closed Resource.Needs (holding ∪ {resource | resource ∈ resources}) := by
  rw [← Use.held_acquires]
  exact (Use.follows_acquires buildable fresh supplied).closed closed

/-- Steps of the registration, undone in the opposite order. -/
theorem balanced_chardev (closed : Use.Closed Resource.Needs holding)
    (deviceClass : .deviceClass ∈ holding) (memory : .memory device ∈ holding)
    (fresh : ∀ resource ∈ chardev device, resource ∉ holding) (registered : Nat) :
    Use.Balanced Resource.Needs holding (Use.acquires ((chardev device).take registered) ++
      Use.releases ((chardev device).take registered).reverse) := by
  have buildable := (buildable_chardev device).sublist (List.take_sublist registered _)
  have needed := (buildable_chardev device).supplied_take (chardev_supplied deviceClass memory)
    registered
  have bracket := Use.balanced_bracket closed buildable (by rwa [List.reverse_reverse])
    (fun resource => List.mem_reverse)
    (fun resource member => fresh resource (List.mem_of_mem_take member)) needed
    (show Use.Balanced Resource.Needs _ [] from ⟨trivial, rfl⟩)
  rwa [List.append_nil] at bracket

section Threads

variable (closed : Use.Closed Resource.Needs holding) (memory : .memory device ∈ holding)
  (fresh : ∀ index, .worker device index ∉ holding) (started : Nat)
include closed memory fresh

/-- Workers, started and stopped in the same order. -/
theorem balanced_workers {log : List (Use Resource)}
    (inner : Use.Balanced Resource.Needs
      (holding ∪ {resource | resource ∈ workerThreads device started}) log) :
    Use.Balanced Resource.Needs holding (Use.acquires (workerThreads device started) ++ log ++
      Use.releases (workerThreads device started)) := by
  obtain ⟨buildable, opposite⟩ := buildable_workerThreads device started
  refine Use.balanced_bracket closed buildable opposite (fun _ => Iff.rfl) ?_
    (workers_supplied memory started) inner
  intro resource member
  obtain ⟨index, -, rfl⟩ := mem_workerThreads.mp member
  exact fresh index

/-- What is held once the workers are running, too, keeps what it needs. -/
theorem closed_with_workers :
    Use.Closed Resource.Needs
      (holding ∪ {resource | resource ∈ workerThreads device started}) := by
  refine closed_union closed (buildable_workerThreads device started).1 ?_
    (workers_supplied memory started)
  intro resource member
  obtain ⟨index, -, rfl⟩ := mem_workerThreads.mp member
  exact fresh index

end Threads

/-- A failing probe, with the release of its managed resources, gives back all it took. -/
theorem balanced_failureLog (ready : Ready device holding) {acquired started registered : Nat}
    (supplied : 0 < acquired ∨ started = 0 ∧ registered = 0) :
    Use.Balanced Resource.Needs holding (failureLog device acquired started registered ++
      Use.releases ((managed device).take acquired).reverse) := by
  have buildable := (buildable_managed device).sublist (List.take_sublist acquired _)
  have fresh : ∀ resource ∈ (managed device).take acquired, resource ∉ holding :=
    fun resource member => ready.not_mem (device_of_managed (List.mem_of_mem_take member))
  have needed := (buildable_managed device).supplied_take (managed_supplied ready.driver) acquired
  refine Use.balanced_bracket ready.closed buildable (by rwa [List.reverse_reverse])
    (fun resource => List.mem_reverse) fresh needed ?_
  rcases supplied with positive | ⟨rfl, rfl⟩
  · have memory : .memory device ∈
        holding ∪ {resource | resource ∈ (managed device).take acquired} :=
      Or.inr (memory_mem_take positive)
    have closed := closed_union ready.closed buildable fresh needed
    have outside {resource : Resource} (own : resource.device? = some device)
        (notManaged : resource ∉ managed device) :
        resource ∉ holding ∪ {resource | resource ∈ (managed device).take acquired} := by
      rintro (held | among)
      · exact ready.not_mem own held
      · exact notManaged (List.mem_of_mem_take among)
    have freshWorker (index : Nat) : .worker device index ∉
        holding ∪ {resource | resource ∈ (managed device).take acquired} :=
      outside rfl (by simp [managed])
    refine balanced_workers closed memory freshWorker started ?_
    refine balanced_chardev (closed_with_workers closed memory freshWorker started)
      (Or.inl (Or.inl ready.deviceClass)) (Or.inl memory) ?_ registered
    rintro resource member (held | among)
    · refine outside (device_of_chardev member) ?_ held
      simp only [chardev, List.mem_cons, List.not_mem_nil, or_false] at member
      rcases member with rfl | rfl | rfl <;> simp [managed]
    · obtain ⟨index, -, rfl⟩ := mem_workerThreads.mp among
      simp [chardev] at member
  · exact ⟨trivial, rfl⟩

/-- The resources of a device, with its workers in any order. -/
theorem buildable_device {workers : List Resource}
    (buildable : Use.Buildable Resource.Needs workers)
    (areWorkers : ∀ resource ∈ workers, ∃ index, .worker device index = resource) :
    Use.Buildable Resource.Needs (managed device ++ workers ++ chardev device) := by
  refine ((buildable_managed device).append buildable ?_).append (buildable_chardev device) ?_
  · intro resource member other isWorker
    obtain ⟨index, rfl⟩ := areWorkers other isWorker
    simp only [managed, List.mem_cons, List.not_mem_nil, or_false] at member
    rcases member with rfl | rfl | rfl | rfl <;> simp [Resource.Needs, Resource.needs]
  · intro resource member other isChardev
    simp only [chardev, List.mem_cons, List.not_mem_nil, or_false] at isChardev
    rcases List.mem_append.mp member with member | isWorker
    · simp only [managed, List.mem_cons, List.not_mem_nil, or_false] at member
      rcases member with rfl | rfl | rfl | rfl <;> rcases isChardev with rfl | rfl | rfl <;>
        simp [Resource.Needs, Resource.needs]
    · obtain ⟨index, rfl⟩ := areWorkers resource isWorker
      rcases isChardev with rfl | rfl | rfl <;> simp [Resource.Needs, Resource.needs]

theorem isWorker_of_mem {count : Nat} {resource : Resource}
    (member : resource ∈ workerThreads device count) :
    ∃ index, .worker device index = resource := by
  obtain ⟨index, -, same⟩ := mem_workerThreads.mp member
  exact ⟨index, same⟩

/-- The resources of a device whose probe is under way, with its workers in any order. -/
theorem buildable_live {workers : List Resource}
    (buildable : Use.Buildable Resource.Needs workers)
    (areWorkers : ∀ resource ∈ workers, ∃ index, .worker device index = resource) :
    Use.Buildable Resource.Needs
      (managed device ++ workers ++ [.region device, .cdev device]) := by
  refine (buildable_device buildable areWorkers).sublist (List.Sublist.append_left ?_ _)
  exact List.take_sublist 2 (chardev device)

theorem device_of_live {num : Nat} {resource : Resource}
    (member : resource ∈ liveResources num device) : resource.device? = some device := by
  rcases List.mem_append.mp member with member | member
  · rcases List.mem_append.mp member with member | member
    · exact device_of_managed member
    · obtain ⟨index, rfl⟩ := isWorker_of_mem member
      rfl
  · exact device_of_chardev (List.mem_of_mem_take (i := 2) member)

theorem node_not_mem_live (num device : Nat) : .node device ∉ liveResources num device := by
  simp [liveResources, managed, workerThreads]

theorem mem_deviceResources {num : Nat} {resource : Resource} :
    resource ∈ deviceResources num device ↔
      resource ∈ liveResources num device ∨ resource = .node device := by
  simp [deviceResources]

theorem liveResources_supplied (driver : .platformDriver ∈ holding)
    (deviceClass : .deviceClass ∈ holding) (num : Nat) :
    ∀ resource ∈ liveResources num device, ∀ need, Resource.Needs resource need →
      need ∈ holding ∨ need ∈ liveResources num device := by
  -- The three parts need what is held, or the structure, or their own earlier steps.
  let withMemory : Set Resource := insert (.memory device) holding
  have memory : .memory device ∈ withMemory := Or.inl rfl
  have inList : .memory device ∈ liveResources num device := by simp [liveResources, managed]
  have widen {need : Resource} (member : need ∈ withMemory) :
      need ∈ holding ∨ need ∈ liveResources num device := by
    rcases member with rfl | held
    · exact Or.inr inList
    · exact Or.inl held
  intro resource member need needs
  rcases List.mem_append.mp member with member | member
  · rcases List.mem_append.mp member with member | member
    · exact (managed_supplied driver resource member need needs).imp_right fun among =>
        List.mem_append_left _ (List.mem_append_left _ among)
    · rcases workers_supplied memory num resource member need needs with held | among
      · exact widen held
      · exact Or.inr (List.mem_append_left _ (List.mem_append_right _ among))
  · rcases (buildable_chardev device).supplied_take
      (chardev_supplied (Or.inr deviceClass) memory) 2 resource member need needs with held | among
    · exact widen held
    · exact Or.inr (List.mem_append_right _ among)

/-- A probe that comes to `cdev_add` follows the discipline. -/
theorem follows_live (ready : Ready device holding) (num : Nat) :
    Use.Follows Resource.Needs holding (Use.acquires (liveResources num device)) :=
  Use.follows_acquires
    (buildable_live (buildable_workerThreads device num).1 fun _ => isWorker_of_mem)
    (fun _ member => ready.not_mem (device_of_live member))
    (liveResources_supplied ready.driver ready.deviceClass num)

/-- The order in which the resources of a device are released, from the `cdev` on. -/
def removalOrder (num device : Nat) : List Resource :=
  [.cdev device, .region device] ++ workerThreads device num ++ (managed device).reverse

theorem mem_removalOrder {num : Nat} {resource : Resource} :
    resource ∈ removalOrder num device ↔ resource ∈ liveResources num device := by
  simp only [removalOrder, liveResources, List.mem_append, List.mem_reverse, List.mem_cons,
    List.not_mem_nil, or_false]
  tauto

/-- Only what belongs to a device needs anything that belongs to it. -/
theorem device_of_user {user resource : Resource} (needs : Resource.Needs user resource)
    (own : resource.device? = some device) : user.device? = some device := by
  cases user with
  | deviceClass => exact absurd needs List.not_mem_nil
  | platformDriver =>
      obtain rfl := List.mem_singleton.mp needs
      cases own
  | memory other =>
      obtain rfl := List.mem_singleton.mp needs
      cases own
  | mmio other | clocks other | reset other | worker other index | region other =>
      obtain rfl := List.mem_singleton.mp needs
      exact own
  | cdev other =>
      rcases List.mem_cons.mp needs with rfl | member
      · exact own
      · obtain rfl := List.mem_singleton.mp member
        exact own
  | node other =>
      rcases List.mem_cons.mp needs with rfl | member
      · cases own
      · obtain rfl := List.mem_singleton.mp member
        exact own

/-- Nothing needs a device node. -/
theorem not_needs_node {user : Resource} : ¬ Resource.Needs user (.node device) := by
  cases user <;> simp [Resource.Needs, Resource.needs]

/-- Taking back a device without a node follows the discipline, whatever else is held. -/
theorem follows_removal {num : Nat}
    (exact : ∀ resource, resource.device? = some device →
      (resource ∈ holding ↔ resource ∈ liveResources num device)) :
    Use.Follows Resource.Needs holding (Use.releases (removalOrder num device)) := by
  have reversed : (removalOrder num device).reverse =
      managed device ++ (workerThreads device num).reverse ++ [.region device, .cdev device] := by
    simp [removalOrder]
  refine Use.follows_releases ?_ (fun resource member => ?_)
    fun resource member user held needs => ?_
  · rw [reversed]
    exact buildable_live (buildable_workerThreads device num).2 fun resource member =>
      isWorker_of_mem (List.mem_reverse.mp member)
  · rw [mem_removalOrder] at member
    exact (exact resource (device_of_live member)).mpr member
  · rw [mem_removalOrder] at member ⊢
    have own := device_of_user needs (device_of_live member)
    exact (exact user own).mp held

/-- Taking back a bound device does: its node goes first. -/
theorem follows_detach {num : Nat}
    (exact : ∀ resource, resource.device? = some device →
      (resource ∈ holding ↔ resource ∈ deviceResources num device)) :
    Use.Follows Resource.Needs holding
      (.release (.node device) :: Use.releases (removalOrder num device)) := by
  refine ⟨(exact _ rfl).mpr (mem_deviceResources.mpr (Or.inr rfl)),
    fun _ _ => not_needs_node, follows_removal fun resource own => ?_⟩
  have notNode : resource ∈ liveResources num device → resource ≠ .node device := by
    rintro member rfl
    exact node_not_mem_live num device member
  simp only [Set.mem_sdiff, Set.mem_singleton_iff, exact resource own, mem_deviceResources]
  tauto

end Discipline

/-! ## The discipline of a run -/

/-- What a device holds. -/
def Attached.resources (num : Nat) (attached : Attached) : List Resource :=
  match attached.node with
  | none => liveResources num attached.device
  | some _ => deviceResources num attached.device

/-- What a state of the module holds. -/
def State.holding (num : Nat) (state : State) : Set Resource :=
  {resource | state.loaded = true ∧ (resource = .deviceClass ∨ resource = .platformDriver ∨
    ∃ attached ∈ state.devices, resource ∈ attached.resources num)}

/-- A device as its probe leaves it, before `device_create` and after it. -/
inductive Sound (num : Nat) (identity : Nat → UInt32 × String) : Attached → Prop
  | underWay (device serial : Nat) (answers : Answers) (probing : Probing)
      (reached : probeToCdev num identity device answers = .ok probing) :
      Sound num identity ⟨device, serial, none, probing⟩
  | bound (device serial : Nat) (taken : List String) (answers : Answers) (probing : Probing)
      (succeeded : cortexForgeProbe num identity device taken answers = (0, probing)) :
      Sound num identity ⟨device, serial, some nodeName, probing⟩

/-- The uses of a run. -/
def ledger (trace : List Event) : List (Use Resource) := trace.flatMap Event.uses

/-- The devices there can be at one time. -/
structure Orderly (num : Nat) (identity : Nat → UInt32 × String) (devices : List Attached) :
    Prop where
  distinct : (devices.map Attached.device).Nodup
  single : (devices.filter Attached.bound).length ≤ 1
  sound : ∀ attached ∈ devices, Sound num identity attached

/-- The discipline of a run, with what it has led to. -/
structure Disciplined (num : Nat) (identity : Nat → UInt32 × String) (trace : List Event)
    (state : State) : Prop where
  follows : Use.Follows Resource.Needs ∅ (ledger trace)
  held : Use.held ∅ (ledger trace) = state.holding num
  orderly : Orderly num identity state.devices
  unloaded : state.loaded = false → state.devices = []

section Sound

variable {num : Nat} {identity : Nat → UInt32 × String} {device : Nat}

theorem probing_of_ok {answers : Answers} {probing : Probing}
    (reached : probeToCdev num identity device answers = .ok probing) :
    probing = Probing.live num identity device := by
  have exits : LiveExit num identity device (probeToCdev num identity device answers) :=
    probeToCdev_exit
  rw [reached] at exits
  cases exits
  rfl

/-- A probe that succeeds has come to `cdev_add`, and leaves the managed resources and running
workers. -/
theorem probing_of_succeeded {taken : List String} {answers : Answers} {probing : Probing}
    (succeeded : cortexForgeProbe num identity device taken answers = (0, probing)) :
    probing.devres = managed device ∧ probing.workers = (Workers.init identity).startUpTo num := by
  unfold cortexForgeProbe at succeeded
  have exits : LiveExit num identity device (probeToCdev num identity device answers) :=
    probeToCdev_exit
  generalize probeToCdev num identity device answers = result at succeeded exits
  cases exits with
  | failed ret probing acquired started registered negative =>
      exact absurd (congrArg Prod.fst succeeded) negative
  | live =>
      have ends : NodeExit num identity device taken
          (createNode num device taken answers.deviceCreate (Probing.live num identity device)) :=
        createNode_exit answers.deviceCreate
      rw [show createNode num device taken answers.deviceCreate
        (Probing.live num identity device) = (0, probing) from succeeded] at ends
      cases ends with
      | failed ret probing negative => exact absurd rfl negative
      | succeeded free => exact ⟨rfl, rfl⟩

theorem Sound.devres {attached : Attached} (sound : Sound num identity attached) :
    attached.probing.devres = managed attached.device := by
  cases sound with
  | underWay device serial answers probing reached => rw [probing_of_ok reached]; rfl
  | bound device serial taken answers probing succeeded =>
      exact (probing_of_succeeded succeeded).1

theorem Sound.workers {attached : Attached} (sound : Sound num identity attached) :
    attached.probing.workers = (Workers.init identity).startUpTo num := by
  cases sound with
  | underWay device serial answers probing reached => rw [probing_of_ok reached]; rfl
  | bound device serial taken answers probing succeeded =>
      exact (probing_of_succeeded succeeded).2

theorem Sound.node {attached : Attached} (sound : Sound num identity attached)
    (bound : attached.bound = true) : attached.node = some nodeName := by
  cases sound with
  | underWay => cases bound
  | bound => rfl

theorem detach_eq {attached : Attached} (sound : Sound num identity attached) :
    detach num attached =
      .release (.node attached.device) :: Use.releases (removalOrder num attached.device) := by
  have running : ∀ index < num,
      (attached.probing.workers.accelerators index).workerThread = .thread := by
    rw [sound.workers]
    exact fun index below => (Workers.init identity).startUpTo_thread below
  have stopped := stop_uses attached.device attached.probing.workers running
  simp only [detach, cortexForgeRemove, stopped, sound.devres]
  simp [removalOrder, Use.releases]

end Sound

/-! ### The devices -/

theorem Orderly.nil (num : Nat) (identity : Nat → UInt32 × String) : Orderly num identity [] where
  distinct := List.nodup_nil
  single := Nat.zero_le 1
  sound := fun _ absent => absurd absent List.not_mem_nil

section Orderly

variable {num : Nat} {identity : Nat → UInt32 × String} {devices fewer : List Attached}
  {attached : Attached}

theorem Orderly.sublist (orderly : Orderly num identity devices)
    (sublist : fewer.Sublist devices) : Orderly num identity fewer where
  distinct := orderly.distinct.sublist (sublist.map _)
  single := (sublist.filter _).length_le.trans orderly.single
  sound := fun attached member => orderly.sound attached (sublist.subset member)

/-- A device more, which is bound only if no other is. -/
theorem Orderly.snoc (orderly : Orderly num identity devices)
    (fresh : ∀ other ∈ devices, other.device ≠ attached.device)
    (alone : attached.bound = true → devices.filter Attached.bound = [])
    (sound : Sound num identity attached) : Orderly num identity (devices ++ [attached]) where
  distinct := by
    rw [List.map_append, List.nodup_append]
    refine ⟨orderly.distinct, List.nodup_singleton _, ?_⟩
    intro _ isOld _ isNew same
    obtain ⟨other, member, rfl⟩ := List.mem_map.mp isOld
    exact fresh other member (same.trans (List.mem_singleton.mp isNew))
  single := by
    rw [List.filter_append]
    cases bound : attached.bound with
    | true =>
        rw [alone bound, List.nil_append]
        exact List.length_filter_le _ [attached]
    | false => simpa [bound] using orderly.single
  sound := List.forall_mem_append.mpr ⟨orderly.sound, List.forall_mem_singleton.mpr sound⟩

end Orderly

section Runs

variable {num : Nat} {identity : Nat → UInt32 × String} {trace : List Event}
  {state next : State} {event : Event} {attached : Attached} {device : Nat}

theorem State.device?_mem (found : state.device? device = some attached) :
    attached ∈ state.devices ∧ attached.device = device :=
  ⟨List.mem_of_find?_eq_some found, by simpa using List.find?_some found⟩

theorem State.device?_none (absent : state.device? device = none) :
    ∀ other ∈ state.devices, other.device ≠ device := by
  intro other member
  simpa using List.find?_eq_none.mp absent other member

theorem State.mem_without {other : Attached} :
    other ∈ state.without device ↔ other ∈ state.devices ∧ other.device ≠ device := by
  simp [State.without]

theorem Attached.device_of_mem {resource : Resource}
    (member : resource ∈ attached.resources num) :
    resource.device? = some attached.device := by
  unfold Attached.resources at member
  split at member
  · exact device_of_live member
  · rcases mem_deviceResources.mp member with member | rfl
    · exact device_of_live member
    · rfl

theorem mem_holding {resource : Resource} {own : Nat} (isOwn : resource.device? = some own) :
    resource ∈ state.holding num ↔
      state.loaded = true ∧ ∃ other ∈ state.devices, resource ∈ other.resources num := by
  have notGlobal : resource ≠ .deviceClass ∧ resource ≠ .platformDriver := by
    constructor <;> rintro rfl <;> cases isOwn
  simp [State.holding, notGlobal]

theorem ledger_snoc (trace : List Event) (event : Event) :
    ledger (trace ++ [event]) = ledger trace ++ event.uses := by
  simp [ledger]

/-- What an event adds to the ledger. -/
theorem Disciplined.extend (disciplined : Disciplined num identity trace state)
    (follows : Use.Follows Resource.Needs (state.holding num) event.uses)
    (held : Use.held (state.holding num) event.uses = next.holding num)
    (orderly : Orderly num identity next.devices)
    (unloaded : next.loaded = false → next.devices = []) :
    Disciplined num identity (trace ++ [event]) next where
  follows := by
    rw [ledger_snoc, Use.follows_append, disciplined.held]
    exact ⟨disciplined.follows, follows⟩
  held := by rw [ledger_snoc, Use.held_append, disciplined.held, held]
  orderly := orderly
  unloaded := unloaded

theorem Disciplined.closed (disciplined : Disciplined num identity trace state) :
    Use.Closed Resource.Needs (state.holding num) := by
  rw [← disciplined.held]
  exact disciplined.follows.closed fun _ member => absurd member id

theorem Disciplined.loaded_of_mem (disciplined : Disciplined num identity trace state)
    (member : attached ∈ state.devices) : state.loaded = true := by
  cases loaded : state.loaded with
  | true => rfl
  | false =>
      rw [disciplined.unloaded loaded] at member
      exact absurd member List.not_mem_nil

/-- What is held of a device is what it holds. -/
theorem Disciplined.exact (disciplined : Disciplined num identity trace state)
    (member : attached ∈ state.devices) (resource : Resource)
    (own : resource.device? = some attached.device) :
    resource ∈ state.holding num ↔ resource ∈ attached.resources num := by
  rw [mem_holding own]
  constructor
  · rintro ⟨-, other, isOther, among⟩
    have same : other.device = attached.device :=
      Option.some.inj ((Attached.device_of_mem among).symm.trans own)
    rwa [← List.inj_on_of_nodup_map disciplined.orderly.distinct isOther member same]
  · exact fun among => ⟨disciplined.loaded_of_mem member, attached, member, among⟩

/-- A device less. -/
theorem Disciplined.holding_without (disciplined : Disciplined num identity trace state)
    (member : attached ∈ state.devices) :
    { state with devices := state.without attached.device }.holding num =
      state.holding num \ {resource | resource ∈ attached.resources num} := by
  have apart {other : Attached} (isOther : other ∈ state.devices) {resource : Resource}
      (among : resource ∈ other.resources num) :
      other.device ≠ attached.device ↔ resource ∉ attached.resources num := by
    constructor
    · intro different alsoAmong
      exact different (Option.some.inj ((Attached.device_of_mem among).symm.trans
        (Attached.device_of_mem alsoAmong)))
    · intro notAmong same
      rw [List.inj_on_of_nodup_map disciplined.orderly.distinct isOther member same] at among
      exact notAmong among
  ext resource
  simp only [State.holding, State.mem_without, Set.mem_sdiff, Set.mem_ofPred_eq]
  constructor
  · rintro ⟨loaded, rfl | rfl | ⟨other, ⟨isOther, different⟩, among⟩⟩
    · exact ⟨⟨loaded, Or.inl rfl⟩, fun among => by cases Attached.device_of_mem among⟩
    · exact ⟨⟨loaded, Or.inr (Or.inl rfl)⟩, fun among => by cases Attached.device_of_mem among⟩
    · exact ⟨⟨loaded, Or.inr (Or.inr ⟨other, isOther, among⟩)⟩, (apart isOther among).mp different⟩
  · rintro ⟨⟨loaded, rfl | rfl | ⟨other, isOther, among⟩⟩, notAmong⟩
    · exact ⟨loaded, Or.inl rfl⟩
    · exact ⟨loaded, Or.inr (Or.inl rfl)⟩
    · exact ⟨loaded, Or.inr (Or.inr ⟨other, ⟨isOther, (apart isOther among).mpr notAmong⟩, among⟩)⟩

/-- A device more. -/
theorem holding_snoc (loaded : state.loaded = true) {devices : List Attached} {probes : Nat} :
    { state with devices := devices ++ [attached], probes := probes }.holding num =
      { state with devices := devices }.holding num ∪
        {resource | resource ∈ attached.resources num} := by
  ext resource
  simp only [State.holding, loaded, true_and, List.mem_append, List.mem_singleton,
    Set.mem_union, Set.mem_ofPred_eq]
  constructor
  · rintro (isClass | isDriver | ⟨other, isOther | rfl, among⟩)
    · exact Or.inl (Or.inl isClass)
    · exact Or.inl (Or.inr (Or.inl isDriver))
    · exact Or.inl (Or.inr (Or.inr ⟨other, isOther, among⟩))
    · exact Or.inr among
  · rintro ((isClass | isDriver | ⟨other, isOther, among⟩) | among)
    · exact Or.inl isClass
    · exact Or.inr (Or.inl isDriver)
    · exact Or.inr (Or.inr ⟨other, Or.inl isOther, among⟩)
    · exact Or.inr (Or.inr ⟨attached, Or.inr rfl, among⟩)

/-! ## One step -/

/-- An event that uses nothing, and neither loads nor binds. -/
theorem Disciplined.idle (disciplined : Disciplined num identity trace state)
    (nothing : event.uses = []) (sameLoaded : next.loaded = state.loaded)
    (sameDevices : next.devices = state.devices) :
    Disciplined num identity (trace ++ [event]) next := by
  have sameHolding : next.holding num = state.holding num := by
    simp only [State.holding, sameLoaded, sameDevices]
  refine disciplined.extend ?_ ?_ ?_ ?_
  · rw [nothing]
    trivial
  · rw [nothing, sameHolding]
    rfl
  · rw [sameDevices]
    exact disciplined.orderly
  · rw [sameDevices, sameLoaded]
    exact disciplined.unloaded

theorem holding_of_unloaded (unloaded : state.loaded = false) : state.holding num = ∅ := by
  ext resource
  simp [State.holding, unloaded]

theorem Disciplined.init (disciplined : Disciplined num identity trace state)
    (unloaded : state.loaded = false) (classRegister driverRegister : Int32) :
    Disciplined num identity (trace ++ [.init (cortexForgeInit classRegister driverRegister).1
      (cortexForgeInit classRegister driverRegister).2])
      { state with loaded := (cortexForgeInit classRegister driverRegister).1 == 0 } := by
  have nothing := disciplined.unloaded unloaded
  refine disciplined.extend ?_ ?_ disciplined.orderly fun _ => nothing
  · rw [holding_of_unloaded unloaded]
    simp only [cortexForgeInit, Event.uses]
    split_ifs <;> simp [Use.Follows, Resource.Needs, Resource.needs]
  · rw [holding_of_unloaded unloaded]
    simp only [cortexForgeInit, Event.uses]
    split_ifs with classFailed driverFailed
    · ext resource
      simp [Use.held, State.holding, classFailed]
    · ext resource
      simp [Use.held, State.holding, driverFailed]
    · ext resource
      simp [Use.held, State.holding, nothing, or_comm]

/-- A device of which nothing is kept can be probed. -/
theorem Disciplined.ready (disciplined : Disciplined num identity trace state)
    (loaded : state.loaded = true) (absent : state.device? device = none) :
    Ready device (state.holding num) where
  closed := disciplined.closed
  driver := ⟨loaded, Or.inr (Or.inl rfl)⟩
  fresh := by
    intro resource held own
    obtain ⟨-, other, isOther, among⟩ := (mem_holding own).mp held
    exact State.device?_none absent other isOther
      (Option.some.inj ((Attached.device_of_mem among).symm.trans own))

theorem Disciplined.beginProbe (disciplined : Disciplined num identity trace state)
    (loaded : state.loaded = true) (absent : state.device? device = none) (answers : Answers) :
    Disciplined num identity (trace ++ [(state.beginProbe num identity device answers).1])
      (state.beginProbe num identity device answers).2 := by
  have ready := disciplined.ready loaded absent
  have exits : LiveExit num identity device (probeToCdev num identity device answers) :=
    probeToCdev_exit
  unfold State.beginProbe
  generalize isResult : probeToCdev num identity device answers = result at exits
  cases exits with
  | failed ret probing acquired started registered negative supplied devres log =>
      obtain ⟨follows, held⟩ := balanced_failureLog ready supplied
      simp only [devres, log]
      exact disciplined.extend follows held disciplined.orderly disciplined.unloaded
  | live =>
      refine disciplined.extend (follows_live ready num) ?_ ?_ ?_
      · rw [holding_snoc loaded]
        exact Use.held_acquires _ _
      · exact disciplined.orderly.snoc (State.device?_none absent) (fun bound => by cases bound)
          (.underWay device state.probes answers _ isResult)
      · intro unloaded
        exact absurd loaded (by simp [show state.loaded = false from unloaded])

/-- The uses of `device_create` are what the log has grown by. -/
theorem drop_live (num device : Nat) (log : List (Use Resource)) :
    (Use.acquires (liveResources num device) ++ log).drop
      (Probing.live num identity device).log.length = log := List.drop_left

/-- An event that takes a device away gives back what the device holds. -/
theorem Disciplined.drop (disciplined : Disciplined num identity trace state)
    (member : attached ∈ state.devices)
    (follows : Use.Follows Resource.Needs (state.holding num) event.uses)
    (held : Use.held (state.holding num) event.uses =
      state.holding num \ {resource | resource ∈ attached.resources num}) :
    Disciplined num identity (trace ++ [event])
      { state with devices := state.without attached.device } := by
  refine disciplined.extend follows (held.trans (disciplined.holding_without member).symm)
    (disciplined.orderly.sublist List.filter_sublist) fun unloaded => ?_
  exact absurd (disciplined.loaded_of_mem member)
    (by simp [show state.loaded = false from unloaded])

/-- A probe that fails after `cdev_add`. -/
theorem Disciplined.failProbe (disciplined : Disciplined num identity trace state)
    {device serial : Nat} {probing : Probing}
    (member : ⟨device, serial, none, probing⟩ ∈ state.devices) (ret : Int32) :
    Disciplined num identity
      (trace ++ [.failed serial ret (Use.releases (removalOrder num device))])
      { state with devices := state.without device } := by
  refine disciplined.drop member (follows_removal (disciplined.exact member)) ?_
  simp only [Event.uses, Use.held_releases, mem_removalOrder]
  rfl

/-- The name of a device node is taken by whatever device is bound. -/
theorem Disciplined.alone (disciplined : Disciplined num identity trace state)
    (free : nodeName ∉ state.nodes) : state.bound = [] := by
  refine List.eq_nil_iff_forall_not_mem.mpr fun other isBound => free ?_
  obtain ⟨member, bound⟩ := List.mem_filter.mp isBound
  exact List.mem_filterMap.mpr ⟨other, member, (disciplined.orderly.sound other member).node bound⟩

/-- A probe that succeeds: the device node is acquired last. -/
theorem Disciplined.bindProbe (disciplined : Disciplined num identity trace state)
    {device serial : Nat} {probing bound : Probing}
    (member : ⟨device, serial, none, probing⟩ ∈ state.devices) (free : nodeName ∉ state.nodes)
    (sound : Sound num identity ⟨device, serial, some nodeName, bound⟩) :
    Disciplined num identity (trace ++ [.bound serial [.acquire (.node device)]])
      { state with
        devices := state.without device ++ [⟨device, serial, some nodeName, bound⟩] } := by
  have loaded := disciplined.loaded_of_mem member
  have isLive (resource : Resource) (own : resource.device? = some device) :
      resource ∈ state.holding num ↔ resource ∈ liveResources num device :=
    disciplined.exact member resource own
  refine disciplined.extend ⟨?_, ?_, trivial⟩ ?_ ?_ ?_
  · exact fun held => node_not_mem_live num device ((isLive _ rfl).mp held)
  · intro need needs
    rcases List.mem_cons.mp needs with rfl | among
    · exact ⟨loaded, Or.inl rfl⟩
    · rw [List.mem_singleton.mp among]
      exact (isLive _ rfl).mpr (by simp [liveResources])
  · have without := disciplined.holding_without member
    rw [holding_snoc loaded, without]
    ext resource
    have covered : resource ∈ liveResources num device → resource ∈ state.holding num :=
      fun among => (isLive resource (device_of_live among)).mpr among
    simp only [Event.uses, Use.held, Attached.resources, mem_deviceResources, Set.mem_union,
      Set.mem_insert_iff, Set.mem_sdiff, Set.mem_ofPred_eq]
    tauto
  · have rest : (state.without device).Sublist state.devices := List.filter_sublist
    refine (disciplined.orderly.sublist rest).snoc
      (fun other isOther => (State.mem_without.mp isOther).2) (fun _ => ?_) sound
    exact List.eq_nil_of_sublist_nil (disciplined.alone free ▸ rest.filter _)
  · intro unloaded
    exact absurd loaded (by simp [show state.loaded = false from unloaded])

theorem Disciplined.finishProbe (disciplined : Disciplined num identity trace state)
    {device serial : Nat} {probing : Probing}
    (member : ⟨device, serial, none, probing⟩ ∈ state.devices) (answer : Option ErrPtr) :
    Disciplined num identity
      (trace ++ [(state.finishProbe num answer ⟨device, serial, none, probing⟩).1])
      (state.finishProbe num answer ⟨device, serial, none, probing⟩).2 := by
  obtain ⟨answers, reached⟩ : ∃ answers, probeToCdev num identity device answers = .ok probing := by
    cases disciplined.orderly.sound _ member with
    | underWay _ _ answers _ reached => exact ⟨answers, reached⟩
  obtain rfl := probing_of_ok reached
  have exits : NodeExit num identity device state.nodes
      (createNode num device state.nodes answer (Probing.live num identity device)) :=
    createNode_exit answer
  unfold State.finishProbe
  generalize isResult : createNode num device state.nodes answer
    (Probing.live num identity device) = result at exits
  cases exits with
  | failed ret probing negative devres log =>
      have uses : Use.releases ([.cdev device, .region device] ++ workerThreads device num) ++
          Use.releases (managed device).reverse = Use.releases (removalOrder num device) := by
        simp [removalOrder, Use.releases]
      simp only [negative, ↓reduceIte, log, devres, drop_live, uses]
      exact disciplined.failProbe member ret
  | succeeded free =>
      have log : Use.acquires (deviceResources num device) =
          Use.acquires (liveResources num device) ++ [.acquire (.node device)] := by
        simp [deviceResources, Use.acquires]
      simp only [↓reduceIte, log, drop_live]
      refine disciplined.bindProbe member free
        (.bound device serial state.nodes { answers with deviceCreate := answer } _ ?_)
      rw [cortexForgeProbe, show probeToCdev num identity device
        { answers with deviceCreate := answer } = .ok _ from reached, ← log]
      exact isResult

theorem Disciplined.remove (disciplined : Disciplined num identity trace state)
    (member : attached ∈ state.devices) (bound : attached.bound = true) :
    Disciplined num identity (trace ++ [.remove attached.serial (detach num attached)])
      { state with devices := state.without attached.device } := by
  have sound := disciplined.orderly.sound attached member
  have resources : attached.resources num = deviceResources num attached.device := by
    simp [Attached.resources, sound.node bound]
  refine disciplined.drop member ?_ ?_
  · rw [Event.uses, detach_eq sound]
    exact follows_detach fun resource own => resources ▸ disciplined.exact member resource own
  · rw [Event.uses, detach_eq sound, Use.held, Use.held_releases, resources]
    ext resource
    simp only [Set.mem_sdiff, Set.mem_singleton_iff, Set.mem_ofPred_eq, mem_removalOrder,
      mem_deviceResources]
    tauto

/-- What the driver and its class leave. -/
theorem exit_tail (loaded : state.loaded = true) (nothing : state.devices = []) :
    Use.Follows Resource.Needs (state.holding num)
        [.release .platformDriver, .release .deviceClass] ∧
      Use.held (state.holding num) [.release .platformDriver, .release .deviceClass] = ∅ := by
  have holding : state.holding num = {.deviceClass, .platformDriver} := by
    ext resource
    simp [State.holding, loaded, nothing]
  rw [holding]
  constructor
  · simp [Use.Follows, Resource.Needs, Resource.needs]
  · ext resource
    simp [Use.held]

/-- Unregistering the driver removes its device, if any, and then lets go of the rest. -/
theorem Disciplined.exit_uses (disciplined : Disciplined num identity trace state)
    (loaded : state.loaded = true) (allBound : ∀ other ∈ state.devices, other.bound = true) :
    Use.Follows Resource.Needs (state.holding num) (cortexForgeExit num state.devices) ∧
      Use.held (state.holding num) (cortexForgeExit num state.devices) = ∅ := by
  have single := disciplined.orderly.single
  rw [List.filter_eq_self.mpr allBound] at single
  match devices : state.devices, single with
  | [], _ => exact exit_tail loaded devices
  | [attached], _ =>
      have member : attached ∈ state.devices := by simp [devices]
      have removed := disciplined.remove member (allBound attached member)
      have gone : { state with devices := state.without attached.device }.devices = [] := by
        simp [State.without, devices]
      have tail := @exit_tail num { state with devices := state.without attached.device } loaded
        gone
      have follows := removed.follows
      have held := removed.held
      rw [ledger_snoc, Use.follows_append, disciplined.held] at follows
      rw [ledger_snoc, Use.held_append, disciplined.held] at held
      have uses : cortexForgeExit num [attached] = detach num attached ++
          [.release .platformDriver, .release .deviceClass] := by simp [cortexForgeExit]
      rw [uses, Use.follows_append, Use.held_append]
      simp only [Event.uses] at follows held
      rw [held]
      exact ⟨⟨follows.2, tail.1⟩, tail.2⟩

theorem Disciplined.exit (disciplined : Disciplined num identity trace state)
    (loaded : state.loaded = true) (allBound : ∀ other ∈ state.devices, other.bound = true) :
    Disciplined num identity (trace ++ [.exit (cortexForgeExit num state.devices)])
      { state with loaded := false, devices := [] } := by
  obtain ⟨follows, held⟩ := disciplined.exit_uses loaded allBound
  exact disciplined.extend follows (held.trans (holding_of_unloaded rfl).symm)
    (Orderly.nil num identity) fun _ => rfl

theorem Disciplined.step (disciplined : Disciplined num identity trace state) {label : Label}
    (taken : (machine num identity).step label state = some (event, next)) :
    Disciplined num identity (trace ++ [event]) next := by
  change State.step num identity label state = some (event, next) at taken
  cases label with
  | init classRegister driverRegister =>
      simp only [State.step] at taken
      split at taken
      · cases taken
      next unloaded =>
        cases taken
        exact disciplined.init (by simpa using unloaded) classRegister driverRegister
  | exit =>
      simp only [State.step] at taken
      split at taken
      next closed =>
        cases taken
        simp only [Bool.and_eq_true, List.all_eq_true] at closed
        exact disciplined.exit closed.1.1 closed.2
      · cases taken
  | probe device answers =>
      simp only [State.step] at taken
      split at taken
      next absent =>
        rw [Bool.and_eq_true, Option.isNone_iff_eq_none] at absent
        have after := disciplined.beginProbe absent.1 absent.2 answers
        rw [Option.some.inj taken] at after
        exact after
      · cases taken
  | createNode device answer =>
      simp only [State.step, Option.map_eq_some_iff, Option.filter_eq_some_iff] at taken
      obtain ⟨⟨device, serial, node, probing⟩, ⟨found, underWay⟩, same⟩ := taken
      obtain rfl : node = none := by simpa [Attached.bound] using underWay
      have after := disciplined.finishProbe (State.device?_mem found).1 answer
      rw [same] at after
      exact after
  | remove device =>
      simp only [State.step, Option.map_eq_some_iff, Option.filter_eq_some_iff] at taken
      obtain ⟨attached, ⟨found, bound⟩, same⟩ := taken
      cases same
      obtain ⟨member, rfl⟩ := State.device?_mem found
      exact disciplined.remove member bound
  | openFile descriptor device =>
      simp only [State.step] at taken
      split at taken
      · simp only [Option.map_eq_some_iff] at taken
        obtain ⟨attached, found, same⟩ := taken
        cases same
        exact disciplined.idle rfl rfl rfl
      · cases taken
  | ioctl descriptor =>
      simp only [State.step, Option.map_eq_some_iff] at taken
      obtain ⟨file, found, same⟩ := taken
      cases same
      exact disciplined.idle rfl rfl rfl
  | closeFile descriptor =>
      simp only [State.step, Option.map_eq_some_iff] at taken
      obtain ⟨file, found, same⟩ := taken
      cases same
      exact disciplined.idle rfl rfl rfl

theorem disciplined_of_run (run : (machine num identity).Run trace state) :
    Disciplined num identity trace state := by
  refine run.invariant (Disciplined num identity) ?_ ?_
  · rintro _ rfl
    exact ⟨trivial, (holding_of_unloaded rfl).symm, Orderly.nil num identity, fun _ => rfl⟩
  · intro trace state label event next reached disciplined taken
    exact disciplined.step taken

/-- A device that is bound has the workers that a successful probe of `Driver.Probe` leaves. -/
theorem Sound.summary (sound : Sound num identity attached) (bound : attached.bound = true) :
    ∃ env, CortexForge.cortexForgeProbe num identity env = (0, attached.probing.workers) := by
  cases sound with
  | underWay => cases bound
  | bound device serial taken answers probing succeeded =>
      refine ⟨answers.summary taken, ?_⟩
      rw [← @cortexForgeProbe_summary num identity device, succeeded]

end Runs

/-- In every run of the module, nothing is acquired twice or before what it needs, and nothing
is released that is not held or that another resource held still needs; open files are not
counted as a need. What is held is the class, the driver, what each device holds whose probe
is under way, and everything of the one device that may be bound, with the workers of a successful
probe; before the module is loaded and after it is unloaded it is nothing. -/
theorem module_resource_discipline (num : Nat) (identity : Nat → UInt32 × String)
    {trace : List Event} {state : State} (run : (machine num identity).Run trace state) :
    Use.Follows Resource.Needs ∅ (ledger trace) ∧
      Use.held ∅ (ledger trace) = state.holding num ∧ state.bound.length ≤ 1 ∧
      ∀ attached ∈ state.bound,
        ∃ env, CortexForge.cortexForgeProbe num identity env =
          (0, attached.probing.workers) := by
  have disciplined := disciplined_of_run run
  refine ⟨disciplined.follows, disciplined.held, disciplined.orderly.single, ?_⟩
  intro attached member
  obtain ⟨isDevice, bound⟩ := List.mem_filter.mp member
  exact (disciplined.orderly.sound attached isDevice).summary bound

/-- A kernel that grants everything. -/
def granted : Answers where
  kzalloc := true
  ioremapResource := none
  clkBulkGetAll := 6
  resetControlGet := none
  platformGetIrq := 40
  kthreadRun := fun _ => .started
  allocChrdevRegion := 0
  cdevAdd := 0
  deviceCreate := none

/-- The module is loaded, a device is bound, a file is opened on it, and the device is
removed. While it is probed again, another file is opened, and then `device_create` fails. -/
def lostFilesSchedule : List Label :=
  [.init 0 0, .probe 0 granted, .createNode 0 none, .openFile 3 0, .remove 0, .probe 0 granted,
    .openFile 4 0, .createNode 0 (some eexist)]

theorem module_resource_discipline_lost :
    ∃ trace state, (machine numAccelerators accelIdentityAt).execute lostFilesSchedule
        ⟨false, [], 0, []⟩ = some (trace, state) ∧
      Use.Follows Resource.Needs ∅ (ledger trace) ∧
      Use.held ∅ (ledger trace) = {.deviceClass, .platformDriver} := by
  have enabled : ((machine numAccelerators accelIdentityAt).execute lostFilesSchedule
      ⟨false, [], 0, []⟩).isSome = true := by decide
  let result := ((machine numAccelerators accelIdentityAt).execute lostFilesSchedule
    ⟨false, [], 0, []⟩).get enabled
  have executed := (Option.some_get enabled).symm
  obtain ⟨follows, held, -⟩ := module_resource_discipline numAccelerators accelIdentityAt
    ⟨_, rfl, Machine.steps_of_execute executed⟩
  refine ⟨result.1, result.2, executed, follows, held.trans ?_⟩
  ext resource
  show true = true ∧ (_ ∨ _ ∨ ∃ attached ∈ [], _) ↔ _
  simp

/-- The accelerators of a bound device of the driver are those that the running driver starts
from. -/
theorem bound_accelerators {trace : List Event} {state : State}
    (run : (machine numAccelerators accelIdentityAt).Run trace state) {attached : Attached}
    (member : attached ∈ state.bound) (index : AccelIndex) :
    attached.probing.workers.accelerators index = probe.accelerators index := by
  obtain ⟨isDevice, bound⟩ := List.mem_filter.mp member
  have sound := (disciplined_of_run run).orderly.sound attached isDevice
  obtain ⟨env, succeeded⟩ := sound.summary bound
  have zero : (CortexForge.cortexForgeProbe numAccelerators accelIdentityAt env).1 = 0 := by
    rw [succeeded]
  rw [← cortexForgeProbe_accelerators zero index, succeeded]

end CortexForge.Glue
