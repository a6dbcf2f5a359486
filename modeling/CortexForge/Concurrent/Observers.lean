import CortexForge.Foundation.Simulation
import CortexForge.Concurrent.Mirror

/-!
Contract: QUERY and GET_ACCEL_INFO only look.

Both commands take several steps, some of them without any lock, while other threads write
what they load. They store nothing, and nothing the other threads do depends on them: a run
from which every step of such a call is deleted is a run, and the rest of the system goes
through the same states in it.

Owns: the observing calls, and the run without them.
-/

namespace CortexForge.Concurrent

open CortexForge.Foundation

/-- The calls that only look. -/
def Call.Observes : Call → Prop
  | .query _ | .accelInfo _ => True
  | .submit _ | .cancel _ => False

/-- The thread is in such a call, or back from one. -/
def ClientPc.Observing : ClientPc → Prop
  | .query _ _ | .accelInfo _ _ | .copyInfo _ => True
  | .returned (.query _ _ _) | .returned (.accelInfo _ _) => True
  | .idle | .submit _ _ _ | .cancel _ _ => False
  | .returned (.submit _ _) | .returned (.cancel _ _) => False

/-- The steps of such a call, from its beginning to its return. -/
def Observation (system : System) : Label → Prop
  | .client _ (.call call _) => call.Observes
  | .client thread (.advance _) => (system.clients thread).Observing
  | .worker _ _ | .stopper | .tick => False

/-- What a run does to the device. -/
def changes (trace : List Event) : List Event := trace.filter fun event => event.action ≠ .tau

theorem changes_snoc (trace : List Event) (event : Event) :
    changes (trace ++ [event]) = changes trace ++ changes [event] :=
  List.filter_append ..

/-- Where a thread is in the run without the observers: where it is in the run, or at rest
while it only looks. -/
def Unobserved (pc other : ClientPc) : Prop :=
  (¬ pc.Observing ∧ other = pc) ∨ (pc.Observing ∧ other.Resting)

/-- The step that answers a step in the run without the observers, if any. -/
inductive DropsObservers (system : System) (label : Label) : List Label → Prop
  | dropped (observation : Observation system label) : DropsObservers system label []
  | kept (other : ¬ Observation system label) : DropsObservers system label [label]

/-- The two runs at corresponding points: the same device, clock, workers and stopping thread,
the same changes of the device so far, and the same threads but for the observers. -/
structure SameButObservers (trace : List Event) (system : System) (otherTrace : List Event)
    (other : System) : Prop where
  rest : other = { system with clients := other.clients }
  clients : ∀ thread, Unobserved (system.clients thread) (other.clients thread)
  changes : changes otherTrace = changes trace

/-! ## Where calls begin and end -/

theorem Unobserved.resting {pc other : ClientPc} (unobserved : Unobserved pc other)
    (resting : pc.Resting) : other.Resting := by
  rcases unobserved with ⟨-, rfl⟩ | ⟨-, rests⟩
  · exact resting
  · exact rests

theorem resting_of_call {kernel : Kernel} {dev : Dev} {now : UInt64} {call : Call}
    {copied : Bool} {pc next : ClientPc} {action : Action}
    (taken : clientStep kernel dev now (.call call copied) pc = some (action, next)) :
    pc.Resting ∧ action = .tau ∧ next = enterCall copied call := by
  cases clientTaken_of_step taken with
  | enter _ _ _ resting => exact ⟨resting, rfl, rfl⟩

/-- A call that looks is a call that looks from its first step on. -/
theorem observing_enterCall (copied : Bool) (call : Call) :
    (enterCall copied call).Observing ↔ call.Observes := by
  have begun := entered copied call
  generalize enterCall copied call = pc at begun
  cases begun <;> exact Iff.rfl

/-- Inside a call, an observer stores nothing and stays an observer. -/
theorem observing_advance {kernel : Kernel} {dev : Dev} {now : UInt64} {choice : Bool}
    {pc next : ClientPc} {action : Action}
    (taken : clientStep kernel dev now (.advance choice) pc = some (action, next))
    (observing : pc.Observing) : action = .tau ∧ next.Observing := by
  cases clientTaken_of_step taken with
  | submit _ desc accel phase => exact absurd observing id
  | cancel _ taskId phase => exact absurd observing id
  | query _ taskId phase =>
      refine ⟨rfl, ?_⟩
      rcases queryStep_next kernel dev choice taskId phase with ⟨after, is⟩ | ⟨ret, answer, is⟩
      · rw [is]
        trivial
      · rw [is]
        trivial
  | accelInfo _ info accel => exact ⟨rfl, trivial⟩
  | copyInfo _ info => exact ⟨rfl, trivial⟩

/-- Inside a call, any other thread stays what it is. -/
theorem not_observing_advance {kernel : Kernel} {dev : Dev} {now : UInt64} {choice : Bool}
    {pc next : ClientPc} {action : Action}
    (taken : clientStep kernel dev now (.advance choice) pc = some (action, next))
    (other : ¬ pc.Observing) : ¬ next.Observing := by
  cases clientTaken_of_step taken with
  | submit _ desc accel phase =>
      rcases submitStep_next dev now choice desc accel phase with ⟨after, is⟩ | ⟨ret, reply, is⟩
      · rw [is]
        exact id
      · rw [is]
        exact id
  | cancel _ taskId phase =>
      rcases cancelStep_next dev taskId phase with ⟨after, is⟩ | ⟨ret, is⟩
      · rw [is]
        exact id
      · rw [is]
        exact id
  | query _ taskId phase => exact absurd trivial other
  | accelInfo _ info accel => exact absurd trivial other
  | copyInfo _ info => exact absurd trivial other

/-! ## The run without the observers -/

section Runs

variable {kernel : Kernel} {trace otherTrace : List Event} {system other next : System}

/-- Workers, the stopping thread and the clock do not look at the clients. -/
theorem step_with_clients {label : Label} {event : Event} (clients : Nat → ClientPc)
    (notClient : ∀ thread input, label ≠ .client thread input)
    (taken : (machine kernel).step label system = some (event, next)) :
    (machine kernel).step label { system with clients := clients } =
        some (event, { next with clients := clients }) ∧
      next.clients = system.clients := by
  change step kernel label system = some (event, next) at taken
  show step kernel label _ = _ ∧ _
  cases label with
  | client thread input => exact absurd rfl (notClient thread input)
  | worker accel expired =>
      simp only [step, Option.map_eq_some_iff, Prod.mk.injEq] at taken
      obtain ⟨⟨action, pc⟩, moved, rfl, rfl⟩ := taken
      refine ⟨?_, rfl⟩
      simp only [step]
      rw [show System.jiffies { system with clients := clients } = system.jiffies from rfl, moved]
      rfl
  | stopper =>
      simp only [step, Option.map_eq_some_iff, Prod.mk.injEq] at taken
      obtain ⟨⟨action, pc⟩, moved, rfl, rfl⟩ := taken
      refine ⟨?_, rfl⟩
      simp only [step, moved]
      rfl
  | tick =>
      simp only [step, Option.some.injEq, Prod.mk.injEq] at taken
      obtain ⟨rfl, rfl⟩ := taken
      exact ⟨rfl, rfl⟩

/-- A step of an observer is left out. -/
theorem SameButObservers.drop (same : SameButObservers trace system otherTrace other)
    {thread : Nat} {pc : ClientPc} (observing : pc.Observing)
    (resting : (other.clients thread).Resting) :
    SameButObservers (trace ++ [⟨.client thread, .tau⟩]) (system.moveClient thread .tau pc)
      (otherTrace ++ []) other where
  rest := same.rest
  clients := fun reader => by
    by_cases isThread : reader = thread
    · subst isThread
      exact Or.inr ⟨by simpa [System.moveClient] using observing, resting⟩
    · simpa [System.moveClient, isThread] using same.clients reader
  changes := by
    rw [List.append_nil, changes_snoc, same.changes]
    simp [Concurrent.changes]

/-- A step of any other client is taken in both runs. -/
theorem SameButObservers.keep (same : SameButObservers trace system otherTrace other)
    {thread : Nat} {action : Action} {pc : ClientPc} (notObserving : ¬ pc.Observing) :
    SameButObservers (trace ++ [⟨.client thread, action⟩]) (system.moveClient thread action pc)
      (otherTrace ++ [⟨.client thread, action⟩]) (other.moveClient thread action pc) where
  rest := by
    have rest := same.rest
    rw [rest]
    rfl
  clients := fun reader => by
    by_cases isThread : reader = thread
    · subst isThread
      exact Or.inl ⟨by simpa [System.moveClient] using notObserving, by simp [System.moveClient]⟩
    · simpa [System.moveClient, isThread] using same.clients reader
  changes := by rw [changes_snoc, changes_snoc, same.changes]

/-- A step of a worker, of the stopping thread or of the clock is taken in both runs. -/
theorem SameButObservers.step_foreign {label : Label} {event : Event}
    (same : SameButObservers trace system otherTrace other)
    (notClient : ∀ thread input, label ≠ .client thread input)
    (kept : ¬ Observation system label)
    (taken : (machine kernel).step label system = some (event, next)) :
    ∃ block events reached, DropsObservers system label block ∧
      (machine kernel).execute block other = some (events, reached) ∧
      SameButObservers (trace ++ [event]) next (otherTrace ++ events) reached := by
  obtain ⟨answered, sameClients⟩ := step_with_clients other.clients notClient taken
  rw [← same.rest] at answered
  refine ⟨_, _, _, .kept kept, Machine.execute_single answered, rfl, ?_, ?_⟩
  · rw [sameClients]
    exact same.clients
  · rw [changes_snoc, changes_snoc, same.changes]

/-- Every step is answered in the run without the observers. -/
theorem SameButObservers.step {label : Label} {event : Event}
    (same : SameButObservers trace system otherTrace other)
    (taken : (machine kernel).step label system = some (event, next)) :
    ∃ block events reached, DropsObservers system label block ∧
      (machine kernel).execute block other = some (events, reached) ∧
      SameButObservers (trace ++ [event]) next (otherTrace ++ events) reached := by
  cases label with
  | client thread input =>
      obtain ⟨action, pc, moved, rfl, rfl⟩ := step_client_inv taken
      -- The client's step reads the device and the clock, which both runs share.
      have sharedDev : other.dev = system.dev := by rw [same.rest]
      have sharedClock : other.jiffies = system.jiffies := by
        rw [same.rest]
        rfl
      cases input with
      | call call copied =>
          obtain ⟨resting, rfl, rfl⟩ := resting_of_call moved
          have otherResting := (same.clients thread).resting resting
          by_cases observes : call.Observes
          · exact ⟨[], [], other, .dropped observes, rfl,
              same.drop ((observing_enterCall copied call).mpr observes) otherResting⟩
          · exact ⟨_, _, _, .kept observes,
              Machine.execute_single (step_client (clientStep_call otherResting call copied)),
              same.keep (mt (observing_enterCall copied call).mp observes)⟩
      | advance choice =>
          rcases same.clients thread with ⟨notObserving, sameClient⟩ | ⟨observing, resting⟩
          · have answered : clientStep kernel other.dev other.jiffies (.advance choice)
                (other.clients thread) = some (action, pc) := by
              rw [sharedDev, sharedClock, sameClient]
              exact moved
            exact ⟨_, _, _, .kept notObserving, Machine.execute_single (step_client answered),
              same.keep (not_observing_advance moved notObserving)⟩
          · obtain ⟨rfl, still⟩ := observing_advance moved observing
            exact ⟨[], [], other, .dropped observing, rfl, same.drop still resting⟩
  | worker accel expired => exact same.step_foreign (fun _ _ same => by cases same) id taken
  | stopper => exact same.step_foreign (fun _ _ same => by cases same) id taken
  | tick => exact same.step_foreign (fun _ _ same => by cases same) id taken

end Runs

/-- A run from which every step of a QUERY or a GET_ACCEL_INFO is deleted is a run. At all
corresponding points the two have the same device, clock, workers and stopping thread, and
every thread in or back from a SUBMIT or a CANCEL is at the same place, with the same
reply. -/
theorem observers_invisible (kernel : Kernel) {ticks : Nat} {trace : List Event} {system : System}
    (steps : (machine kernel).Steps (initial ticks) trace system) :
    ∃ otherTrace other, (machine kernel).Paired DropsObservers SameButObservers (initial ticks)
      (initial ticks) trace system otherTrace other := by
  have initially : SameButObservers [] (initial ticks) [] (initial ticks) :=
    ⟨rfl, fun _ => Or.inl ⟨id, rfl⟩, rfl⟩
  let Allowed : List Event → Prop := fun _ => True
  have allowed : Allowed trace := trivial
  exact steps.paired initially (fun _ _ _ _ _ _ _ _ => trivial)
    (fun _ _ _ _ _ _ _ _ _ same taken _ => same.step taken) allowed

/-- A submission and, while it is under way, a lookup of its id. -/
def glanceSchedule : Schedule Kernel.hz1000 (initial 0) where
  labels := callSchedule 0 (.submit TaskDesc.zero) 4 ++ callSchedule 1 (.query 1) 8
  enabled := by decide +kernel

theorem observers_invisible_glance :
    ∃ otherTrace other, (machine Kernel.hz1000).Paired DropsObservers SameButObservers
      (initial 0) (initial 0) glanceSchedule.trace glanceSchedule.final otherTrace other :=
  observers_invisible Kernel.hz1000 (Machine.steps_of_execute glanceSchedule.executed)

end CortexForge.Concurrent
