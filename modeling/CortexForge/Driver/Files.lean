import CortexForge.Driver.Holding

/-!
Contract: files that outlive the structure of their device.

An open file keeps a pointer to the structure that the probe of its device has allocated, and
the structure is freed when the device is removed or its probe fails, which `cdev_add` precedes.
Neither waits for the files. The reference of a file on the module only keeps the module from
being unloaded.

Owns: when the structure behind an open file is still allocated.
-/

namespace CortexForge.Glue

open CortexForge.Foundation

section Files

variable {num : Nat} {identity : Nat → UInt32 × String} {trace : List Event}
  {state next : State} {event : Event}

/-- The structure behind an open file is still allocated. -/
def Backed (state : State) (file : File) : Prop :=
  ∃ attached ∈ state.devices, attached.serial = file.serial

/-- The device whose structure has this number was removed on its own. -/
def Removed (trace : List Event) (serial : Nat) : Prop :=
  ∃ uses, Event.remove serial uses ∈ trace

/-- The probe that allocated the structure with this number failed after `cdev_add`. -/
def ProbeFailed (trace : List Event) (serial : Nat) : Prop :=
  ∃ ret uses, Event.failed serial ret uses ∈ trace

/-- The structure an event takes from under open files. -/
def Event.frees : Event → Option Nat
  | .remove serial _ | .failed serial _ _ => some serial
  | _ => none

/-- The structure was taken away by a removal or a failed probe. -/
def Lost (trace : List Event) (serial : Nat) : Prop :=
  ∃ event ∈ trace, event.frees = some serial

theorem lost_iff {serial : Nat} :
    Lost trace serial ↔ Removed trace serial ∨ ProbeFailed trace serial := by
  constructor
  · rintro ⟨event, member, frees⟩
    cases event <;> cases frees
    · exact Or.inr ⟨_, _, member⟩
    · exact Or.inl ⟨_, member⟩
  · rintro (⟨uses, member⟩ | ⟨ret, uses, member⟩)
    · exact ⟨_, member, rfl⟩
    · exact ⟨_, member, rfl⟩

theorem lost_snoc {serial : Nat} :
    Lost (trace ++ [event]) serial ↔ Lost trace serial ∨ event.frees = some serial := by
  simp [Lost, or_and_right, exists_or]

/-- The numbers of the structures that the devices have. -/
def State.serials (state : State) : List Nat := state.devices.map Attached.serial

theorem backed_iff {file : File} : Backed state file ↔ file.serial ∈ state.serials := by
  simp [Backed, State.serials]

/-- Structures are numbered as they are allocated, and an open file has either lost its
structure or still has it. -/
structure Numbered (trace : List Event) (state : State) : Prop where
  lost : ∀ serial, Lost trace serial → serial < state.probes
  nodup : state.serials.Nodup
  kept : ∀ serial ∈ state.serials, serial < state.probes ∧ ¬ Lost trace serial
  files : ∀ file ∈ state.files, file.serial ∈ state.serials ∨ Lost trace file.serial

/-- An event that takes no structure away. -/
theorem Numbered.keep (numbered : Numbered trace state) (keeps : event.frees = none)
    (probes : state.probes ≤ next.probes) (nodup : next.serials.Nodup)
    (serials : ∀ serial ∈ next.serials, serial ∈ state.serials ∨
      state.probes ≤ serial ∧ serial < next.probes)
    (files : ∀ file ∈ next.files, file.serial ∈ next.serials ∨ Lost trace file.serial) :
    Numbered (trace ++ [event]) next := by
  have same (serial : Nat) : Lost (trace ++ [event]) serial ↔ Lost trace serial := by
    rw [lost_snoc, keeps]
    simp
  refine ⟨fun serial lost => ?_, nodup, fun serial member => ?_, fun file member => ?_⟩
  · exact (numbered.lost serial ((same serial).mp lost)).trans_le probes
  · rw [same]
    rcases serials serial member with old | ⟨fresh, below⟩
    · exact ⟨(numbered.kept serial old).1.trans_le probes, (numbered.kept serial old).2⟩
    · exact ⟨below, fun lost => absurd (numbered.lost serial lost) (Nat.not_lt.mpr fresh)⟩
  · rw [same]
    exact files file member

/-- An event under which devices and structures stay. -/
theorem Numbered.idle (numbered : Numbered trace state) (keeps : event.frees = none)
    (sameProbes : next.probes = state.probes) (sameDevices : next.devices = state.devices)
    (files : ∀ file ∈ next.files, file ∈ state.files ∨ file.serial ∈ state.serials) :
    Numbered (trace ++ [event]) next := by
  have sameSerials : next.serials = state.serials := by simp only [State.serials, sameDevices]
  refine numbered.keep keeps sameProbes.ge (sameSerials ▸ numbered.nodup)
    (fun serial member => Or.inl (sameSerials ▸ member)) fun file member => ?_
  rw [sameSerials]
  rcases files file member with old | backed
  · exact numbered.files file old
  · exact Or.inl backed

section Without

variable {attached : Attached} (distinct : (state.devices.map Attached.device).Nodup)
  (nodup : state.serials.Nodup) (member : attached ∈ state.devices)
include distinct nodup member

/-- A device less is a structure less. -/
theorem mem_serials_without (serial : Nat) :
    serial ∈ (state.without attached.device).map Attached.serial ↔
      serial ∈ state.serials ∧ serial ≠ attached.serial := by
  simp only [State.serials, List.mem_map, State.mem_without]
  constructor
  · rintro ⟨other, ⟨isOther, different⟩, rfl⟩
    refine ⟨⟨other, isOther, rfl⟩, fun same => different ?_⟩
    rw [List.inj_on_of_nodup_map nodup isOther member same]
  · rintro ⟨⟨other, isOther, rfl⟩, different⟩
    refine ⟨other, ⟨isOther, fun same => different ?_⟩, rfl⟩
    rw [List.inj_on_of_nodup_map distinct isOther member same]

/-- An event that takes the structure of a device away. -/
theorem Numbered.take (numbered : Numbered trace state)
    (frees : event.frees = some attached.serial) :
    Numbered (trace ++ [event]) { state with devices := state.without attached.device } := by
  have mem := mem_serials_without distinct nodup member
  have isSerial : attached.serial ∈ state.serials := List.mem_map_of_mem member
  refine ⟨fun serial lost => ?_, ?_, fun serial kept => ?_, fun file isOpen => ?_⟩
  · rw [lost_snoc, frees, Option.some.injEq] at lost
    rcases lost with earlier | rfl
    · exact numbered.lost serial earlier
    · exact (numbered.kept _ isSerial).1
  · exact nodup.sublist (List.filter_sublist.map _)
  · obtain ⟨old, different⟩ := (mem serial).mp kept
    refine ⟨(numbered.kept serial old).1, ?_⟩
    rw [lost_snoc, frees, Option.some.injEq]
    rintro (earlier | same)
    · exact (numbered.kept serial old).2 earlier
    · exact different same.symm
  · rw [lost_snoc, frees, Option.some.injEq]
    by_cases lost : file.serial = attached.serial
    · exact Or.inr (Or.inr lost.symm)
    · exact (numbered.files file isOpen).imp (fun old => (mem file.serial).mpr ⟨old, lost⟩) Or.inl

end Without

theorem Numbered.beginProbe (num : Nat) (identity : Nat → UInt32 × String)
    (numbered : Numbered trace state) (device : Nat) (answers : Answers) :
    Numbered (trace ++ [(state.beginProbe num identity device answers).1])
      (state.beginProbe num identity device answers).2 := by
  unfold State.beginProbe
  cases probeToCdev num identity device answers with
  | error result =>
      exact numbered.keep rfl (Nat.le_succ _) numbered.nodup (fun serial => Or.inl)
        numbered.files
  | ok probing =>
      have serials : (state.devices ++ [(⟨device, state.probes, none, probing⟩ : Attached)]).map
          Attached.serial = state.serials ++ [state.probes] := by simp [State.serials]
      refine numbered.keep rfl (Nat.le_succ _) ?_ (fun serial member => ?_) fun file isOpen => ?_
      · rw [State.serials, serials, List.nodup_append]
        refine ⟨numbered.nodup, List.nodup_singleton _, ?_⟩
        rintro serial old _ new rfl
        exact absurd (numbered.kept serial old).1 (by simp [List.mem_singleton.mp new])
      · rw [State.serials, serials] at member
        refine (List.mem_append.mp member).imp_right fun new => ?_
        rw [List.mem_singleton.mp new]
        exact ⟨le_rfl, Nat.lt_succ_self _⟩
      · rw [State.serials, serials]
        exact (numbered.files file isOpen).imp_left (List.mem_append_left _)

theorem Numbered.finishProbe (num : Nat) (numbered : Numbered trace state)
    (distinct : (state.devices.map Attached.device).Nodup) {attached : Attached}
    (member : attached ∈ state.devices) (answer : Option ErrPtr) :
    Numbered (trace ++ [(state.finishProbe num answer attached).1])
      (state.finishProbe num answer attached).2 := by
  have mem := mem_serials_without distinct numbered.nodup member
  have isSerial : attached.serial ∈ state.serials := List.mem_map_of_mem member
  unfold State.finishProbe
  generalize createNode num attached.device state.nodes answer attached.probing = result
  obtain ⟨ret, probing⟩ := result
  by_cases succeeded : ret = 0
  · simp only [succeeded, ↓reduceIte]
    have serials : (state.without attached.device ++
        [{ attached with node := some nodeName, probing := probing }]).map Attached.serial =
        (state.without attached.device).map Attached.serial ++ [attached.serial] := by simp
    refine numbered.keep rfl le_rfl ?_ (fun serial isNext => Or.inl ?_) fun file isOpen => ?_
    · rw [State.serials, serials, List.nodup_append]
      refine ⟨numbered.nodup.sublist (List.filter_sublist.map _), List.nodup_singleton _, ?_⟩
      rintro serial old _ new rfl
      exact ((mem serial).mp old).2 (List.mem_singleton.mp new)
    · rw [State.serials, serials, List.mem_append, mem, List.mem_singleton] at isNext
      rcases isNext with old | rfl
      · exact old.1
      · exact isSerial
    · rw [State.serials, serials, List.mem_append, mem, List.mem_singleton]
      have files := numbered.files file isOpen
      tauto
  · simp only [succeeded, ↓reduceIte]
    exact Numbered.take distinct numbered.nodup member numbered rfl

theorem Numbered.step (numbered : Numbered trace state)
    (distinct : (state.devices.map Attached.device).Nodup) {label : Label}
    (taken : (machine num identity).step label state = some (event, next)) :
    Numbered (trace ++ [event]) next := by
  change State.step num identity label state = some (event, next) at taken
  cases label with
  | init classRegister driverRegister =>
      simp only [State.step] at taken
      split at taken
      · cases taken
      · cases taken
        exact numbered.idle rfl rfl rfl fun _ => Or.inl
  | exit =>
      -- A module that has open files is not unloaded.
      simp only [State.step] at taken
      split at taken
      next closed =>
        cases taken
        have noFiles : state.files = [] := by simp_all
        refine numbered.keep rfl le_rfl List.nodup_nil
          (fun _ absent => absurd absent List.not_mem_nil) fun file isOpen => ?_
        exact absurd (noFiles ▸ isOpen) List.not_mem_nil
      · cases taken
  | probe device answers =>
      simp only [State.step] at taken
      split at taken
      · have after := Numbered.beginProbe num identity numbered device answers
        rw [Option.some.inj taken] at after
        exact after
      · cases taken
  | createNode device answer =>
      simp only [State.step, Option.map_eq_some_iff, Option.filter_eq_some_iff] at taken
      obtain ⟨attached, ⟨found, -⟩, same⟩ := taken
      have after := numbered.finishProbe num distinct (State.device?_mem found).1 answer
      rw [same] at after
      exact after
  | remove device =>
      simp only [State.step, Option.map_eq_some_iff, Option.filter_eq_some_iff] at taken
      obtain ⟨attached, ⟨found, -⟩, same⟩ := taken
      cases same
      obtain ⟨member, rfl⟩ := State.device?_mem found
      exact Numbered.take distinct numbered.nodup member numbered rfl
  | openFile descriptor device =>
      simp only [State.step] at taken
      split at taken
      · simp only [Option.map_eq_some_iff] at taken
        obtain ⟨attached, found, same⟩ := taken
        cases same
        refine numbered.idle rfl rfl rfl fun file isOpen => ?_
        rcases List.mem_cons.mp isOpen with rfl | old
        · exact Or.inr (List.mem_map_of_mem (State.device?_mem found).1)
        · exact Or.inl old
      · cases taken
  | ioctl descriptor =>
      simp only [State.step, Option.map_eq_some_iff] at taken
      obtain ⟨file, found, same⟩ := taken
      cases same
      exact numbered.idle rfl rfl rfl fun _ => Or.inl
  | closeFile descriptor =>
      simp only [State.step, Option.map_eq_some_iff] at taken
      obtain ⟨file, found, same⟩ := taken
      cases same
      exact numbered.idle rfl rfl rfl fun other isOpen => Or.inl (List.mem_of_mem_erase isOpen)

/-- An open file has lost the structure that its ioctls and its release work on exactly when its
device was removed while it was open, or the probe failed that was still under way when it was
opened. Unloading the module never takes it away. -/
theorem open_file_backed_iff (num : Nat) (identity : Nat → UInt32 × String)
    {trace : List Event} {state : State} (run : (machine num identity).Run trace state)
    {file : File} (isOpen : file ∈ state.files) :
    Backed state file ↔ ¬ (Removed trace file.serial ∨ ProbeFailed trace file.serial) := by
  have numbered : Numbered trace state := by
    refine run.invariant Numbered ?_ ?_
    · rintro _ rfl
      exact ⟨fun serial ⟨event, absent, _⟩ => absurd absent List.not_mem_nil, List.nodup_nil,
        fun _ absent => absurd absent List.not_mem_nil,
        fun _ absent => absurd absent List.not_mem_nil⟩
    · intro trace state label event next reached numbered taken
      exact numbered.step (disciplined_of_run reached).orderly.distinct taken
  rw [backed_iff, ← lost_iff]
  constructor
  · exact fun kept => (numbered.kept file.serial kept).2
  · exact fun kept => (numbered.files file isOpen).resolve_right kept

theorem lostFiles_executed :
    ∃ trace state, (machine numAccelerators accelIdentityAt).Run trace state ∧
      state.files = [⟨4, 1⟩, ⟨3, 0⟩] ∧ Removed trace 0 ∧ ProbeFailed trace 1 := by
  have enabled : ((machine numAccelerators accelIdentityAt).execute lostFilesSchedule
      ⟨false, [], 0, []⟩).isSome = true := by decide
  let result := ((machine numAccelerators accelIdentityAt).execute lostFilesSchedule
    ⟨false, [], 0, []⟩).get enabled
  refine ⟨result.1, result.2, ⟨_, rfl, Machine.steps_of_execute (Option.some_get enabled).symm⟩,
    rfl, ?_, ?_⟩
  · exact ⟨_, List.mem_of_getElem? (i := 4) rfl⟩
  · exact ⟨_, _, List.mem_of_getElem? (i := 7) rfl⟩

/-- Two files that are open without their structures. -/
theorem open_file_backed_iff_lost :
    ∃ trace state, (machine numAccelerators accelIdentityAt).Run trace state ∧
      ∀ file ∈ state.files, ¬ Backed state file := by
  obtain ⟨trace, state, run, files, removed, failed⟩ := lostFiles_executed
  refine ⟨trace, state, run, fun file isOpen backed => ?_⟩
  refine (open_file_backed_iff numAccelerators accelIdentityAt run isOpen).mp backed ?_
  rw [files] at isOpen
  rcases List.mem_cons.mp isOpen with rfl | rest
  · exact Or.inr failed
  · rw [List.mem_singleton.mp rest]
    exact Or.inl removed

end Files

end CortexForge.Glue
