import Interop.Memory.Scratch
import Interop.Proofs.Memory.Writing
import Interop.Proofs.Number.Rounding

/-! Sessions with a scratch stack: the frames that are live, what each of them holds, and one action at a time.
Main statements: `allocate_cases` says all that an allocation can do, and `exec_eq_run` that a program of nested
frames does what its actions do one after the other. -/
namespace Interop
open Outcome

theorem checkAlignment_eq_ok_iff {alignment : Nat} :
    checkAlignment alignment = .ok () ↔ alignment.isPowerOfTwo := by
  unfold checkAlignment
  split
  next power => simp [power]
  next other => simp [other]

private theorem Store.dvd_of_allocate? {store after : Store} {size alignment start : Nat}
    (power : alignment.isPowerOfTwo)
    (allocated : store.allocate? size alignment = some (start, after)) : alignment ∣ start := by
  -- Memory is given out at a multiple of the larger of two powers of two, hence of each.
  have divides : alignment ∣ max 16 alignment := by
    obtain ⟨exponent, rfl⟩ := power
    rcases le_total exponent 4 with small | large
    · have smaller : 2 ^ exponent ≤ 2 ^ 4 := Nat.pow_le_pow_right (by decide) small
      rw [max_eq_left smaller]
      exact Nat.pow_dvd_pow 2 small
    · have larger : 2 ^ 4 ≤ 2 ^ exponent := Nat.pow_le_pow_right (by decide) large
      exact (max_eq_right larger).symm ▸ Nat.dvd_refl _
  unfold allocate? at allocated
  dsimp only at allocated
  split at allocated
  next =>
    cases allocated
    exact Nat.dvd_mul_left_of_dvd divides _
  next => cases allocated

theorem Allocation.placed_of_new {size alignment : Nat} {store after : Store} {owned : Allocation}
    (allocated : Allocation.new size alignment store = .ok owned after) :
    owned.size = size ∧ alignment ∣ owned.start := by
  unfold Allocation.new at allocated
  split at allocated
  next => cases allocated
  next checked =>
    split at allocated
    next empty =>
      cases allocated
      exact ⟨empty.symm, Nat.dvd_refl _⟩
    next =>
      split at allocated
      next => cases allocated
      next =>
        split at allocated <;> cases allocated
        next given => exact ⟨rfl, Store.dvd_of_allocate? (checkAlignment_eq_ok_iff.mp checked) given⟩

namespace Scratch

theorem place?_eq_some_iff {scratch : Scratch} {size alignment start : Nat} :
    scratch.place? size alignment = some start ↔
      size ≤ scratch.pointer ∧ start = Alignment.backward (scratch.pointer - size) alignment ∧
        scratch.bottom ≤ start := by
  unfold place?
  split
  next room =>
    simp only [Option.ite_none_right_eq_some, Option.some.injEq, room, true_and]
    constructor
    · rintro ⟨above, rfl⟩
      exact ⟨rfl, above⟩
    · rintro ⟨rfl, above⟩
      exact ⟨above, rfl⟩
  next full => simp [full]

theorem reserve_eq_ok_iff {scratch : Scratch} {frame : Frame} {size alignment start : Nat} :
    scratch.reserve frame size alignment = .ok start ↔
      alignment.isPowerOfTwo ∧ scratch.depth = frame.depth ∧
        scratch.place? size alignment = some start := by
  unfold reserve
  rw [bind_eq_ok]
  constructor
  · rintro ⟨⟨⟩, power, placed⟩
    refine ⟨checkAlignment_eq_ok_iff.mp power, ?_⟩
    split at placed
    next => cases placed
    next innermost =>
      cases found : scratch.place? size alignment with
      | none => simp [found] at placed
      | some other =>
        simp only [found, Except.ok.injEq] at placed
        exact ⟨not_not.mp innermost, congrArg some placed⟩
  · rintro ⟨power, innermost, placed⟩
    exact ⟨(), checkAlignment_eq_ok_iff.mpr power, by simp [innermost, placed]⟩

theorem placed_of_reserve {scratch : Scratch} {frame : Frame} {size alignment start : Nat}
    (reserved : scratch.reserve frame size alignment = .ok start) :
    alignment ∣ start ∧ scratch.bottom ≤ start ∧ start + size ≤ scratch.pointer := by
  obtain ⟨power, _, placed⟩ := reserve_eq_ok_iff.mp reserved
  obtain ⟨room, rfl, above⟩ := place?_eq_some_iff.mp placed
  obtain ⟨⟨divides, below⟩, _⟩ := Alignment.backward_isGreatest power (scratch.pointer - size)
  exact ⟨divides, above, by omega⟩

theorem ofAllocation_of_new {size alignment : Nat} {store after : Store} {scratch : Scratch}
    (created : new size alignment store = .ok scratch after) :
    ∃ owned : Allocation, owned.size = size ∧ scratch = ofAllocation owned := by
  simp only [new, bind, EStateM.bind] at created
  split at created
  next owned state allocated =>
    cases created
    exact ⟨owned, (Allocation.placed_of_new allocated).1, rfl⟩
  next => cases created

theorem depth_of_new {size alignment : Nat} {store after : Store} {scratch : Scratch}
    (created : new size alignment store = .ok scratch after) : scratch.depth = 0 := by
  obtain ⟨owned, _, rfl⟩ := ofAllocation_of_new created
  rfl

variable {World : Type}

/-- Allocating moves the pointer down to zeroed bytes, or changes nothing at all. -/
theorem allocate_cases (frame : Frame) (size alignment : Nat) (machine : Machine World) :
    (∃ start, machine.scratch.reserve frame size alignment = .ok start ∧
      allocate frame size alignment machine = .ok (.atAddress start size true)
        { machine with
          store := machine.store.fill start size 0
          scratch := { machine.scratch with pointer := start } }) ∨
    ∃ reason, machine.scratch.reserve frame size alignment = .error reason ∧
      allocate frame size alignment machine = .error reason machine := by
  have got : (EStateM.get : EStateM MemoryError (Machine World) _) machine = .ok machine machine := rfl
  cases reserved : machine.scratch.reserve frame size alignment with
  | ok start =>
    refine .inl ⟨start, rfl, ?_⟩
    simp only [allocate, bind, EStateM.bind, got, reserved]
    rfl
  | error reason =>
    refine .inr ⟨reason, rfl, ?_⟩
    simp only [allocate, bind, EStateM.bind, got, reserved]
    rfl

variable {frame : Frame} {size alignment : Nat} {machine after : Machine World}

theorem allocate_eq_error_iff {reason : MemoryError} : allocate frame size alignment machine = .error reason after ↔
    machine.scratch.reserve frame size alignment = .error reason ∧ after = machine := by
  obtain ⟨start, reserved, allocated⟩ | ⟨other, reserved, refused⟩ := allocate_cases frame size alignment machine
  · simp [reserved, allocated]
  · simp [reserved, refused, eq_comm]

theorem allocate_eq_ok_iff {view : View} : allocate frame size alignment machine = .ok view after ↔
    ∃ start, machine.scratch.reserve frame size alignment = .ok start ∧ view = .atAddress start size true ∧
      after = { machine with
        store := machine.store.fill start size 0
        scratch := { machine.scratch with pointer := start } } := by
  obtain ⟨start, reserved, allocated⟩ | ⟨other, reserved, refused⟩ := allocate_cases frame size alignment machine
  · simp [reserved, allocated, eq_comm]
  · simp [reserved, refused]

theorem zeroed_of_allocate {view : View} (allocated : allocate frame size alignment machine = .ok view after) :
    view.size = size ∧ view.toList after.store = .ok (List.replicate size 0) := by
  obtain ⟨start, _, rfl, rfl⟩ := allocate_eq_ok_iff.mp allocated
  refine ⟨rfl, ?_⟩
  rw [View.toList, View.readBytes_eq_ok rfl (Nat.le_of_eq (Nat.zero_add _))]
  exact congrArg Except.ok (Store.read_fill_of_le _ _ (Nat.le_refl _) _)

end Scratch

/-- An allocation that was handed out: its view, and the alignment that was asked for. -/
structure Held where
  view : View
  alignment : Nat

structure LiveFrame where
  frame : Frame
  held : List Held

/-- A machine in the middle of a run, with its live frames from the innermost outwards. -/
structure Session (World : Type) where
  machine : Machine World
  frames : List LiveFrame

/-- What can happen next. A frame is entered in the same way through the stack and through any live frame; frames
and allocations are counted from the newest. -/
inductive Action where
  | enter
  | allocate (frame size alignment : Nat)
  | write (allocation : Nat) (writing : View.Writing)
  | leave

namespace Session

variable {World : Type}

def live (session : Session World) : List Held := session.frames.flatMap (·.held)

def allocate (session : Session World) (index size alignment : Nat) : Session World :=
  match session.frames[index]? with
  | none => session
  | some live =>
    match Scratch.allocate live.frame size alignment session.machine with
    | .ok view machine =>
      ⟨machine, session.frames.set index ⟨live.frame, ⟨view, alignment⟩ :: live.held⟩⟩
    | .error _ machine => ⟨machine, session.frames⟩

/-- Writes through a live allocation, and goes on whether or not that is refused. -/
def write (session : Session World) (index : Nat) (writing : View.Writing) : Session World :=
  match session.live[index]? with
  | none => session
  | some held =>
    ⟨{ session.machine with store := left (writing.run held.view session.machine.store) },
      session.frames⟩

def enter (session : Session World) : Session World :=
  ⟨{ session.machine with scratch := session.machine.scratch.enter },
    ⟨session.machine.scratch.nextFrame, []⟩ :: session.frames⟩

def leave (session : Session World) : Session World :=
  match session.frames with
  | [] => session
  | live :: rest => ⟨{ session.machine with scratch := session.machine.scratch.leave live.frame }, rest⟩

def perform (session : Session World) : Action → Session World
  | .enter => session.enter
  | .allocate frame size alignment => session.allocate frame size alignment
  | .write allocation writing => session.write allocation writing
  | .leave => session.leave

def run (session : Session World) (actions : List Action) : Session World :=
  actions.foldl perform session

@[simp] theorem run_nil (session : Session World) : session.run [] = session := rfl

@[simp] theorem run_cons (session : Session World) (action : Action) (rest : List Action) :
    session.run (action :: rest) = (session.perform action).run rest := rfl

@[simp] theorem run_append (session : Session World) (first second : List Action) :
    session.run (first ++ second) = (session.run first).run second :=
  List.foldl_append

/-! Only entering and leaving change which frames are live. -/

private theorem map_frame_enter (session : Session World) :
    session.enter.frames.map (·.frame) = session.machine.scratch.nextFrame :: session.frames.map (·.frame) := rfl

private theorem map_frame_leave (session : Session World) :
    session.leave.frames.map (·.frame) = (session.frames.map (·.frame)).tail := by
  unfold leave
  cases frames : session.frames with
  | nil => simp [frames]
  | cons live rest => rfl

private theorem map_frame_write (session : Session World) (index : Nat) (writing : View.Writing) :
    (session.write index writing).frames = session.frames := by
  unfold write
  cases session.live[index]? <;> rfl

private theorem map_frame_allocate (session : Session World) (index size alignment : Nat) :
    (session.allocate index size alignment).frames.map (·.frame) = session.frames.map (·.frame) := by
  unfold allocate
  cases found : session.frames[index]? with
  | none => rfl
  | some live =>
    dsimp only
    split
    next =>
      obtain ⟨bound, rfl⟩ := List.getElem?_eq_some_iff.mp found
      have inside : index < (session.frames.map (·.frame)).length := by
        rw [List.length_map]
        exact bound
      have kept : session.frames[index].frame = (session.frames.map (·.frame))[index] :=
        (List.getElem_map _).symm
      rw [List.map_set]
      dsimp only
      rw [kept, List.set_getElem_self]
    next => rfl

end Session

/-! ## Programs of nested frames -/

/-- A program over a scratch stack, whose frames end where their bodies do. -/
inductive Program where
  | done
  | allocate (frame size alignment : Nat) (rest : Program)
  | write (allocation : Nat) (writing : View.Writing) (rest : Program)
  | within (body rest : Program)

namespace Program

variable {World : Type}

def exec : Program → List LiveFrame → EStateM MemoryError (Machine World) (List LiveFrame)
  | .done, frames => pure frames
  | .allocate index size alignment rest, frames => fun machine =>
    let session := Session.allocate ⟨machine, frames⟩ index size alignment
    rest.exec session.frames session.machine
  | .write index writing rest, frames => fun machine =>
    let session := Session.write ⟨machine, frames⟩ index writing
    rest.exec session.frames session.machine
  | .within body rest, frames => do
    let around ← Scratch.withFrame fun frame => do
      let inner ← body.exec (⟨frame, []⟩ :: frames)
      return inner.tail
    rest.exec around

def actions : Program → List Action
  | .done => []
  | .allocate index size alignment rest => .allocate index size alignment :: rest.actions
  | .write index writing rest => .write index writing :: rest.actions
  | .within body rest => .enter :: body.actions ++ .leave :: rest.actions

private theorem map_frame_run (program : Program) (session : Session World) :
    (session.run program.actions).frames.map (·.frame) = session.frames.map (·.frame) := by
  induction program generalizing session with
  | done => rfl
  | allocate index size alignment rest ih =>
    exact (ih (session.allocate index size alignment)).trans (session.map_frame_allocate index size alignment)
  | write index writing rest ih =>
    exact (ih (session.write index writing)).trans (congrArg _ (session.map_frame_write index writing))
  | within body rest bodyIh restIh =>
    simp only [actions, List.cons_append, Session.run_cons, Session.run_append, Session.perform, restIh,
      Session.map_frame_leave, bodyIh, Session.map_frame_enter, List.tail_cons]

theorem exec_eq_run (program : Program) (frames : List LiveFrame) (machine : Machine World) :
    program.exec frames machine =
      .ok (Session.run ⟨machine, frames⟩ program.actions).frames
        (Session.run ⟨machine, frames⟩ program.actions).machine := by
  induction program generalizing frames machine with
  | done => rfl
  | allocate index size alignment rest ih => exact ih _ _
  | write index writing rest ih => exact ih _ _
  | within body rest bodyIh restIh =>
    have around := map_frame_run body (Session.enter ⟨machine, frames⟩)
    simp only [exec, actions, List.cons_append, Session.run_cons, Session.run_append, Session.perform]
    cases inner : ((Session.enter ⟨machine, frames⟩).run body.actions).frames with
    | nil => simp [inner, Session.map_frame_enter] at around
    | cons live others =>
      rw [inner, Session.map_frame_enter] at around
      have same : live.frame = machine.scratch.nextFrame := (List.cons.inj around).1
      have left : (Session.leave ((Session.enter ⟨machine, frames⟩).run body.actions)) =
          ⟨{ ((Session.enter ⟨machine, frames⟩).run body.actions).machine with
            scratch := ((Session.enter ⟨machine, frames⟩).run body.actions).machine.scratch.leave
              machine.scratch.nextFrame }, others⟩ := by
        rw [Session.leave, inner, ← same]
      have entered : body.exec (⟨machine.scratch.nextFrame, []⟩ :: frames)
          { machine with scratch := machine.scratch.enter } =
          .ok ((Session.enter ⟨machine, frames⟩).run body.actions).frames
            ((Session.enter ⟨machine, frames⟩).run body.actions).machine := bodyIh _ _
      rw [left, ← restIh]
      simp only [bind, EStateM.bind, Scratch.withFrame, entered, inner]
      rfl

end Program
end Interop
