import Interop.Proofs.Call.Preparation

/-! Calls of native code that keeps a log of its entries: there is one entry, with all arguments in place, or none.
Main statement: `invokeIn_all_or_nothing`. -/
namespace Interop
open Outcome

variable {World : Type}

structure Entry where
  arguments : List Nat
  result : Nat
  store : Store

def NativeCode.logged (code : NativeCode World) : NativeCode (World × List Entry) where
  enter arguments result before :=
    let after := code.enter arguments result ⟨before.store, before.world.1⟩
    ⟨after.store, after.world, before.world.2 ++ [⟨arguments, result, before.store⟩]⟩

def Downcall.logged (downcall : Downcall World) : Downcall (World × List Entry) :=
  ⟨downcall.name, downcall.signature, downcall.code.logged⟩

namespace Machine

def withWorld {Other : Type} (machine : Machine World) (world : Other) : Machine Other :=
  ⟨machine.store, machine.scratch, world⟩

def logging (machine : Machine World) : Machine (World × List Entry) := machine.withWorld (machine.world, [])

def unlogged (machine : Machine (World × List Entry)) : Machine World := machine.withWorld machine.world.1

def log (machine : Machine (World × List Entry)) : List Entry := machine.world.2

private theorem simulates_onStore {Other ε α : Type} (world : Other) (action : EStateM ε Store α) :
    Simulates (fun machine : Machine World => machine.withWorld world) (onStore action) (onStore action) := by
  intro machine
  simp only [onStore, withWorld]
  cases action machine.store <;> rfl

end Machine

private theorem Scratch.simulates_allocate {Other : Type} (world : Other) (frame : Frame) (size alignment : Nat) :
    Simulates (fun machine : Machine World => machine.withWorld world) (allocate frame size alignment)
      (allocate frame size alignment) := by
  intro machine
  obtain ⟨start, reserved, allocated⟩ | ⟨reason, refused, allocated⟩ := allocate_cases frame size alignment machine
  · rw [allocated]
    exact @allocate_of_reserve Other frame size alignment start (machine.withWorld world) reserved
  · obtain ⟨start, reserved, _⟩ | ⟨other, again, failed⟩ :=
      allocate_cases frame size alignment (machine.withWorld world)
    · cases refused.symm.trans reserved
    · cases refused.symm.trans again
      rw [allocated, failed]
      rfl

namespace Downcall

private theorem simulates_placeArguments {Other : Type} (world : Other) (downcall : Downcall World)
    (code : NativeCode Other) (frame : Frame) (index : Nat) (arguments : List (AbiType × Value)) :
    Simulates (fun machine : Machine World => machine.withWorld world)
      (downcall.placeArguments frame index arguments)
      ((⟨downcall.name, downcall.signature, code⟩ : Downcall Other).placeArguments frame index arguments) := by
  induction arguments generalizing index with
  | nil => exact .pure []
  | cons argument rest ih =>
    have first : Simulates (fun machine : Machine World => machine.withWorld world)
        (downcall.placeArgument frame index argument.1 argument.2)
        ((⟨downcall.name, downcall.signature, code⟩ : Downcall Other).placeArgument frame index argument.1
          argument.2) := by
      apply Simulates.bind ((Scratch.simulates_allocate world _ _ _).adaptExcept _)
      intro slot
      exact (Machine.simulates_onStore world _).bind fun _ => .pure slot
    exact first.bind fun slot => (ih (index + 1)).bind fun slots => .pure (slot :: slots)

private theorem simulates_prepare {Other : Type} (world : Other) (downcall : Downcall World) (code : NativeCode Other)
    (frame : Frame) (args : List Value) :
    Simulates (fun machine : Machine World => machine.withWorld world) (downcall.prepare frame args)
      ((⟨downcall.name, downcall.signature, code⟩ : Downcall Other).prepare frame args) := by
  have same : (⟨downcall.name, downcall.signature, code⟩ : Downcall Other).checkArity args =
      downcall.checkArity args := rfl
  unfold prepare
  rw [same]
  cases downcall.checkArity args with
  | error error => exact .throw error
  | ok =>
    apply (simulates_placeArguments world downcall code frame 0 _).bind
    intro slots
    exact ((Scratch.simulates_allocate world _ _ _).adaptExcept _).bind fun buffer => .pure (Prepared.mk slots buffer)

def finish (downcall : Downcall World) (buffer : View) (machine : Machine World) (after : Surroundings World) :
    EStateM.Result CallError (Machine World) (Option Value) :=
  match downcall.signature.liftResult buffer after.store with
  | .ok returned => .ok returned { machine with store := after.store, world := after.world }
  | .error error => .error (.result downcall.name error) { machine with store := after.store, world := after.world }

theorem invokeIn_eq_finish {downcall : Downcall World} {frame : Frame} {args : List Value}
    {machine ready : Machine World} {prepared : Prepared}
    (prepares : downcall.prepare frame args machine = .ok prepared ready) :
    downcall.invokeIn frame args machine =
      downcall.finish prepared.buffer ready
        (downcall.code.enter (prepared.slots.map (·.start)) prepared.buffer.start ⟨ready.store, ready.world⟩) := by
  refine (run_bind_of_ok prepares).trans ((run_bind_of_ok rfl).trans ?_)
  simp only [Machine.onStore, Store.observe, finish, Except.mapError]
  cases downcall.signature.liftResult _ _ <;> rfl

private theorem prepare_logged (downcall : Downcall World) (frame : Frame) (args : List Value)
    (machine : Machine World) :
    downcall.logged.prepare frame args machine.logging =
      onState (·.withWorld (machine.world, [])) (downcall.prepare frame args machine) :=
  simulates_prepare (machine.world, []) downcall downcall.code.logged frame args machine

private theorem finish_logged (downcall : Downcall World) (buffer : View) (ready : Machine World) (pointers : List Nat)
    (result : Nat) :
    let outcome := downcall.logged.finish buffer (ready.withWorld (ready.world, []))
      (downcall.logged.code.enter pointers result ⟨ready.store, (ready.world, [])⟩)
    downcall.finish buffer ready (downcall.code.enter pointers result ⟨ready.store, ready.world⟩) =
      onState Machine.unlogged outcome ∧ (left outcome).log = [⟨pointers, result, ready.store⟩] := by
  simp only [finish, logged, NativeCode.logged]
  cases downcall.signature.liftResult buffer _ <;> exact ⟨rfl, rfl⟩

private theorem invokeIn_logged_of_ok {downcall : Downcall World} {frame : Frame} {args : List Value}
    {machine ready : Machine World} {prepared : Prepared}
    (prepares : downcall.prepare frame args machine = .ok prepared ready) (world : ready.world = machine.world) :
    let outcome := downcall.logged.invokeIn frame args machine.logging
    downcall.invokeIn frame args machine = onState Machine.unlogged outcome ∧
      (left outcome).log = [⟨prepared.slots.map (·.start), prepared.buffer.start, ready.store⟩] := by
  have same := downcall.prepare_logged frame args machine
  rw [prepares, ← world] at same
  dsimp only
  rw [invokeIn_eq_finish prepares, invokeIn_eq_finish same]
  exact downcall.finish_logged prepared.buffer ready _ _

private theorem invokeIn_logged_of_error {downcall : Downcall World} {frame : Frame} {args : List Value}
    {machine after : Machine World} {error : CallError}
    (refused : downcall.prepare frame args machine = .error error after) (world : after.world = machine.world) :
    let outcome := downcall.logged.invokeIn frame args machine.logging
    downcall.invokeIn frame args machine = onState Machine.unlogged outcome ∧ (left outcome).log = [] := by
  have same := downcall.prepare_logged frame args machine
  rw [refused, ← world] at same
  have stopped : downcall.logged.invokeIn frame args machine.logging =
      .error error (after.withWorld (after.world, [])) := run_bind_of_error same
  dsimp only
  rw [stopped]
  exact ⟨run_bind_of_error refused, rfl⟩

/-- Native code is entered once if the call has all it needs, and then finds every argument in its slot; otherwise it
is not entered, the error is that of the first step that is refused, and only scratch space has been touched. -/
theorem invokeIn_all_or_nothing (downcall : Downcall World) (frame : Frame) (args : List Value)
    (machine : Machine World) :
    let outcome := downcall.logged.invokeIn frame args machine.logging
    downcall.invokeIn frame args machine = onState Machine.unlogged outcome ∧
      ((downcall.Callable frame machine.scratch args ∧ ∃ entry, (left outcome).log = [entry] ∧
          downcall.Delivers machine.scratch args entry.arguments entry.result entry.store) ∨
        (¬ downcall.Callable frame machine.scratch args ∧ (left outcome).log = [] ∧ ∃ error after,
          downcall.invokeIn frame args machine = .error error after ∧
          downcall.Refuses frame machine.scratch args error ∧ machine.Lends after ∧
          (args.length = downcall.signature.arity ∨ after = machine))) := by
  obtain ⟨prepared, ready, callable, prepares, lends, delivers⟩ |
    ⟨error, after, impossible, refused, lends, refuses, early⟩ := downcall.prepare_cases frame args machine
  · obtain ⟨same, log⟩ := invokeIn_logged_of_ok prepares lends.world
    exact ⟨same, .inl ⟨callable, _, log, delivers⟩⟩
  · obtain ⟨same, log⟩ := invokeIn_logged_of_error refused lends.world
    have untouched := Classical.or_iff_not_imp_left.mpr early
    exact ⟨same, .inr ⟨impossible, log, error, after, run_bind_of_error refused, refuses, lends, untouched⟩⟩

def Specimen.idle : Downcall Unit :=
  ⟨"idle", ⟨[⟨.scalar .u8, .host⟩, ⟨.scalar .long, .host⟩], none, .host, .checked⟩,
    ⟨fun _ _ before => before⟩⟩

/-- In a frame of sixty-four bytes the code is entered; one of twenty-four has room for both slots, but not for the
buffer below them. -/
theorem invokeIn_all_or_nothing_room :
    (∃ pointers result store, Specimen.idle.Delivers ⟨4096, 4160, 4160, 1⟩ [.u8 1, .i64 2] pointers result store ∧
      pointers = [4152, 4144] ∧ result = 4128) ∧
    ¬ Specimen.idle.Callable ⟨4120, 1⟩ ⟨4096, 4120, 4120, 1⟩ [.u8 1, .i64 2] ∧
      Specimen.idle.Refuses ⟨4120, 1⟩ ⟨4096, 4120, 4120, 1⟩ [.u8 1, .i64 2]
        (.scratch "idle" (.stackExhausted 16 8)) := by
  constructor
  · obtain ⟨_, ⟨_, entry, entered, delivers⟩ | ⟨_, missed, _⟩⟩ :=
      Specimen.idle.invokeIn_all_or_nothing ⟨4160, 1⟩ [.u8 1, .i64 2] ⟨.initial, ⟨4096, 4160, 4160, 1⟩, ()⟩
    · cases entered
      exact ⟨_, _, _, delivers, rfl, rfl⟩
    · cases missed
  · obtain ⟨_, ⟨_, entry, entered, _⟩ | ⟨impossible, _, error, after, refused, refuses, _⟩⟩ :=
      Specimen.idle.invokeIn_all_or_nothing ⟨4120, 1⟩ [.u8 1, .i64 2] ⟨.initial, ⟨4096, 4120, 4120, 1⟩, ()⟩
    · cases entered
    · cases refused
      exact ⟨impossible, refuses⟩

end Downcall
end Interop
