import Interop.Call.Upcall
import Interop.Proofs.Marshal.NativeBytes
import Interop.Proofs.Memory.Writing
import Interop.Proofs.Scratch.Requests

/-! Arguments on their way through memory: what a call puts into its slots, and what a handler takes from pointers.
Main statements: `placeArguments_granted` and `liftArguments_eq`, joined by `Represents`. -/
namespace Interop
open Outcome

/-- Byte strings stand for values, each as one of its own type. -/
inductive Represents : List AbiType → List (List UInt8) → List Value → Prop
  | nil : Represents [] [] []
  | cons {type : AbiType} {bytes : List UInt8} {value : Value} {types : List AbiType} {rest : List (List UInt8)}
      {values : List Value} (lifted : type.valueOfBytes bytes = .ok value)
      (others : Represents types rest values) : Represents (type :: types) (bytes :: rest) (value :: values)

def argumentBytes (types : List AbiType) (pointers : List Nat) (store : Store) : List (List UInt8) :=
  List.zipWith (fun type pointer => store.read pointer type.width) types pointers

@[simp] theorem argumentBytes_cons (type : AbiType) (types : List AbiType) (pointer : Nat) (pointers : List Nat)
    (store : Store) : argumentBytes (type :: types) (pointer :: pointers) store =
      store.read pointer type.width :: argumentBytes types pointers store := rfl

namespace Downcall

def slotRequest (type : AbiType) : Nat × Nat := (max type.width slotWidth, max type.alignment slotWidth)

variable {World : Type} {downcall : Downcall World} {frame : Frame}

def withSlot (machine : Machine World) (type : AbiType) (start : Nat) (bytes : List UInt8) : Machine World :=
  { machine with
    store := (machine.store.fill start (slotRequest type).1 0).write start bytes
    scratch := { machine.scratch with pointer := start } }

theorem placeArgument_granted {type : AbiType} {value : Value} {machine : Machine World} {start : Nat}
    {bytes : List UInt8}
    (reserved : machine.scratch.reserve frame (slotRequest type).1 (slotRequest type).2 = .ok start)
    (converted : type.nativeBytes downcall.signature.narrowing value = .ok bytes) (index : Nat) :
    downcall.placeArgument frame index type value machine =
      .ok (.atAddress start (slotRequest type).1 true) (withSlot machine type start bytes) := by
  have length := (AbiType.valueOf_nativeBytes converted).1
  have room : 0 + bytes.length ≤ (slotRequest type).1 := by
    rw [length, Nat.zero_add]
    exact Nat.le_max_left _ _
  have lowered : type.lower downcall.signature.narrowing (.atAddress start (slotRequest type).1 true) 0 value
      (machine.store.fill start (slotRequest type).1 0) =
      .ok () ((machine.store.fill start (slotRequest type).1 0).write start bytes) :=
    AbiType.lower_eq_ok rfl converted room _
  calc downcall.placeArgument frame index type value machine
      = _ := run_bind_of_ok (adaptExcept_of_ok _ (Scratch.allocate_of_reserve reserved))
    _ = _ := run_bind_of_ok (Machine.onStore_of_ok (adaptExcept_of_ok _ lowered))

/-- Slots that the frame grants end up with the bytes of the arguments. They lie below whatever the frame held before
and keep their bytes as long as only lower addresses are written. -/
theorem placeArguments_granted {types : List AbiType} {values : List Value} {machine : Machine World} {last : Scratch}
    (convertible : List.Forall₂ (·.Exact downcall.signature.narrowing ·) types values)
    (granted : frame.Grants machine.scratch (types.map slotRequest) last) (index : Nat) :
    ∃ slots store, downcall.placeArguments frame index (types.zip values) machine =
        .ok slots { machine with store, scratch := last } ∧
      slots.length = types.length ∧
      (∀ address, machine.scratch.pointer ≤ address → store.byteAt address = machine.store.byteAt address) ∧
      ∀ other : Store, (∀ address, last.pointer ≤ address → other.byteAt address = store.byteAt address) →
        Represents types (argumentBytes types (slots.map (·.start)) other) values := by
  induction convertible generalizing machine index with
  | nil =>
    cases granted
    exact ⟨[], machine.store, rfl, rfl, fun _ _ => rfl, fun _ _ => .nil⟩
  | @cons type value types values first _ ih =>
    obtain ⟨bytes, converted, lifted⟩ := first
    cases granted with
    | @cons _ _ _ _ start _ reserved others =>
      have placed := placeArgument_granted reserved converted index
      have length := (AbiType.valueOf_nativeBytes converted).1
      have below : start + (slotRequest type).1 ≤ machine.scratch.pointer :=
        (Scratch.placed_of_reserve reserved).2.2
      have lower : last.pointer ≤ start := others.pointer_le
      have short : type.width ≤ (slotRequest type).1 := Nat.le_max_left _ _
      obtain ⟨slots, store, run, count, kept, represents⟩ :=
        @ih (withSlot machine type start bytes) others (index + 1)
      refine ⟨.atAddress start (slotRequest type).1 true :: slots, store, ?_, congrArg (· + 1) count, ?_, ?_⟩
      · calc downcall.placeArguments frame index ((type, value) :: types.zip values) machine
            = _ := run_bind_of_ok placed
          _ = _ := run_bind_of_ok run
      · intro address above
        rw [kept address (show start ≤ address by omega)]
        have outside : start + bytes.length ≤ address := by omega
        rw [withSlot, Store.byteAt_write_of_outside _ _ _ (.inr outside),
          Store.byteAt_fill_of_outside _ _ (.inr (by omega))]
      · intro other same
        have slot : other.read start type.width = bytes := by
          have unchanged : other.read start bytes.length =
              ((machine.store.fill start (slotRequest type).1 0).write start bytes).read start bytes.length := by
            refine Store.read_congr ?_
            intro address above _
            rw [same address (lower.trans above)]
            exact kept address above
          rw [← length, unchanged, Store.read_write]
        rw [List.map_cons, argumentBytes_cons, View.atAddress, slot]
        exact .cons lifted (represents other same)

/-- All that a call asks its frame for: a slot for each argument and a buffer for the result. -/
def requests (downcall : Downcall World) : List (Nat × Nat) :=
  downcall.signature.params.map slotRequest ++ [(downcall.signature.resultBufferSize, resultAlignment)]

/-- A call that is granted all that it asks for enters native code with its arguments in their slots. -/
theorem prepare_granted {values : List Value} {machine : Machine World} {last : Scratch}
    (convertible : List.Forall₂ (·.Exact downcall.signature.narrowing ·) downcall.signature.params values)
    (granted : frame.Grants machine.scratch downcall.requests last) :
    ∃ slots store, downcall.prepare frame values machine =
        .ok ⟨slots, .atAddress last.pointer downcall.signature.resultBufferSize true⟩
          { machine with store, scratch := last } ∧
      slots.length = downcall.signature.arity ∧
      Represents downcall.signature.params
        (argumentBytes downcall.signature.params (slots.map (·.start)) store) values := by
  obtain ⟨between, arguments, result⟩ := granted.split
  cases result with
  | @cons _ _ _ _ start _ reserved others =>
    cases others
    obtain ⟨slots, store, placed, count, _, represents⟩ := placeArguments_granted convertible arguments 0
    have below : start + downcall.signature.resultBufferSize ≤ between.pointer :=
      (Scratch.placed_of_reserve reserved).2.2
    have allocated := @Scratch.allocate_of_reserve World _ _ _ _ { machine with store, scratch := between } reserved
    have arity : downcall.checkArity values = .ok () := if_pos convertible.length_eq.symm
    refine ⟨slots, store.fill start downcall.signature.resultBufferSize 0, ?_, count, represents _ ?_⟩
    · simp only [prepare, arity]
      exact (run_bind_of_ok placed).trans (run_bind_of_ok (adaptExcept_of_ok _ allocated))
    · intro address above
      exact Store.byteAt_fill_of_outside _ _ (.inr (below.trans above))

end Downcall
namespace UpcallHandler

variable {World : Type}

/-- A handler is given the values that the bytes at its pointers stand for. -/
theorem liftArguments_eq (handler : UpcallHandler World) {types : List AbiType} {pointers : List Nat}
    {values : List Value} {store : Store}
    (represents : Represents types (argumentBytes types pointers store) values) (index : Nat) :
    handler.liftArguments store index (types.zip pointers) = .ok values := by
  induction types generalizing pointers values index with
  | nil =>
    cases represents
    rfl
  | cons type types ih =>
    cases pointers with
    | nil => cases represents
    | cons pointer pointers =>
      cases represents with
      | @cons _ _ value _ _ _ lifted others =>
        have read : type.lift (.atAddress pointer type.width false) 0 store = .ok value :=
          AbiType.lift_eq_ok rfl (Nat.le_of_eq (Nat.zero_add _)) lifted
        simp only [List.zip_cons_cons, liftArguments, read, Except.mapError, ok_bind, ih others (index + 1)]

end UpcallHandler
end Interop
