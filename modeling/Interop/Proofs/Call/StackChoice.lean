import Interop.Proofs.Call.Objections
import Interop.Proofs.Call.ReturnBuffer

/-! Calls with scratch memory from one stack or another, whatever the stacks have held before.
Main statement: `stack_irrelevant`, for native code that depends only on its arguments. -/
namespace Interop
open Outcome

variable {World : Type}

namespace Downcall

def slotBytes (types : List AbiType) (pointers : List Nat) (store : Store) : List (List UInt8) :=
  List.zipWith (fun type pointer => store.read pointer (slotRequest type).1) types pointers

def slotContents (policy : Narrowing) (type : AbiType) (value : Value) : List UInt8 :=
  (type.nativeBytes policy value).toOption.getD [] ++ List.replicate ((slotRequest type).1 - type.width) 0

private theorem nativeBytes_of_filled {type : AbiType} {policy : Narrowing} {value : Value} {pointer : Nat}
    {bytes : List UInt8}
    (lowered : ∀ before, type.lower policy (.atAddress pointer (slotRequest type).1 true) 0 value before =
      .ok () (before.write pointer bytes))
    (length : bytes.length = type.width) : type.nativeBytes policy value = .ok bytes := by
  have within : type.width ≤ (slotRequest type).1 := Nat.le_max_left _ _
  have slot := lowered .initial
  rw [AbiType.lower_slot within] at slot
  cases converted : type.nativeBytes policy value with
  | ok others =>
    rw [converted] at slot
    have read : (Store.initial.write pointer bytes).read pointer others.length = others :=
      (EStateM.Result.ok.inj slot).2 ▸ Store.read_write _ _ _
    rw [(AbiType.valueOf_nativeBytes converted).1, ← length, Store.read_write] at read
    rw [read]
  | error error =>
    rw [converted] at slot
    cases slot

private theorem Filled.slotBytes_eq {policy : Narrowing} {store : Store} {types : List AbiType} {values : List Value}
    {pointers : List Nat} (filled : Filled policy store types values pointers) :
    slotBytes types pointers store = List.zipWith (slotContents policy) types values := by
  induction filled with
  | nil => rfl
  | @cons type value pointer bytes _ _ _ lowered held _ ih =>
    have within : type.width ≤ (slotRequest type).1 := Nat.le_max_left _ _
    have sizes := congrArg List.length held
    rw [Store.length_read, List.length_append, List.length_replicate] at sizes
    have converted := nativeBytes_of_filled lowered (by omega)
    have contents : slotContents policy type value = bytes ++ List.replicate ((slotRequest type).1 - type.width) 0 := by
      rw [slotContents, converted]
      rfl
    rw [slotBytes, List.zipWith_cons_cons, List.zipWith_cons_cons, held, contents, ← slotBytes, ih]

private theorem Filled.length_eq {policy : Narrowing} {store : Store} {types : List AbiType} {values : List Value}
    {pointers : List Nat} (filled : Filled policy store types values pointers) : pointers.length = types.length := by
  induction filled with
  | nil => rfl
  | cons _ _ _ ih => exact congrArg (· + 1) ih

end Downcall

/-- What native code of a signature may rely on when it is entered: there is a pointer for each argument, slots and
result do not overlap, and the bytes for the result are zeros. -/
structure Signature.Entered (signature : Signature) (pointers : List Nat) (result : Nat) (store : Store) : Prop where
  count : pointers.length = signature.arity
  apart : (Downcall.slotsAt signature.params pointers ++
    [View.atAddress result signature.resultBufferSize true]).Pairwise View.Apart
  zeroed : store.read result signature.resultBufferSize = List.replicate signature.resultBufferSize 0

/-- Wherever it finds the same arguments, and whatever else it finds, native code leaves the same result. Only the bytes
of the result's type count. -/
def NativeCode.DependsOnArguments (code : NativeCode World) (signature : Signature) : Prop :=
  ∀ type, signature.result = some type → ∀ (pointers others : List Nat) (result target : Nat)
    (before elsewhere : Surroundings World),
    signature.Entered pointers result before.store → signature.Entered others target elsewhere.store →
    Downcall.slotBytes signature.params pointers before.store =
      Downcall.slotBytes signature.params others elsewhere.store →
    type.valueOfBytes ((code.enter pointers result before).store.read result type.width) =
      type.valueOfBytes ((code.enter others target elsewhere).store.read target type.width)

namespace Downcall

def OutOfScratch (answered : Except CallError (Option Value)) : Prop :=
  ∃ name reason, answered = .error (.scratch name reason)

variable {downcall : Downcall World} {frame : Frame} {args : List Value}

private theorem buffer_of_prepare {machine ready : Machine World} {prepared : Prepared}
    (prepares : downcall.prepare frame args machine = .ok prepared ready) :
    prepared.buffer = .atAddress prepared.buffer.start downcall.signature.resultBufferSize true ∧
      ready.store.read prepared.buffer.start downcall.signature.resultBufferSize =
        List.replicate downcall.signature.resultBufferSize 0 := by
  unfold prepare at prepares
  cases checked : downcall.checkArity args with
  | error error =>
    rw [checked] at prepares
    cases prepares
  | ok =>
    simp only [checked] at prepares
    cases placed : downcall.placeArguments frame 0 (downcall.signature.params.zip args) machine with
    | error error after =>
      rw [run_bind_of_error placed] at prepares
      cases prepares
    | ok slots between =>
      rw [run_bind_of_ok placed] at prepares
      obtain ⟨start, _, allocated⟩ | ⟨reason, _, allocated⟩ :=
        Scratch.allocate_cases frame downcall.signature.resultBufferSize resultAlignment between
      · rw [run_bind_of_ok (adaptExcept_of_ok _ allocated)] at prepares
        cases prepares
        exact ⟨rfl, Store.read_fill_of_le _ _ (Nat.le_refl _) 0⟩
      · rw [run_bind_of_error (by simp only [EStateM.adaptExcept, allocated]; rfl)] at prepares
        cases prepares

private theorem entered_of_prepare {scratch : Scratch} {machine ready : Machine World} {prepared : Prepared}
    (prepares : downcall.prepare frame args machine = .ok prepared ready)
    (delivers : downcall.Delivers scratch args (prepared.slots.map (·.start)) prepared.buffer.start ready.store) :
    downcall.signature.Entered (prepared.slots.map (·.start)) prepared.buffer.start ready.store :=
  ⟨delivers.filled.length_eq, delivers.apart, (buffer_of_prepare prepares).2⟩

private theorem answer_finish {buffer : View}
    (whole : buffer = .atAddress buffer.start downcall.signature.resultBufferSize true) (ready : Machine World)
    (after : Surroundings World) :
    answer (downcall.finish buffer ready after) =
      match downcall.signature.result with
      | none => .ok none
      | some type =>
        (some <$> type.valueOfBytes (after.store.read buffer.start type.width)).mapError (.result downcall.name) := by
  cases declared : downcall.signature.result with
  | none =>
    simp only [finish, Signature.liftResult, declared]
    rfl
  | some type =>
    have readable : buffer.readable = true := by rw [whole]; rfl
    have size : buffer.size = downcall.signature.resultBufferSize := by rw [whole]; rfl
    have room := size ▸ Signature.resultWidth_le_resultBufferSize declared
    simp only [finish, Signature.liftResult_eq declared readable room, AbiType.valueOfResult_read]
    cases type.valueOfBytes _ <;> rfl

private theorem decided_cases {machine : Machine World}
    (decided : ¬ OutOfScratch (answer (downcall.invokeIn frame args machine))) :
    (∃ prepared ready, downcall.prepare frame args machine = .ok prepared ready ∧ downcall.objection args = none ∧
      downcall.Delivers machine.scratch args (prepared.slots.map (·.start)) prepared.buffer.start ready.store) ∨
    ∃ error, downcall.objection args = some error ∧ answer (downcall.invokeIn frame args machine) = .error error := by
  obtain ⟨prepared, ready, prepares, accepted, delivers, _⟩ |
    ⟨error, after, failed, _, objected | ⟨⟨reason, rfl⟩, _⟩⟩ := downcall.invokeIn_cases frame args machine
  · exact .inl ⟨prepared, ready, prepares, accepted, delivers⟩
  · exact .inr ⟨error, objected, congrArg answer failed⟩
  · exact absurd ⟨_, _, congrArg answer failed⟩ decided

private theorem answer_invokeIn_eq (depends : downcall.code.DependsOnArguments downcall.signature) {other : Frame}
    {machine elsewhere : Machine World} (decided : ¬ OutOfScratch (answer (downcall.invokeIn frame args machine)))
    (again : ¬ OutOfScratch (answer (downcall.invokeIn other args elsewhere))) :
    answer (downcall.invokeIn other args elsewhere) = answer (downcall.invokeIn frame args machine) := by
  obtain ⟨first, ready, prepares, accepted, delivers⟩ | ⟨error, objected, answered⟩ := decided_cases decided <;>
    obtain ⟨second, there, prepares', accepted', delivers'⟩ | ⟨error', objected', answered'⟩ := decided_cases again
  · rw [invokeIn_eq_finish prepares, invokeIn_eq_finish prepares', answer_finish (buffer_of_prepare prepares).1,
      answer_finish (buffer_of_prepare prepares').1]
    cases declared : downcall.signature.result with
    | none => rfl
    | some type =>
      have same := delivers'.filled.slotBytes_eq.trans delivers.filled.slotBytes_eq.symm
      have value := depends type declared _ _ _ _ ⟨there.store, there.world⟩ ⟨ready.store, ready.world⟩
        (entered_of_prepare prepares' delivers') (entered_of_prepare prepares delivers) same
      dsimp only
      rw [value]
  · cases accepted.symm.trans objected'
  · cases accepted'.symm.trans objected
  · cases objected.symm.trans objected'
    rw [answered, answered']

private theorem scratch_invokeIn (downcall : Downcall World) (frame : Frame) (args : List Value)
    (machine : Machine World) :
    (left (downcall.invokeIn frame args machine)).scratch =
      { machine.scratch with pointer := (left (downcall.invokeIn frame args machine)).scratch.pointer } := by
  obtain ⟨prepared, ready, prepares, _, _, lends⟩ | ⟨error, after, failed, lends, _⟩ :=
    downcall.invokeIn_cases frame args machine
  · have kept : (left (downcall.invokeIn frame args machine)).scratch = ready.scratch := by
      rw [invokeIn_eq_finish prepares, finish]
      cases downcall.signature.liftResult prepared.buffer _ <;> rfl
    rw [kept]
    exact lends.scratch
  · rw [failed]
    exact lends.scratch

def inFrame (machine : Machine World) : Machine World := { machine with scratch := machine.scratch.enter }

private theorem invoke_eq (downcall : Downcall World) (args : List Value) (machine : Machine World) :
    answer (downcall.invoke args machine) =
        answer (downcall.invokeIn machine.scratch.nextFrame args (inFrame machine)) ∧
      (left (downcall.invoke args machine)).scratch = machine.scratch := by
  cases checked : downcall.checkArity args with
  | error error =>
    have refused : downcall.invoke args machine = .error error machine := by
      simp only [invoke, checked]
      rfl
    have stopped : downcall.invokeIn machine.scratch.nextFrame args (inFrame machine) =
        .error error (inFrame machine) := by
      refine run_bind_of_error ?_
      simp only [prepare, checked]
      rfl
    rw [refused, stopped]
    exact ⟨rfl, rfl⟩
  | ok =>
    have framed : downcall.invoke args machine =
        Scratch.withFrame (fun frame => downcall.invokeIn frame args) machine := by
      simp only [invoke, checked]
    have scratch := downcall.scratch_invokeIn machine.scratch.nextFrame args (inFrame machine)
    have entered : Scratch.withFrame (fun frame => downcall.invokeIn frame args) machine =
      onState (fun after => { after with scratch := after.scratch.leave machine.scratch.nextFrame })
        (downcall.invokeIn machine.scratch.nextFrame args (inFrame machine)) := by
      simp only [Scratch.withFrame, inFrame]
      cases downcall.invokeIn machine.scratch.nextFrame args _ <;> rfl
    rw [framed, entered]
    cases ran : downcall.invokeIn machine.scratch.nextFrame args (inFrame machine) with
    | ok value after | error error after =>
      rw [ran] at scratch
      refine ⟨rfl, ?_⟩
      dsimp only [onState, left] at scratch ⊢
      rw [scratch]
      rfl

private theorem not_outOfScratch_of_room {machine : Machine World} (room : downcall.HasRoom frame machine.scratch) :
    ¬ OutOfScratch (answer (downcall.invokeIn frame args machine)) := by
  rintro ⟨name, reason, failed⟩
  obtain ⟨prepared, ready, prepares, _⟩ | ⟨error, after, stopped, _, objected | ⟨_, missing⟩⟩ :=
    downcall.invokeIn_cases frame args machine
  · rw [invokeIn_eq_finish prepares] at failed
    obtain ⟨source, other⟩ := error_of_finish failed
    cases other
  · rw [stopped] at failed
    cases failed
    obtain other | ⟨place, source, other⟩ := objection_eq_some objected <;> cases other
  · exact missing room

/-- One answer for all stacks: that of a call in any frame with scratch memory enough, and that of a call in a frame of
its own, after which the stack is as it was. -/
structure StackFree (downcall : Downcall World) (args : List Value) : Prop where
  frames : ∀ (frame other : Frame) (machine elsewhere : Machine World),
    ¬ OutOfScratch (answer (downcall.invokeIn frame args machine)) →
    ¬ OutOfScratch (answer (downcall.invokeIn other args elsewhere)) →
    answer (downcall.invokeIn other args elsewhere) = answer (downcall.invokeIn frame args machine)
  thread : ∀ (frame : Frame) (machine own : Machine World),
    ¬ OutOfScratch (answer (downcall.invokeIn frame args machine)) →
    ¬ OutOfScratch (answer (downcall.invoke args own)) →
    answer (downcall.invoke args own) = answer (downcall.invokeIn frame args machine)
  room : ∀ own : Machine World, downcall.HasRoom own.scratch.nextFrame own.scratch.enter →
    ¬ OutOfScratch (answer (downcall.invoke args own))
  restored : ∀ own : Machine World, (left (downcall.invoke args own)).scratch = own.scratch

/-- The stack that a call gets its scratch memory from does not change what it comes to, value or error, if native code
depends only on its arguments. -/
theorem stack_irrelevant (depends : downcall.code.DependsOnArguments downcall.signature) (args : List Value) :
    downcall.StackFree args := by
  refine ⟨fun _ _ _ _ => answer_invokeIn_eq depends, ?_, ?_, fun own => (downcall.invoke_eq args own).2⟩
  · intro frame machine own decided again
    rw [(downcall.invoke_eq args own).1] at again ⊢
    exact answer_invokeIn_eq depends decided again
  · intro own room
    rw [(downcall.invoke_eq args own).1]
    exact not_outOfScratch_of_room room

/-- The number of a byte and one more. The rest of the register is what the world holds. -/
def Specimen.successor : Downcall Nat :=
  ⟨"successor", ⟨[⟨.scalar .u8, .host⟩], some ⟨.scalar .i16, .host⟩, .host, .checked⟩,
    ⟨fun pointers result before =>
      let slot := before.store.read (pointers.headD 0) slotWidth
      { before with
        store := before.store.write result (Bytes.ofNat 2 (Bytes.toNat slot + 1) ++ Bytes.ofNat 6 before.world) }⟩⟩

private theorem Specimen.dependsOnArguments_successor : successor.code.DependsOnArguments successor.signature := by
  intro type declared pointers others result target before elsewhere entered again same
  cases declared
  obtain ⟨pointer, rfl⟩ := List.length_eq_one_iff.mp entered.count
  obtain ⟨other, rfl⟩ := List.length_eq_one_iff.mp again.count
  have slot : before.store.read pointer slotWidth = elsewhere.store.read other slotWidth := List.head_eq_of_cons_eq same
  have low (store : Store) (start number world : Nat) :
      (store.write start (Bytes.ofNat 2 number ++ Bytes.ofNat 6 world)).read start 2 = Bytes.ofNat 2 number :=
    (Store.read_eq_append (Store.read_write store start _)).1
  have width : AbiType.width ⟨.scalar .i16, .host⟩ = 2 := rfl
  simp only [successor, List.headD_cons, width, low, slot]

def Specimen.roomy : Machine Nat := ⟨.initial, ⟨4096, 4160, 4160, 1⟩, 0⟩

def Specimen.used : Machine Nat := ⟨Store.initial.fill 1000 1000 0xff, ⟨1000, 2000, 1900, 3⟩, 77⟩

def Specimen.own : Machine Nat := ⟨Store.initial.fill 8192 64 0xaa, ⟨8192, 8256, 8250, 0⟩, 5⟩

/-- The highest byte has a successor on stacks of any size, through slots that were full of ones and with any rest of
the register. -/
theorem stack_irrelevant_successor :
    answer (Specimen.successor.invokeIn ⟨4160, 1⟩ [.u8 255] Specimen.roomy) = .ok (some (.i16 256)) ∧
      answer (Specimen.successor.invokeIn ⟨1950, 3⟩ [.u8 255] Specimen.used) = .ok (some (.i16 256)) ∧
      answer (Specimen.successor.invoke [.u8 255] Specimen.own) = .ok (some (.i16 256)) ∧
      (left (Specimen.successor.invoke [.u8 255] Specimen.own)).scratch = Specimen.own.scratch := by
  have free := stack_irrelevant Specimen.dependsOnArguments_successor [.u8 255]
  have first : answer (Specimen.successor.invokeIn ⟨4160, 1⟩ [.u8 255] Specimen.roomy) = .ok (some (.i16 256)) := by
    decide
  have decided : ¬ OutOfScratch (answer (Specimen.successor.invokeIn ⟨4160, 1⟩ [.u8 255] Specimen.roomy)) := by
    rw [first]
    rintro ⟨_, _, other⟩
    cases other
  have again : ¬ OutOfScratch (answer (Specimen.successor.invokeIn ⟨1950, 3⟩ [.u8 255] Specimen.used)) := by
    refine not_outOfScratch_of_room (Scratch.grants_of_room rfl ?_ ?_) <;> decide
  have room : Specimen.successor.HasRoom Specimen.own.scratch.nextFrame Specimen.own.scratch.enter :=
    Scratch.grants_of_room rfl (by decide) (by decide)
  refine ⟨first, ?_, ?_, free.restored Specimen.own⟩
  · exact (free.frames _ _ _ _ decided again).trans first
  · exact (free.thread _ _ _ decided (free.room Specimen.own room)).trans first

end Downcall
end Interop
