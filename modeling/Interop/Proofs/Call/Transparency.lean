import Interop.Proofs.Call.Preparation
import Interop.Proofs.Call.Result
import Interop.Proofs.Marshal.Resolution

/-! Calls that enter a handler: it runs once, on the arguments of the call, and the call returns what it gave.
Main statement: `invokeIn_transparent`, for every trampoline that copies arguments in and the result out, and every
handler, whatever memory it reads or writes. -/
namespace Interop
open Outcome

def Store.AgreesOutside (memory : Nat → Prop) (first second : Store) : Prop :=
  ∀ address, ¬ memory address → first.byteAt address = second.byteAt address

namespace UpcallHandler

variable {World : Type}

/-- The bytes that native code keeps for the result of a handler, if it has one. -/
def ResultBytes (handler : UpcallHandler World) (pointer address : Nat) : Prop :=
  ∃ type, handler.signature.result = some type ∧ (resultBuffer type pointer).Covers address

/-- One way through a trampoline into a handler: the arguments are copied, and the caller finds in its buffer what the
handler has left in a register. Nothing else is written but the trampoline's own memory. -/
structure Passage (handler : UpcallHandler World) (own : Nat → Prop) (code : NativeCode World) (slots : List Nat)
    (result : Nat) (before : Surroundings World) where
  copies : List Nat
  register : Nat
  inside : Surroundings World
  copied : argumentBytes handler.signature.params copies inside.store =
    argumentBytes handler.signature.params slots before.store
  untouched : inside.world = before.world
  kept : before.store.AgreesOutside own inside.store
  held : ∀ address, handler.ResultBytes register address → own address
  entered : (code.enter slots result before).world = (handler.code.enter copies register inside).world
  returned : ∀ type, handler.signature.result = some type →
    (code.enter slots result before).store.read result type.resultWidth =
      (handler.code.enter copies register inside).store.read register type.resultWidth
  unwritten : (handler.code.enter copies register inside).store.AgreesOutside
    (fun address => own address ∨ handler.ResultBytes result address) (code.enter slots result before).store

/-- Native code with memory of its own that enters a handler, exactly once, however it is called. -/
def Trampoline (handler : UpcallHandler World) (own : Nat → Prop) (code : NativeCode World) : Prop :=
  ∀ slots result before, slots.length = handler.signature.arity →
    Nonempty (handler.Passage own code slots result before)

def packed : (start : Nat) → List AbiType → List Nat
  | _, [] => []
  | start, type :: rest => start :: packed (start + type.width) rest

def packedWidth : List AbiType → Nat
  | [] => 0
  | type :: rest => type.width + packedWidth rest

private theorem argumentBytes_packed {types : List AbiType} {slots : List Nat} (length : slots.length = types.length)
    {start count : Nat} {before inside : Store}
    (written : inside.read start count = (argumentBytes types slots before).flatten) :
    argumentBytes types (packed start types) inside = argumentBytes types slots before := by
  induction types generalizing slots start count with
  | nil => rfl
  | cons type types ih =>
    cases slots with
    | nil => cases length
    | cons slot slots =>
      rw [argumentBytes_cons, List.flatten_cons] at written
      obtain ⟨first, rest⟩ := Store.read_eq_append written
      rw [Store.length_read] at first rest
      rw [packed, argumentBytes_cons, argumentBytes_cons, first, ih (Nat.succ.inj length) rest]

def withCopies (handler : UpcallHandler World) (area : Nat) (slots : List Nat) (before : Surroundings World) :
    Surroundings World :=
  let passed := argumentBytes handler.signature.params slots before.store
  { before with store := before.store.write area passed.flatten }

/-- A trampoline with an area for its copies of the arguments and a register for the result. -/
def relay (handler : UpcallHandler World) (area register : Nat) : NativeCode World where
  enter slots result before :=
    let after := handler.code.enter (packed area handler.signature.params) register
      (handler.withCopies area slots before)
    match handler.signature.result with
    | none => after
    | some type => { after with store := after.store.copy register result type.resultWidth }

def relayMemory (handler : UpcallHandler World) (area register address : Nat) : Prop :=
  (View.atAddress area (packedWidth handler.signature.params) true).Covers address ∨
    handler.ResultBytes register address

private theorem length_flatten_argumentBytes_le (types : List AbiType) (pointers : List Nat) (store : Store) :
    (argumentBytes types pointers store).flatten.length ≤ packedWidth types := by
  induction types generalizing pointers with
  | nil => exact Nat.le_refl _
  | cons type types ih =>
    cases pointers with
    | nil => exact Nat.zero_le _
    | cons pointer pointers =>
      rw [argumentBytes_cons, List.flatten_cons, List.length_append, Store.length_read]
      exact Nat.add_le_add_left (ih pointers) _

private theorem withCopies_agrees (handler : UpcallHandler World) (area register : Nat) (slots : List Nat)
    (before : Surroundings World) :
    before.store.AgreesOutside (handler.relayMemory area register) (handler.withCopies area slots before).store := by
  intro address outside
  have short := length_flatten_argumentBytes_le handler.signature.params slots before.store
  have apart : ¬ (area ≤ address ∧ address < area + packedWidth handler.signature.params) :=
    fun covered => outside (.inl covered)
  exact (Store.byteAt_write_of_outside _ _ _ (by omega)).symm

theorem trampoline_relay (handler : UpcallHandler World) (area register : Nat) :
    handler.Trampoline (handler.relayMemory area register) (handler.relay area register) := by
  intro slots result before length
  refine ⟨⟨packed area handler.signature.params, register, handler.withCopies area slots before,
    argumentBytes_packed length (Store.read_write before.store area _), rfl, handler.withCopies_agrees area register _ _,
    fun _ => .inr, ?_, ?_, ?_⟩⟩
  · cases declared : handler.signature.result <;> simp only [relay, declared]
  · intro type declared
    simp only [relay, declared]
    exact Store.read_copy _ _ _ _
  · intro address outside
    cases declared : handler.signature.result with
    | none => simp only [relay, declared]
    | some type =>
      simp only [relay, declared]
      have narrow := type.resultWidth_le
      have apart : ¬ (result ≤ address ∧ address < result + max type.width Signature.registerWidth) :=
        fun covered => outside (.inr ⟨type, declared, covered⟩)
      exact (Store.byteAt_copy_of_outside _ (by omega)).symm

private theorem enter_eq {handler : UpcallHandler World} {pointers : List Nat} {inside responded : Surroundings World}
    {values : List Value} {given : Option Value}
    (represents : Represents handler.signature.params (argumentBytes handler.signature.params pointers inside.store)
      values)
    (response : (handler.respond values).run inside = (given, responded)) (register : Nat) :
    handler.code.enter pointers register inside =
      ⟨left (handler.storeResult register given responded.store), responded.world⟩ := by
  simp only [code, call, handler.liftArguments_eq represents 0, response]
  cases handler.storeResult register given responded.store <;> rfl

private theorem Passage.answers {handler : UpcallHandler World} {own : Nat → Prop} {code : NativeCode World}
    {slots : List Nat} {result : Nat} {before responded : Surroundings World}
    (passage : handler.Passage own code slots result before)
    (hosted : ∀ type, handler.signature.result = some type → type.platform = .host) {values : List Value}
    (represents : Represents handler.signature.params (argumentBytes handler.signature.params slots before.store)
      values)
    {given : Option Value} (response : (handler.respond values).run passage.inside = (given, responded)) :
    (code.enter slots result before).world = responded.world ∧
      responded.store.AgreesOutside (fun address => own address ∨ handler.ResultBytes result address)
        (code.enter slots result before).store ∧
      ∀ type, handler.signature.result = some type → ∃ value,
        type.valueOfResult ((code.enter slots result before).store.read result type.resultWidth) = .ok value ∧
        Answers given (some type) (some value) := by
  rw [← passage.copied] at represents
  have entered := enter_eq represents response passage.register
  refine ⟨?_, ?_, ?_⟩
  · rw [passage.entered, entered]
  · intro address outside
    rw [← passage.unwritten address outside, entered]
    refine (storeResult_kept hosted _ _ _ ?_).symm
    intro type declared covered
    exact outside (.inl (passage.held address ⟨type, declared, covered⟩))
  · intro type declared
    rw [passage.returned type declared, entered]
    exact storeResult_answers declared (hosted type declared) _ _ _

private theorem within_of_resultBytes {handler : UpcallHandler World} {signature : Signature}
    (same : handler.signature.result = signature.result) {pointer top : Nat}
    (room : pointer + signature.resultBufferSize ≤ top) {address : Nat}
    (bytes : handler.ResultBytes pointer address) : pointer ≤ address ∧ address < top := by
  obtain ⟨type, declared, above, below⟩ := bytes
  have size := Signature.resultBuffer_le (same.symm.trans declared)
  simp only [resultBuffer, View.atAddress] at above below
  omega

end UpcallHandler

namespace Downcall

variable {World : Type}

private theorem invokeIn_of_prepare {downcall : Downcall World} {frame : Frame} {args : List Value}
    {machine between : Machine World} {prepared : Prepared} {after : Surroundings World} {returned : Option Value}
    (ready : downcall.prepare frame args machine = .ok prepared between)
    (entered : downcall.code.enter (prepared.slots.map (·.start)) prepared.buffer.start
      ⟨between.store, between.world⟩ = after)
    (lifted : downcall.signature.liftResult prepared.buffer after.store = .ok returned) :
    downcall.invokeIn frame args machine =
      .ok returned { between with store := after.store, world := after.world } := by
  subst entered
  refine (run_bind_of_ok ready).trans ((run_bind_of_ok rfl).trans (Machine.onStore_of_ok ?_))
  simp only [Store.observe, lifted]
  rfl

/-- The memory that a call works with: the scratch memory that it is given, and what belongs to a trampoline. -/
def WorkingMemory (own : Nat → Prop) (before last : Scratch) (address : Nat) : Prop :=
  own address ∨ last.pointer ≤ address ∧ address < before.pointer

/-- A call into a handler of the same signature runs it once, on the arguments of the call, and returns the value that
it gave, or zeros if that is not of the result type. The handler finds all memory that the call does not work with as it
was before the call, and the caller finds it as the handler leaves it. -/
theorem invokeIn_transparent {params : List NativeType} {result : Option NativeType} {signature : Signature}
    (resolved : Signature.resolve params result .host = .ok signature) {downcall : Downcall World}
    {handler : UpcallHandler World} {policy other : Narrowing}
    (calling : downcall.signature = signature.withNarrowing policy)
    (called : handler.signature = signature.withNarrowing other) {own : Nat → Prop}
    (trampoline : handler.Trampoline own downcall.code)
    {args : List Value} (admitted : List.Forall₂ AbiType.Admits signature.params args) {frame : Frame}
    {machine : Machine World} {last : Scratch}
    (granted : frame.Grants machine.scratch downcall.requests last) :
    ∃ inside given responded returned after,
      inside.world = machine.world ∧
      machine.store.AgreesOutside (WorkingMemory own machine.scratch last) inside.store ∧
      (handler.respond args).run inside = (given, responded) ∧
      downcall.invokeIn frame args machine = .ok returned after ∧
      after.world = responded.world ∧
      responded.store.AgreesOutside (WorkingMemory own machine.scratch last) after.store ∧
      Answers given signature.result returned := by
  obtain ⟨hosted, resultHosted⟩ := Signature.platform_of_resolve resolved
  have exact : List.Forall₂ (·.Exact downcall.signature.narrowing ·) downcall.signature.params args := by
    rw [calling]
    exact AbiType.forall₂_exact_on_host hosted admitted policy
  obtain ⟨slots, store, ready, count, represents⟩ := prepare_granted exact granted
  obtain ⟨lends, delivers⟩ := delivers_of_prepare ready
  have buffer := delivers.within _ (List.mem_append_right _ (List.mem_singleton_self _))
  have same : downcall.signature.params = handler.signature.params := by rw [calling, called]; rfl
  have callerResult : downcall.signature.result = signature.result := by rw [calling]; rfl
  have handlerResult : handler.signature.result = signature.result := by rw [called]; rfl
  have lent : ∀ {address}, handler.ResultBytes last.pointer address →
      last.pointer ≤ address ∧ address < machine.scratch.pointer :=
    UpcallHandler.within_of_resultBytes (handlerResult.trans callerResult.symm) buffer.2
  rw [same] at represents
  obtain ⟨passage⟩ := trampoline (slots.map (·.start)) last.pointer ⟨store, machine.world⟩
    (by rw [List.length_map, count, Signature.arity, same]; rfl)
  cases response : (handler.respond args).run passage.inside with
  | mk given responded =>
    obtain ⟨world, agrees, answered⟩ :=
      passage.answers (fun type declared => resultHosted type (handlerResult.symm.trans declared)) represents response
    have found : machine.store.AgreesOutside (WorkingMemory own machine.scratch last) passage.inside.store := by
      intro address outside
      rw [← passage.kept address fun owned => outside (.inl owned)]
      have unlent : ¬ (last.pointer ≤ address ∧ address < machine.scratch.pointer) := fun used => outside (.inr used)
      exact (lends.kept address (by dsimp only; omega)).symm
    have left : responded.store.AgreesOutside (WorkingMemory own machine.scratch last)
        (downcall.code.enter (slots.map (·.start)) last.pointer ⟨store, machine.world⟩).store := by
      intro address outside
      exact agrees address fun used => outside (used.imp_right lent)
    cases declared : signature.result with
    | none =>
      refine ⟨passage.inside, given, responded, none, _, passage.untouched, found, response,
        invokeIn_of_prepare ready rfl ?_, world, left, .void⟩
      rw [Signature.liftResult, callerResult, declared]
    | some type =>
      obtain ⟨value, stands, answers⟩ := answered type (handlerResult.trans declared)
      refine ⟨passage.inside, given, responded, some value, _, passage.untouched, found, response,
        invokeIn_of_prepare ready rfl ?_, world, left, answers⟩
      have returned := callerResult.trans declared
      rw [Signature.liftResult_eq returned rfl (Signature.resultWidth_le_resultBufferSize returned)]
      exact congrArg (some <$> ·) stands

def specimenSignature : Signature := ⟨[⟨.scalar .long, .host⟩], some ⟨.scalar .i16, .host⟩, .host, .checked⟩

def recorder : UpcallHandler (List (List Value × UInt8)) where
  name := "recorder"
  signature := specimenSignature
  respond values := fun before =>
    (some (.i16 (-2)), ⟨before.store.write 256 [9], before.world ++ [(values, before.store.byteAt 256)]⟩)

def specimen : Downcall (List (List Value × UInt8)) :=
  ⟨"specimen", specimenSignature, recorder.relay 64 128⟩

/-- A negative short comes back from a handler that is called once, in a frame of sixty-four bytes. It reads the byte
that its caller has written, and its caller finds the one that it writes. -/
theorem invokeIn_transparent_recorder :
    ∃ after, specimen.invokeIn ⟨4160, 1⟩ [.i64 7] ⟨Store.initial.write 256 [5], ⟨4096, 4160, 4160, 1⟩, []⟩ =
        .ok (some (.i16 (-2))) after ∧ after.world = [([.i64 7], 5)] ∧ after.store.byteAt 256 = 9 := by
  have resolved : Signature.resolve [.scalar .long] (some (.scalar .i16)) .host = .ok specimenSignature := rfl
  have calling : specimen.signature = specimenSignature.withNarrowing .checked := rfl
  have called : recorder.signature = specimenSignature.withNarrowing .checked := rfl
  have admitted : List.Forall₂ AbiType.Admits specimenSignature.params [.i64 7] :=
    .cons (AbiType.admits_scalar.mpr rfl) .nil
  have granted : Frame.Grants ⟨4160, 1⟩ ⟨4096, 4160, 4160, 1⟩ specimen.requests ⟨4096, 4160, 4128, 1⟩ :=
    @Frame.Grants.cons _ _ _ _ _ 4152 _ rfl (@Frame.Grants.cons _ _ _ _ _ 4128 _ rfl (.nil _))
  have outside : ¬ WorkingMemory (recorder.relayMemory 64 128) ⟨4096, 4160, 4160, 1⟩ ⟨4096, 4160, 4128, 1⟩ 256 := by
    rintro ((copies | ⟨type, declared, register⟩) | scratch)
    · exact absurd copies.2 (by decide)
    · cases declared
      exact absurd register.2 (by decide)
    · exact absurd scratch.1 (by decide)
  obtain ⟨inside, given, responded, returned, after, world, found, response, run, noted, agrees, answers⟩ :=
    @invokeIn_transparent _ _ _ _ resolved _ _ _ _ calling called _
      (UpcallHandler.trampoline_relay _ 64 128) _ admitted _ ⟨Store.initial.write 256 [5], _, []⟩ _ granted
  have byte : inside.store.byteAt 256 = 5 := (found 256 outside).symm
  cases response
  cases answers with
  | value same _ =>
    cases same
    refine ⟨after, run, ?_, (agrees 256 outside).symm⟩
    rw [noted, world, byte]
    rfl
  | zero other => exact absurd (AbiType.admits_scalar.mpr rfl) (other _ rfl)

end Downcall
end Interop
