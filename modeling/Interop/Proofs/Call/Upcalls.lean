import Interop.Proofs.Call.ReturnBuffer

/-! Calls from native code into a handler, with any arguments, whatever the handler gives.
Main statement: `call_concludes`, that such a call always has arguments to run with and leaves a defined result. -/
namespace Interop
open Outcome

namespace UpcallHandler

variable {World : Type}

private theorem liftArguments_total (handler : UpcallHandler World) {types : List AbiType} {pointers : List Nat}
    (length : pointers.length = types.length) (store : Store) (index : Nat) :
    ∃ values, handler.liftArguments store index (types.zip pointers) = .ok values ∧
      List.Forall₂ (fun passed value => passed.1.lift (.atAddress passed.2 passed.1.width false) 0 store = .ok value)
        (types.zip pointers) values := by
  -- Every pointer leads to a value of its type, for all byte strings of a width stand for one.
  induction types generalizing pointers index with
  | nil => exact ⟨[], rfl, .nil⟩
  | cons type types ih =>
    cases pointers with
    | nil => cases length
    | cons pointer pointers =>
      obtain ⟨value, stands⟩ := type.valueOfBytes_eq_ok (store.read pointer type.width)
      have lifted : type.lift (.atAddress pointer type.width false) 0 store = .ok value :=
        AbiType.lift_eq_ok rfl (Nat.le_of_eq (Nat.zero_add _)) stands
      obtain ⟨values, others, each⟩ := ih (Nat.succ.inj length) (index + 1)
      refine ⟨value :: values, ?_, .cons lifted each⟩
      simp only [List.zip_cons_cons, liftArguments, lifted, mapError_ok, ok_bind, others]

/-- How a call ends whose handler gave an optional value, and what is in the result buffer then. -/
inductive Concludes (handler : UpcallHandler World) (result : Nat) (before : Store) (given : Option Value) :
    EStateM.Result CallError Store Unit → Prop
  | void (nothing : handler.signature.result = none) : Concludes handler result before given (.ok () before)
  | value {type : AbiType} {value : Value} {after : Store}
      (declared : handler.signature.result = some type) (same : given = some value) (admitted : type.Admits value)
      (native : type.nativeBytes handler.signature.narrowing value = .ok (after.read result type.width))
      (kept : ∀ address, ¬ (resultBuffer type result).Covers address → after.byteAt address = before.byteAt address) :
      Concludes handler result before given (.ok () after)
  | zero {type : AbiType} {error : MarshalError} {after : Store}
      (declared : handler.signature.result = some type) (other : ∀ value, given = some value → ¬ type.Admits value)
      (zeroed : after.read result (max type.width Signature.registerWidth) =
        List.replicate (max type.width Signature.registerWidth) 0)
      (kept : ∀ address, ¬ (resultBuffer type result).Covers address → after.byteAt address = before.byteAt address) :
      Concludes handler result before given (.error (.result handler.name error) after)

private theorem storeResult_concludes {handler : UpcallHandler World} (described : handler.signature.Described .host)
    (result : Nat) (given : Option Value) (store : Store) :
    handler.Concludes result store given (handler.storeResult result given store) := by
  cases declared : handler.signature.result with
  | none =>
    have untouched : handler.storeResult result given store = .ok () store := by
      simp only [storeResult, declared]
      rfl
    rw [untouched]
    exact .void declared
  | some type =>
    have kept (address : Nat) (outside : ¬ (resultBuffer type result).Covers address) :
        (left (handler.storeResult result given store)).byteAt address = store.byteAt address := by
      refine storeResult_kept (fun _ => described.platform_of_result) result given store ?_
      intro other same
      cases declared.symm.trans same
      exact outside
    obtain ⟨value, bytes, same, admitted, stored, written⟩ | ⟨other, error, zeroed⟩ :=
      storeResult_cases declared (described.platform_of_result declared) result given store
    · rw [written] at kept ⊢
      have whole : type.width ≤ bytes.length := stored.length ▸ type.width_le_resultWidth
      refine .value declared same admitted ?_ kept
      rw [store.read_write_of_le result whole]
      exact stored.native
    · rw [zeroed] at kept ⊢
      exact .zero declared other (Store.read_fill_of_le _ _ (Nat.le_refl _) _) kept

/-- A handler on the host is run exactly once, on a value for each parameter, which is what lies at the pointer that was
passed for it. Its caller then finds the native bytes of what it gave, or nothing but zeros in the whole buffer and the
error of a wrong result; the arguments are never the error. All other memory is as the handler left it. -/
theorem call_concludes {handler : UpcallHandler World} (described : handler.signature.Described .host)
    {arguments : List Nat} (length : arguments.length = handler.signature.arity) (result : Nat)
    (before : Surroundings World) :
    (∀ name index error after, handler.call arguments result before ≠ .error (.argument name index error) after) ∧
    ∃ values given inside ended,
      values.length = handler.signature.arity ∧
      List.Forall₂ (fun passed value =>
          passed.1.lift (.atAddress passed.2 passed.1.width false) 0 before.store = .ok value)
        (handler.signature.params.zip arguments) values ∧
      (handler.respond values).run before = (given, inside) ∧
      handler.Concludes result inside.store given ended ∧
      handler.call arguments result before = onState (fun store => ⟨store, inside.world⟩) ended := by
  obtain ⟨values, lifted, each⟩ := handler.liftArguments_total length before.store 0
  have count : values.length = handler.signature.arity := by
    rw [← each.length_eq, List.length_zip, length]
    exact Nat.min_self _
  cases responded : (handler.respond values).run before with
  | mk given inside =>
    have concludes := storeResult_concludes described result given inside.store
    have called : handler.call arguments result before =
        onState (fun store => ⟨store, inside.world⟩) (handler.storeResult result given inside.store) := by
      simp only [call, lifted, responded]
      cases handler.storeResult result given inside.store <;> rfl
    refine ⟨?_, values, given, inside, _, count, each, responded, concludes, called⟩
    intro name index error after failed
    rw [called] at failed
    generalize handler.storeResult result given inside.store = ended at concludes failed
    cases concludes <;> cases failed

def careless : UpcallHandler (List (List Value)) where
  name := "careless"
  signature := Downcall.specimenSignature
  respond values := fun before =>
    (some (.f32 ⟨0x3f800000⟩), ⟨before.store.write 256 [1], before.world ++ [values]⟩)

theorem call_concludes_careless :
    ∃ error after, careless.call [64] 128 ⟨Store.initial.fill 128 8 0xaa, []⟩ = .error (.result "careless" error) after ∧
      after.world = [[.i64 0]] ∧ after.store.byteAt 256 = 1 ∧ after.store.read 128 8 = List.replicate 8 0 := by
  have resolved : Signature.resolve [.scalar .long] (some (.scalar .i16)) .host =
      .ok Downcall.specimenSignature := rfl
  have described : careless.signature.Described .host := .resolve resolved
  have length : [64].length = careless.signature.arity := rfl
  obtain ⟨_, values, given, inside, ended, _, each, responded, concludes, called⟩ :=
    call_concludes described length 128 ⟨Store.initial.fill 128 8 0xaa, []⟩
  obtain ⟨value, rest, lifted, none, rfl⟩ := List.forall₂_cons_left_iff.mp each
  obtain rfl := List.forall₂_nil_left_iff.mp none
  have zero : AbiType.lift ⟨.scalar .long, .host⟩ (.atAddress 64 8 false) 0 (Store.initial.fill 128 8 0xaa) =
      .ok (.i64 0) := by cbv
  cases zero.symm.trans lifted
  cases responded
  cases concludes with
  | void nothing => cases nothing
  | value declared same admitted =>
    cases declared
    cases same
    cases admitted.1
  | zero declared _ zeroed kept =>
    cases declared
    have other : ¬ (resultBuffer ⟨.scalar .i16, .host⟩ 128).Covers 256 := fun covered =>
      absurd covered.2 (by decide)
    exact ⟨_, _, called, rfl, kept 256 other, zeroed⟩

end UpcallHandler
end Interop
