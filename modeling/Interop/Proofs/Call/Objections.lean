import Interop.Proofs.Call.AllOrNothing
import Interop.Proofs.Marshal.Host

/-! The error of a call as far as its arguments decide it: their number first, then the first that has no native bytes.
Main statement: `invokeIn_cases`, that a call either enters native code, or fails with that error or for want of scratch
memory. -/
namespace Interop
open Outcome

namespace AbiType

theorem lower_slot {type : AbiType} {policy : Narrowing} {value : Value} {size : Nat} (room : type.width ≤ size)
    (start : Nat) (store : Store) :
    type.lower policy (.atAddress start size true) 0 value store =
      match type.nativeBytes policy value with
      | .ok bytes => .ok () (store.write start bytes)
      | .error error => .error error store := by
  cases converted : type.nativeBytes policy value with
  | ok bytes =>
    refine lower_eq_ok rfl converted ?_ store
    rw [(valueOf_nativeBytes converted).1, Nat.zero_add]
    exact room
  | error error => exact Downcall.lower_of_nativeBytes_error converted _ _ _

private theorem nativeBytes_of_lower_error {type : AbiType} {policy : Narrowing} {value : Value} {error : MarshalError}
    {start size : Nat} (room : type.width ≤ size)
    (refused : ∀ store, type.lower policy (.atAddress start size true) 0 value store = .error error store) :
    type.nativeBytes policy value = .error error := by
  have slot := refused .initial
  rw [lower_slot room] at slot
  cases converted : type.nativeBytes policy value with
  | ok bytes =>
    rw [converted] at slot
    cases slot
  | error other =>
    rw [converted] at slot
    cases slot
    rfl

private theorem Converts.nativeBytes {type : AbiType} {policy : Narrowing} {value : Value}
    (converts : type.Converts policy value) : ∃ bytes, type.nativeBytes policy value = .ok bytes := by
  obtain ⟨_, converted⟩ | ⟨_, _, unconvertible⟩ := type.nativeBytes_cases policy value
  · exact converted
  · exact absurd converts unconvertible.not_converts

end AbiType
namespace Downcall

variable {World : Type}

def unconverted (downcall : Downcall World) : (index : Nat) → List (AbiType × Value) → Option CallError
  | _, [] => none
  | index, (type, value) :: rest =>
    match type.nativeBytes downcall.signature.narrowing value with
    | .error error => some (.argument downcall.name index error)
    | .ok _ => downcall.unconverted (index + 1) rest

/-- The error that a call owes to its arguments alone, wherever it finds its scratch memory. -/
def objection (downcall : Downcall World) (args : List Value) : Option CallError :=
  match downcall.checkArity args with
  | .error error => some error
  | .ok () => downcall.unconverted 0 (downcall.signature.params.zip args)

def HasRoom (downcall : Downcall World) (frame : Frame) (scratch : Scratch) : Prop :=
  ∃ last, frame.Grants scratch downcall.requests last

variable {downcall : Downcall World} {frame : Frame} {args : List Value}

private theorem unconverted_of_converts {types : List AbiType} {values : List Value}
    (converts : List.Forall₂ (·.Converts downcall.signature.narrowing ·) types values) (index : Nat) :
    downcall.unconverted index (types.zip values) = none := by
  induction converts generalizing index with
  | nil => rfl
  | cons first _ ih =>
    obtain ⟨bytes, converted⟩ := first.nativeBytes
    simp only [List.zip_cons_cons, unconverted, converted]
    exact ih (index + 1)

private theorem Stops.cases {index : Nat} {scratch : Scratch} {pairs : List (AbiType × Value)} {error : CallError}
    (stops : downcall.Stops frame index scratch pairs error) :
    downcall.unconverted index pairs = some error ∨ (∃ reason, error = .scratch downcall.name reason) ∧
      ∀ rest last, ¬ frame.Grants scratch (pairs.map (slotRequest ·.1) ++ rest) last := by
  induction stops with
  | slot refused =>
    refine .inr ⟨⟨_, rfl⟩, ?_⟩
    intro rest last granted
    cases granted with
    | cons reserved _ => cases refused.symm.trans reserved
  | value _ refused =>
    have failed := AbiType.nativeBytes_of_lower_error (Nat.le_max_left _ _) refused
    exact .inl (by simp only [unconverted, failed])
  | later reserved converts _ ih =>
    obtain ⟨bytes, converted⟩ := converts.nativeBytes
    obtain found | ⟨scratch, missing⟩ := ih
    · exact .inl (by simpa only [unconverted, converted] using found)
    · refine .inr ⟨scratch, ?_⟩
      intro rest last granted
      cases granted with
      | cons again others =>
        cases reserved.symm.trans again
        exact missing rest last others

private theorem objection_of_callable {scratch : Scratch} (callable : downcall.Callable frame scratch args) :
    downcall.objection args = none := by
  have checked : downcall.checkArity args = .ok () := if_pos callable.arity
  simp only [objection, checked]
  exact unconverted_of_converts callable.converts 0

theorem objection_of_admits (hosted : ∀ type ∈ downcall.signature.params, type.platform = .host)
    (admitted : List.Forall₂ AbiType.Admits downcall.signature.params args) : downcall.objection args = none := by
  have checked : downcall.checkArity args = .ok () := if_pos admitted.length_eq.symm
  have converts : List.Forall₂ (·.Converts downcall.signature.narrowing ·) downcall.signature.params args := by
    refine ((List.forall₂_and_left _ _).mpr ⟨hosted, admitted⟩).imp ?_
    rintro type value ⟨host, admits⟩
    exact ⟨admits, .inl (AbiType.holds_on_host host admits)⟩
  simp only [objection, checked]
  exact unconverted_of_converts converts 0

private theorem Refuses.cases {scratch : Scratch} {error : CallError}
    (refuses : downcall.Refuses frame scratch args error) :
    downcall.objection args = some error ∨
      (∃ reason, error = .scratch downcall.name reason) ∧ ¬ downcall.HasRoom frame scratch := by
  cases refuses with
  | arity other =>
    have checked : downcall.checkArity args =
        .error (.arityMismatch downcall.name downcall.signature.arity args.length) := if_neg other
    exact .inl (by simp only [objection, checked])
  | argument arity stops =>
    have checked : downcall.checkArity args = .ok () := if_pos arity
    obtain found | ⟨scratch, missing⟩ := stops.cases
    · exact .inl (by simpa only [objection, checked] using found)
    · refine .inr ⟨scratch, ?_⟩
      rintro ⟨last, granted⟩
      refine missing [(downcall.signature.resultBufferSize, resultAlignment)] last ?_
      have types : (downcall.signature.params.zip args).map Prod.fst = downcall.signature.params :=
        List.map_fst_zip (Nat.le_of_eq arity.symm)
      rwa [← Function.comp_def slotRequest Prod.fst, ← List.map_map, types]
  | buffer _ granted refused => exact .inr ⟨⟨_, rfl⟩, not_granted_of_buffer granted refused⟩

private theorem unconverted_eq_some {index : Nat} {pairs : List (AbiType × Value)} {error : CallError}
    (found : downcall.unconverted index pairs = some error) :
    ∃ place source, error = .argument downcall.name place source := by
  induction pairs generalizing index with
  | nil => cases found
  | cons pair rest ih =>
    rw [unconverted] at found
    split at found
    next source _ =>
      cases found
      exact ⟨index, source, rfl⟩
    next => exact ih found

theorem objection_eq_some {error : CallError} (found : downcall.objection args = some error) :
    error = .arityMismatch downcall.name downcall.signature.arity args.length ∨
      ∃ place source, error = .argument downcall.name place source := by
  rw [objection, checkArity] at found
  split at found
  next refused =>
    split at refused
    next => cases refused
    next =>
      cases refused
      cases found
      exact .inl rfl
  next => exact .inr (unconverted_eq_some found)

theorem error_of_finish {buffer : View} {ready : Machine World} {after : Surroundings World} {error : CallError}
    (failed : answer (downcall.finish buffer ready after) = .error error) :
    ∃ source, error = .result downcall.name source := by
  unfold finish at failed
  split at failed
  next => cases failed
  next source _ =>
    cases failed
    exact ⟨source, rfl⟩

theorem invokeIn_cases (downcall : Downcall World) (frame : Frame) (args : List Value) (machine : Machine World) :
    (∃ prepared ready, downcall.prepare frame args machine = .ok prepared ready ∧ downcall.objection args = none ∧
      downcall.Delivers machine.scratch args (prepared.slots.map (·.start)) prepared.buffer.start ready.store ∧
      machine.Lends ready) ∨
    ∃ error after, downcall.invokeIn frame args machine = .error error after ∧ machine.Lends after ∧
      (downcall.objection args = some error ∨
        (∃ reason, error = .scratch downcall.name reason) ∧ ¬ downcall.HasRoom frame machine.scratch) := by
  obtain ⟨prepared, ready, callable, prepares, lends, delivers⟩ | ⟨error, after, _, refused, lends, refuses, _⟩ :=
    downcall.prepare_cases frame args machine
  · exact .inl ⟨prepared, ready, prepares, objection_of_callable callable, delivers, lends⟩
  · exact .inr ⟨error, after, run_bind_of_error refused, lends, refuses.cases⟩

end Downcall
end Interop
