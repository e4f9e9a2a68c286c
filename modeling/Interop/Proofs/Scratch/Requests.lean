import Interop.Proofs.Scratch.Session

/-! Several requests to one frame of a scratch stack.
Main statement: `grants_of_room`, that a frame grants every list of requests for which there is room. -/
namespace Interop

/-- A frame grants requests, each a size with an alignment, one below the other. -/
inductive Frame.Grants (frame : Frame) : Scratch → List (Nat × Nat) → Scratch → Prop
  | nil (scratch : Scratch) : Grants frame scratch [] scratch
  | cons {scratch last : Scratch} {size alignment start : Nat} {rest : List (Nat × Nat)}
      (reserved : scratch.reserve frame size alignment = .ok start)
      (others : Grants frame { scratch with pointer := start } rest last) :
      Grants frame scratch ((size, alignment) :: rest) last

namespace Frame.Grants

variable {frame : Frame} {scratch last : Scratch}

theorem pointer_le {requests : List (Nat × Nat)} (granted : frame.Grants scratch requests last) :
    last.pointer ≤ scratch.pointer := by
  induction granted with
  | nil => exact Nat.le_refl _
  | cons reserved _ ih =>
    obtain ⟨_, _, below⟩ := Scratch.placed_of_reserve reserved
    exact ih.trans ((Nat.le_add_right _ _).trans below)

theorem split {first second : List (Nat × Nat)} (granted : frame.Grants scratch (first ++ second) last) :
    ∃ between, frame.Grants scratch first between ∧ frame.Grants between second last := by
  induction first generalizing scratch with
  | nil => exact ⟨scratch, .nil scratch, granted⟩
  | cons request rest ih =>
    cases granted with
    | cons reserved others =>
      obtain ⟨between, before, after⟩ := ih others
      exact ⟨between, .cons reserved before, after⟩

theorem append {between : Scratch} {first second : List (Nat × Nat)} (before : frame.Grants scratch first between)
    (after : frame.Grants between second last) : frame.Grants scratch (first ++ second) last := by
  induction before with
  | nil => exact after
  | cons reserved _ ih => exact .cons reserved (ih after)

theorem unique {other : Scratch} {requests : List (Nat × Nat)} (granted : frame.Grants scratch requests last)
    (again : frame.Grants scratch requests other) : last = other := by
  induction granted with
  | nil =>
    cases again
    rfl
  | cons reserved _ ih =>
    cases again with
    | cons same others =>
      cases reserved.symm.trans same
      exact ih others

theorem innermost {requests : List (Nat × Nat)} (granted : frame.Grants scratch requests last)
    (some : requests ≠ []) : scratch.depth = frame.depth := by
  cases granted with
  | nil => exact absurd rfl some
  | cons reserved _ => exact (Scratch.reserve_eq_ok_iff.mp reserved).2.1

end Frame.Grants

theorem Machine.onStore_of_ok {World ε α : Type} {action : EStateM ε Store α} {machine : Machine World}
    {store : Store} {result : α} (ok : action machine.store = .ok result store) :
    onStore action machine = .ok result { machine with store } := by
  simp only [onStore, ok]

namespace Scratch

theorem allocate_of_reserve {World : Type} {frame : Frame} {size alignment start : Nat} {machine : Machine World}
    (reserved : machine.scratch.reserve frame size alignment = .ok start) :
    allocate frame size alignment machine = .ok (.atAddress start size true)
      { machine with
        store := machine.store.fill start size 0
        scratch := { machine.scratch with pointer := start } } :=
  allocate_eq_ok_iff.mpr ⟨start, reserved, rfl, rfl⟩

/-- The most that requests can take up, each with the bytes that its alignment may leave unused. -/
def demand : (requests : List (Nat × Nat)) → Nat
  | [] => 0
  | (size, alignment) :: rest => size + (alignment - 1) + demand rest

private theorem reserve_of_room {scratch : Scratch} {frame : Frame} {size alignment : Nat}
    (innermost : scratch.depth = frame.depth) (power : alignment.isPowerOfTwo)
    (room : scratch.bottom + (size + (alignment - 1)) ≤ scratch.pointer) :
    ∃ start, scratch.reserve frame size alignment = .ok start ∧
      scratch.pointer ≤ start + (size + (alignment - 1)) := by
  have remainder := Nat.mod_lt (scratch.pointer - size) (Nat.pos_of_isPowerOfTwo power)
  have rounded := Alignment.backward_eq power (scratch.pointer - size)
  have fits : size ≤ scratch.pointer := by omega
  have above : scratch.bottom ≤ Alignment.backward (scratch.pointer - size) alignment := by omega
  refine ⟨_, reserve_eq_ok_iff.mpr ⟨power, innermost, place?_eq_some_iff.mpr ⟨fits, rfl, above⟩⟩, ?_⟩
  omega

/-- The innermost frame grants all requests if their sizes and their padding fit below the pointer. -/
theorem grants_of_room {scratch : Scratch} {frame : Frame} {requests : List (Nat × Nat)}
    (innermost : scratch.depth = frame.depth) (powers : ∀ request ∈ requests, request.2.isPowerOfTwo)
    (room : scratch.bottom + demand requests ≤ scratch.pointer) :
    ∃ last, frame.Grants scratch requests last := by
  induction requests generalizing scratch with
  | nil => exact ⟨scratch, .nil scratch⟩
  | cons request rest ih =>
    obtain ⟨power, others⟩ := List.forall_mem_cons.mp powers
    have total : demand (request :: rest) = request.1 + (request.2 - 1) + demand rest := rfl
    have first : scratch.bottom + (request.1 + (request.2 - 1)) ≤ scratch.pointer := by omega
    obtain ⟨start, reserved, near⟩ := reserve_of_room innermost power first
    have left : scratch.bottom + demand rest ≤ start := by omega
    obtain ⟨last, granted⟩ := @ih { scratch with pointer := start } innermost others left
    exact ⟨last, .cons reserved granted⟩

end Scratch
end Interop
