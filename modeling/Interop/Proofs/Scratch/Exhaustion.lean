import Interop.Memory.Reservation
import Interop.Proofs.Number.Masks
import Interop.Proofs.Scratch.Requests
import Interop.Proofs.Scratch.Safety

/-! What becomes of a request for scratch memory: it is granted exactly if there is a place for it.
Main statement: `requests_settled`, for every live frame in the middle of every run. -/
namespace Interop
open Outcome

namespace Scratch

variable {scratch : Scratch} {frame : Frame} {size alignment start : Nat}

/-- Where an allocation would lie at its alignment in what is left of the region, in numbers without bound. -/
def places (scratch : Scratch) (size alignment : Nat) : Set Nat :=
  {start | alignment ∣ start ∧ scratch.bottom ≤ start ∧ start + size ≤ scratch.pointer}

private theorem isGreatest_places (power : alignment.isPowerOfTwo) {place : Nat}
    (fits : place ∈ scratch.places size alignment) :
    IsGreatest (scratch.places size alignment) (Alignment.backward (scratch.pointer - size) alignment) := by
  obtain ⟨⟨divides, below⟩, greatest⟩ := Alignment.backward_isGreatest power (scratch.pointer - size)
  have upper : ∀ other ∈ scratch.places size alignment,
      other ≤ Alignment.backward (scratch.pointer - size) alignment := by
    intro other there
    obtain ⟨multiple, _, ends⟩ := there
    exact greatest ⟨multiple, Nat.le_sub_of_add_le ends⟩
  have least := upper place fits
  obtain ⟨_, above, ends⟩ := fits
  exact ⟨⟨divides, above.trans least, by omega⟩, upper⟩

private theorem place?_eq_some_iff_isGreatest (power : alignment.isPowerOfTwo) :
    scratch.place? size alignment = some start ↔ IsGreatest (scratch.places size alignment) start := by
  rw [place?_eq_some_iff]
  constructor
  · intro placed
    obtain ⟨room, rfl, above⟩ := placed
    obtain ⟨⟨divides, below⟩, _⟩ := Alignment.backward_isGreatest power (scratch.pointer - size)
    exact isGreatest_places power ⟨divides, above, Nat.add_le_of_le_sub room below⟩
  · intro greatest
    obtain ⟨_, above, ends⟩ := greatest.1
    exact ⟨(Nat.le_add_left _ _).trans ends, greatest.unique (isGreatest_places power greatest.1), above⟩

private theorem place?_eq_none_iff (power : alignment.isPowerOfTwo) :
    scratch.place? size alignment = none ↔ ¬ (scratch.places size alignment).Nonempty := by
  rw [Option.eq_none_iff_forall_ne_some]
  constructor
  · intro refused fits
    obtain ⟨place, fits⟩ := fits
    exact refused _ ((place?_eq_some_iff_isGreatest power).mpr (isGreatest_places power fits))
  · intro full start placed
    exact full ⟨start, ((place?_eq_some_iff_isGreatest power).mp placed).1⟩

inductive Answer (scratch : Scratch) (frame : Frame) (size alignment : Nat) : Except MemoryError Nat → Prop
  | invalid (odd : ¬ alignment.isPowerOfTwo) : Answer scratch frame size alignment (.error (.invalidAlignment alignment))
  | inactive (power : alignment.isPowerOfTwo) (outer : scratch.depth ≠ frame.depth) :
    Answer scratch frame size alignment (.error .inactiveFrame)
  | granted (power : alignment.isPowerOfTwo) (innermost : scratch.depth = frame.depth) {start : Nat}
    (highest : IsGreatest (scratch.places size alignment) start) : Answer scratch frame size alignment (.ok start)
  | exhausted (power : alignment.isPowerOfTwo) (innermost : scratch.depth = frame.depth)
    (full : ¬ (scratch.places size alignment).Nonempty) :
    Answer scratch frame size alignment (.error (.stackExhausted size scratch.available))

private theorem answer_reserve (scratch : Scratch) (frame : Frame) (size alignment : Nat) :
    scratch.Answer frame size alignment (scratch.reserve frame size alignment) := by
  unfold reserve
  by_cases power : alignment.isPowerOfTwo
  · rw [checkAlignment_eq_ok_iff.mpr power, ok_bind]
    by_cases innermost : scratch.depth = frame.depth
    · rw [if_neg (not_not.mpr innermost)]
      cases placed : scratch.place? size alignment with
      | some start => exact .granted power innermost ((place?_eq_some_iff_isGreatest power).mp placed)
      | none => exact .exhausted power innermost ((place?_eq_none_iff power).mp placed)
    · rw [if_pos innermost]
      exact .inactive power innermost
  · rw [checkAlignment, if_neg power, error_bind]
    exact .invalid power

namespace Answer

variable {result : Except MemoryError Nat} (answer : scratch.Answer frame size alignment result)
include answer

private theorem invalid_iff : result = .error (.invalidAlignment alignment) ↔ ¬ alignment.isPowerOfTwo := by
  cases answer with
  | invalid odd => simp [odd]
  | inactive power | granted power | exhausted power => simp [power]

private theorem inactive_iff :
    result = .error .inactiveFrame ↔ alignment.isPowerOfTwo ∧ scratch.depth ≠ frame.depth := by
  cases answer with
  | invalid odd => simp [odd]
  | inactive power outer => simp [power, outer]
  | granted _ innermost | exhausted _ innermost => simp [innermost]

private theorem granted_iff : (∃ start, result = .ok start) ↔
    alignment.isPowerOfTwo ∧ scratch.depth = frame.depth ∧ (scratch.places size alignment).Nonempty := by
  cases answer with
  | invalid odd => simp [odd]
  | inactive _ outer => simp [outer]
  | granted power innermost highest => simpa [power, innermost] using ⟨_, highest.1⟩
  | exhausted _ _ full => simp [full]

private theorem isGreatest (given : result = .ok start) : IsGreatest (scratch.places size alignment) start := by
  cases answer with
  | granted _ _ highest =>
    cases given
    exact highest
  | invalid | inactive | exhausted => cases given

private theorem of_full (power : alignment.isPowerOfTwo) (innermost : scratch.depth = frame.depth)
    (full : ¬ (scratch.places size alignment).Nonempty) :
    result = .error (.stackExhausted size (scratch.pointer - scratch.bottom)) := by
  cases answer with
  | invalid odd => exact absurd power odd
  | inactive _ outer => exact absurd innermost outer
  | granted _ _ highest => exact absurd ⟨_, highest.1⟩ full
  | exhausted => rfl

end Answer

/-! ## The same on words -/

private theorem executeAvailable_eq (above : scratch.bottom ≤ scratch.pointer) :
    scratch.executeAvailable = .ok scratch.available := if_pos above

private theorem executePlace?_eq (above : scratch.bottom ≤ scratch.pointer) (word : scratch.pointer < wordBound)
    (size alignment : UInt64) :
    scratch.executePlace? size alignment = scratch.place? size.toNat alignment.toNat := by
  have pointer : (UInt64.ofNat scratch.pointer).toNat = scratch.pointer := UInt64.toNat_ofNat_of_lt word
  have bottom : (UInt64.ofNat scratch.bottom).toNat = scratch.bottom :=
    UInt64.toNat_ofNat_of_lt (above.trans_lt word)
  unfold executePlace? place?
  simp only [UInt64.le_iff_toNat_le, pointer, bottom, Alignment.toNat_maskBackward]
  by_cases room : size.toNat ≤ scratch.pointer
  · have fits : size ≤ UInt64.ofNat scratch.pointer := by
      rw [UInt64.le_iff_toNat_le, pointer]
      exact room
    rw [if_pos room, if_pos room, UInt64.toNat_sub_of_le _ _ fits, pointer]
  · rw [if_neg room, if_neg room]

private theorem executeReserve_eq (above : scratch.bottom ≤ scratch.pointer) (word : scratch.pointer < wordBound)
    (frame : Frame) (size alignment : UInt64) :
    scratch.executeReserve frame size alignment = .ok (scratch.reserve frame size.toNat alignment.toNat) := by
  unfold executeReserve reserve
  cases checkAlignment alignment.toNat with
  | error reason => rfl
  | ok checked =>
    rw [ok_bind, executeAvailable_eq above, executePlace?_eq above word]
    by_cases innermost : scratch.depth = frame.depth
    · rw [if_neg (not_not.mpr innermost), if_neg (not_not.mpr innermost), ok_bind]
      cases scratch.place? size.toNat alignment.toNat <;> rfl
    · rw [if_pos innermost, if_pos innermost]

end Scratch

namespace Session

variable {World : Type}

/-- What a request to a live frame comes to, where frames are counted from the innermost. -/
structure Settles (session : Session World) (index : Nat) (frame : Frame) (size alignment : Nat) : Prop where
  invalid : (∃ after, Scratch.allocate frame size alignment session.machine =
    .error (.invalidAlignment alignment) after) ↔ ¬ alignment.isPowerOfTwo
  inactive : (∃ after, Scratch.allocate frame size alignment session.machine = .error .inactiveFrame after) ↔
    alignment.isPowerOfTwo ∧ index ≠ 0
  granted : (∃ view after, Scratch.allocate frame size alignment session.machine = .ok view after) ↔
    alignment.isPowerOfTwo ∧ index = 0 ∧ (session.machine.scratch.places size alignment).Nonempty
  highest : ∀ view after, Scratch.allocate frame size alignment session.machine = .ok view after →
    view.size = size ∧ IsGreatest (session.machine.scratch.places size alignment) view.start ∧
      after.scratch = { session.machine.scratch with pointer := view.start }
  exhausted : alignment.isPowerOfTwo → index = 0 → ¬ (session.machine.scratch.places size alignment).Nonempty →
    Scratch.allocate frame size alignment session.machine = .error
      (.stackExhausted size (session.machine.scratch.pointer - session.machine.scratch.bottom)) session.machine
  unchanged : ∀ error after, Scratch.allocate frame size alignment session.machine = .error error after →
    after = session.machine

/-- Wherever its region lies, a scratch stack grants a request of its innermost frame exactly if the region has a place
for it, and then it grants the highest one; a request that is refused changes nothing. On words all of this is the same,
and no subtraction falls below zero. -/
theorem requests_settled {region : Allocation} (word : region.start + region.size < wordBound) (store : Store)
    (world : World) (actions : List Action) {session : Session World}
    (reached : session = (⟨⟨store, .ofAllocation region, world⟩, []⟩ : Session World).run actions) :
    session.machine.scratch.bottom ≤ session.machine.scratch.pointer ∧
    session.machine.scratch.executeAvailable =
      .ok (session.machine.scratch.pointer - session.machine.scratch.bottom) ∧
    ∀ index live, session.frames[index]? = some live →
      (∀ size alignment, session.Settles index live.frame size alignment) ∧
      ∀ size alignment : UInt64, session.machine.scratch.executeReserve live.frame size alignment =
        .ok (session.machine.scratch.reserve live.frame size.toNat alignment.toNat) := by
  have start : Sound region.start (region.start + region.size)
      (⟨⟨store, .ofAllocation region, world⟩, []⟩ : Session World) := sound_ofAllocation region store world
  have sound := start.run actions
  rw [← reached] at sound
  have above : session.machine.scratch.bottom ≤ session.machine.scratch.pointer := sound.lowest ▸ sound.above
  have below : session.machine.scratch.pointer < wordBound := sound.stacked.pointer_le_top.trans_lt word
  refine ⟨above, Scratch.executeAvailable_eq above, ?_⟩
  intro index live found
  have innermost : session.machine.scratch.depth = live.frame.depth ↔ index = 0 := by
    have depth := sound.stacked.depth_eq found
    have total := sound.depth
    omega
  refine ⟨?_, Scratch.executeReserve_eq above below live.frame⟩
  intro size alignment
  have answer := session.machine.scratch.answer_reserve live.frame size alignment
  exact {
    invalid := by simp [Scratch.allocate_eq_error_iff, answer.invalid_iff]
    inactive := by simp [Scratch.allocate_eq_error_iff, answer.inactive_iff, innermost]
    granted := by
      rw [← innermost, ← answer.granted_iff]
      simp [Scratch.allocate_eq_ok_iff]
    highest := by
      intro view after allocated
      obtain ⟨start, reserved, rfl, rfl⟩ := Scratch.allocate_eq_ok_iff.mp allocated
      exact ⟨rfl, answer.isGreatest reserved, rfl⟩
    exhausted := by
      intro power first full
      exact Scratch.allocate_eq_error_iff.mpr ⟨answer.of_full power (innermost.mpr first) full, rfl⟩
    unchanged := by
      intro error after refused
      exact (Scratch.allocate_eq_error_iff.mp refused).2 }

/-- What is left of the region has room for thirteen bytes, but no multiple of a large alignment. -/
theorem requests_settled_aligned : ∃ (session : Session Unit) (inner outer : LiveFrame),
    session = (⟨⟨.initial, .ofAllocation ⟨4096, 16, .allocator⟩, ()⟩, []⟩ : Session Unit).run
      [.enter, .allocate 0 3 1, .enter] ∧ session.frames = [inner, outer] ∧
    (∃ view after, Scratch.allocate inner.frame 13 8 session.machine = .ok view after ∧ view.start = 4096) ∧
    Scratch.allocate inner.frame 0 8192 session.machine = .error (.stackExhausted 0 13) session.machine ∧
    ∃ after, Scratch.allocate outer.frame 0 1 session.machine = .error .inactiveFrame after := by
  have word : (Allocation.mk 4096 16 .allocator).start + (Allocation.mk 4096 16 .allocator).size < wordBound := by decide
  obtain ⟨_, _, settled⟩ := requests_settled word .initial () [.enter, .allocate 0 3 1, .enter] rfl
  refine ⟨_, _, _, rfl, rfl, ?_, ?_, ?_⟩
  · have tight := (settled 0 _ rfl).1 13 8
    obtain ⟨view, after, allocated⟩ := tight.granted.mpr
      ⟨by decide, rfl, 4096, by decide, by decide, by decide⟩
    obtain ⟨_, ⟨⟨divides, above, below⟩, _⟩, _⟩ := tight.highest view after allocated
    have above : 4096 ≤ view.start := above
    have below : view.start + 13 ≤ 4109 := below
    exact ⟨view, after, allocated, by omega⟩
  · apply ((settled 0 _ rfl).1 0 8192).exhausted (by decide) rfl
    intro fits
    obtain ⟨place, divides, above, below⟩ := fits
    have above : 4096 ≤ place := above
    have below : place + 0 ≤ 4109 := below
    omega
  · exact ((settled 1 _ rfl).1 0 1).inactive.mpr ⟨by decide, by decide⟩

end Session
end Interop
