import Interop.Proofs.Call.Arguments
import Interop.Proofs.Marshal.Lowering

/-! The steps that prepare a call, up to the first one that is refused.
Main statement: `prepare_cases`, from `placeArgument_cases` for one argument by induction over all of them. -/
namespace Interop
open Outcome

private theorem Store.read_write_fill (store : Store) (start : Nat) {count : Nat} {bytes : List UInt8}
    (short : bytes.length ≤ count) (byte : UInt8) :
    ((store.fill start count byte).write start bytes).read start count =
      bytes ++ List.replicate (count - bytes.length) byte := by
  have whole : count = bytes.length + (count - bytes.length) := by omega
  have behind : ((store.fill start count byte).write start bytes).read (start + bytes.length) (count - bytes.length) =
      List.replicate (count - bytes.length) byte := by
    refine List.eq_replicate_iff.mpr ⟨length_read _ _ _, ?_⟩
    intro read member
    obtain ⟨i, inside, same⟩ := List.mem_map.mp member
    have bound := List.mem_range.mp inside
    rw [← same, byteAt_write_of_outside _ _ _ (by omega)]
    exact if_pos (by omega)
  conv_lhs => rw [whole, read_add, read_write]
  rw [← whole, behind]

variable {World : Type}

/-- From one machine to another only scratch space was given out: the pointer went down, and bytes have changed at most
between the two pointers. -/
structure Machine.Lends (before after : Machine World) : Prop where
  world : after.world = before.world
  scratch : after.scratch = { before.scratch with pointer := after.scratch.pointer }
  below : after.scratch.pointer ≤ before.scratch.pointer
  inside : after.scratch.pointer = before.scratch.pointer ∨ before.scratch.bottom ≤ after.scratch.pointer
  kept : ∀ address, address < after.scratch.pointer ∨ before.scratch.pointer ≤ address →
    after.store.byteAt address = before.store.byteAt address

namespace Machine.Lends

theorem refl (machine : Machine World) : machine.Lends machine :=
  ⟨rfl, rfl, Nat.le_refl _, .inl rfl, fun _ _ => rfl⟩

theorem trans {first second third : Machine World} (before : first.Lends second) (after : second.Lends third) :
    first.Lends third := by
  have down := before.below
  have further := after.below
  have lower := before.inside
  have lowest := after.inside
  have bottom : second.scratch.bottom = first.scratch.bottom := by rw [before.scratch]
  constructor
  · exact after.world.trans before.world
  · rw [after.scratch, before.scratch]
  · omega
  · omega
  · intro address outside
    rw [after.kept address (by omega)]
    exact before.kept address (by omega)

private theorem of_reserve {machine : Machine World} {frame : Frame} {size alignment start : Nat}
    (reserved : machine.scratch.reserve frame size alignment = .ok start) {store : Store}
    (kept : ∀ address, address < start ∨ start + size ≤ address →
      store.byteAt address = machine.store.byteAt address) :
    machine.Lends { machine with store, scratch := { machine.scratch with pointer := start } } := by
  obtain ⟨_, bottom, below⟩ := Scratch.placed_of_reserve reserved
  refine ⟨rfl, rfl, by dsimp only; omega, .inr bottom, ?_⟩
  intro address outside
  dsimp only at outside
  exact kept address (by omega)

end Machine.Lends

namespace Downcall

/-- At each pointer lie the bytes that an argument is lowered to, and zeros behind them up to the end of its slot. -/
inductive Filled (policy : Narrowing) (store : Store) : List AbiType → List Value → List Nat → Prop
  | nil : Filled policy store [] [] []
  | cons {type : AbiType} {value : Value} {pointer : Nat} {bytes : List UInt8} {types : List AbiType}
    {values : List Value} {pointers : List Nat}
    (lowered : ∀ before, type.lower policy (.atAddress pointer (slotRequest type).1 true) 0 value before =
      .ok () (before.write pointer bytes))
    (held : store.read pointer (slotRequest type).1 =
      bytes ++ List.replicate ((slotRequest type).1 - type.width) 0)
    (others : Filled policy store types values pointers) :
    Filled policy store (type :: types) (value :: values) (pointer :: pointers)

def slotsAt (types : List AbiType) (pointers : List Nat) : List View :=
  List.zipWith (fun type pointer => .atAddress pointer (slotRequest type).1 true) types pointers

/-- Slots one below the other between two pointers, which hold their arguments whatever is written further below. -/
structure Placed (policy : Narrowing) (top bottom : Nat) (types : List AbiType) (values : List Value)
    (slots : List View) (store : Store) : Prop where
  filled : ∀ other : Store, (∀ address, bottom ≤ address → other.byteAt address = store.byteAt address) →
    Filled policy other types values (slots.map (·.start))
  views : slots = slotsAt types (slots.map (·.start))
  apart : slots.Pairwise View.Apart
  within : ∀ slot ∈ slots, bottom ≤ slot.start ∧ slot.start + slot.size ≤ top

variable {downcall : Downcall World} {frame : Frame}

/-- Why an argument cannot be passed, the first that cannot: there is no slot for it, or its value is not lowered. -/
inductive Stops (downcall : Downcall World) (frame : Frame) :
    (index : Nat) → Scratch → List (AbiType × Value) → CallError → Prop
  | slot {index : Nat} {scratch : Scratch} {type : AbiType} {value : Value} {rest : List (AbiType × Value)}
    {reason : MemoryError}
    (refused : scratch.reserve frame (slotRequest type).1 (slotRequest type).2 = .error reason) :
    Stops downcall frame index scratch ((type, value) :: rest) (.scratch downcall.name reason)
  | value {index start : Nat} {scratch : Scratch} {type : AbiType} {value : Value} {rest : List (AbiType × Value)}
    {error : MarshalError}
    (reserved : scratch.reserve frame (slotRequest type).1 (slotRequest type).2 = .ok start)
    (refused : ∀ store, type.lower downcall.signature.narrowing (.atAddress start (slotRequest type).1 true) 0 value
      store = .error error store) :
    Stops downcall frame index scratch ((type, value) :: rest) (.argument downcall.name index error)
  | later {index start : Nat} {scratch : Scratch} {type : AbiType} {value : Value} {rest : List (AbiType × Value)}
    {error : CallError} (reserved : scratch.reserve frame (slotRequest type).1 (slotRequest type).2 = .ok start)
    (converts : type.Converts downcall.signature.narrowing value)
    (stops : Stops downcall frame (index + 1) { scratch with pointer := start } rest error) :
    Stops downcall frame index scratch ((type, value) :: rest) error

theorem lower_of_nativeBytes_error {type : AbiType} {policy : Narrowing} {value : Value} {error : MarshalError}
    (failed : type.nativeBytes policy value = .error error) (view : View) (offset : Nat) (store : Store) :
    type.lower policy view offset value store = .error error store := by
  rw [AbiType.lower_eq, failed]
  rfl

theorem placeArgument_cases (downcall : Downcall World) (frame : Frame) (index : Nat) (type : AbiType) (value : Value)
    (machine : Machine World) :
    (∃ start bytes, machine.scratch.reserve frame (slotRequest type).1 (slotRequest type).2 = .ok start ∧
      type.Converts downcall.signature.narrowing value ∧
      type.nativeBytes downcall.signature.narrowing value = .ok bytes ∧
      downcall.placeArgument frame index type value machine =
        .ok (.atAddress start (slotRequest type).1 true) (withSlot machine type start bytes)) ∨
    (∃ reason, machine.scratch.reserve frame (slotRequest type).1 (slotRequest type).2 = .error reason ∧
      downcall.placeArgument frame index type value machine = .error (.scratch downcall.name reason) machine) ∨
    ∃ start error, machine.scratch.reserve frame (slotRequest type).1 (slotRequest type).2 = .ok start ∧
      ¬ type.Converts downcall.signature.narrowing value ∧
      (∀ store, type.lower downcall.signature.narrowing (.atAddress start (slotRequest type).1 true) 0 value store =
        .error error store) ∧
      downcall.placeArgument frame index type value machine =
        .error (.argument downcall.name index error)
          { machine with
            store := machine.store.fill start (slotRequest type).1 0
            scratch := { machine.scratch with pointer := start } } := by
  obtain ⟨start, reserved, allocated⟩ | ⟨reason, refused, allocated⟩ :=
    Scratch.allocate_cases frame (slotRequest type).1 (slotRequest type).2 machine
  · obtain ⟨converts, bytes, lowered⟩ | ⟨error, failed, unconvertible⟩ :=
      type.nativeBytes_cases downcall.signature.narrowing value
    · exact .inl ⟨start, bytes, reserved, converts, lowered, placeArgument_granted reserved lowered index⟩
    · have lowering := lower_of_nativeBytes_error failed (.atAddress start (slotRequest type).1 true) 0
      refine .inr (.inr ⟨start, error, reserved, unconvertible.not_converts, lowering, ?_⟩)
      refine (run_bind_of_ok (adaptExcept_of_ok _ allocated)).trans (run_bind_of_error ?_)
      simp only [Machine.onStore, EStateM.adaptExcept, lowering]
  · refine .inr (.inl ⟨reason, refused, run_bind_of_error ?_⟩)
    change EStateM.adaptExcept _ (Scratch.allocate frame (slotRequest type).1 (slotRequest type).2) machine = _
    simp only [EStateM.adaptExcept, allocated]

private theorem lends_withSlot {machine : Machine World} {type : AbiType} {start : Nat} {bytes : List UInt8}
    (reserved : machine.scratch.reserve frame (slotRequest type).1 (slotRequest type).2 = .ok start)
    (short : bytes.length ≤ (slotRequest type).1) : machine.Lends (withSlot machine type start bytes) := by
  refine .of_reserve reserved ?_
  intro address outside
  rw [Store.byteAt_write_of_outside _ _ _ (by omega), Store.byteAt_fill_of_outside _ _ outside]

private theorem Placed.nil (policy : Narrowing) (pointer : Nat) (store : Store) :
    Placed policy pointer pointer [] [] [] store :=
  ⟨fun _ _ => .nil, rfl, .nil, nofun⟩

private theorem Placed.cons {policy : Narrowing} {type : AbiType} {value : Value} {bytes : List UInt8}
    {types : List AbiType} {values : List Value} {slots : List View} {store : Store} {start top bottom : Nat}
    (lowered : type.nativeBytes policy value = .ok bytes)
    (held : store.read start (slotRequest type).1 = bytes ++ List.replicate ((slotRequest type).1 - type.width) 0)
    (below : bottom ≤ start) (above : start + (slotRequest type).1 ≤ top)
    (others : Placed policy start bottom types values slots store) :
    Placed policy top bottom (type :: types) (value :: values) (.atAddress start (slotRequest type).1 true :: slots)
      store := by
  have room : 0 + bytes.length ≤ (slotRequest type).1 := by
    rw [(AbiType.valueOf_nativeBytes lowered).1, Nat.zero_add]
    exact Nat.le_max_left _ _
  constructor
  · intro other same
    refine .cons (AbiType.lower_eq_ok rfl lowered room) ?_ (others.filled other same)
    rw [← held]
    refine Store.read_congr ?_
    intro address after _
    exact same address (below.trans after)
  · rw [List.map_cons, slotsAt, List.zipWith_cons_cons, ← slotsAt, ← others.views]
    rfl
  · refine .cons ?_ others.apart
    intro slot member
    exact .inr (others.within slot member).2
  · intro slot member
    rcases List.mem_cons.mp member with same | later
    · rw [same]
      exact ⟨below, above⟩
    · obtain ⟨lower, upper⟩ := others.within slot later
      exact ⟨lower, by omega⟩

private theorem placeArguments_cases (downcall : Downcall World) (frame : Frame) {types : List AbiType}
    {values : List Value} (length : types.length = values.length) (index : Nat) (machine : Machine World) :
    (∃ slots after, List.Forall₂ (·.Converts downcall.signature.narrowing ·) types values ∧
      frame.Grants machine.scratch (types.map slotRequest) after.scratch ∧
      downcall.placeArguments frame index (types.zip values) machine = .ok slots after ∧ machine.Lends after ∧
      Placed downcall.signature.narrowing machine.scratch.pointer after.scratch.pointer types values slots
        after.store) ∨
    ∃ error after, ¬ (List.Forall₂ (·.Converts downcall.signature.narrowing ·) types values ∧
        ∃ last, frame.Grants machine.scratch (types.map slotRequest) last) ∧
      downcall.placeArguments frame index (types.zip values) machine = .error error after ∧ machine.Lends after ∧
      downcall.Stops frame index machine.scratch (types.zip values) error := by
  -- Each slot lies above all that the later arguments are given, and `Lends` says that they leave it alone.
  induction types generalizing values index machine with
  | nil =>
    have none : values = [] := List.length_eq_zero_iff.mp length.symm
    subst none
    exact .inl ⟨[], machine, .nil, .nil _, rfl, .refl machine, .nil _ _ _⟩
  | cons type types ih =>
    cases values with
    | nil => cases length
    | cons value values =>
      have length : types.length = values.length := Nat.succ.inj length
      obtain ⟨start, bytes, reserved, converts, lowered, placed⟩ | ⟨reason, refused, stopped⟩ |
        ⟨start, error, reserved, unconverted, lowering, stopped⟩ :=
        downcall.placeArgument_cases frame index type value machine
      · have width := (AbiType.valueOf_nativeBytes lowered).1
        have short : bytes.length ≤ (slotRequest type).1 := width ▸ Nat.le_max_left _ _
        have first := lends_withSlot reserved short
        obtain ⟨slots, after, others, granted, run, lends, filled⟩ | ⟨error, after, impossible, run, lends, stops⟩ :=
          ih length (index + 1) (withSlot machine type start bytes)
        · refine .inl ⟨.atAddress start (slotRequest type).1 true :: slots, after, .cons converts others,
            .cons reserved granted, ?_, first.trans lends, ?_⟩
          · exact (run_bind_of_ok placed).trans (run_bind_of_ok run)
          · refine .cons lowered ?_ granted.pointer_le (Scratch.placed_of_reserve reserved).2.2 filled
            have held := machine.store.read_write_fill start short 0
            rw [width] at held
            rw [← held]
            refine Store.read_congr ?_
            intro address above _
            exact lends.kept address (.inr above)
        · refine .inr ⟨error, after, ?_, ?_, first.trans lends, .later reserved converts stops⟩
          · intro ⟨all, last, granted⟩
            cases all with
            | cons _ others =>
              cases granted with
              | cons again rest =>
                cases reserved.symm.trans again
                exact impossible ⟨others, last, rest⟩
          · exact (run_bind_of_ok placed).trans (run_bind_of_error run)
      · refine .inr ⟨_, machine, ?_, run_bind_of_error stopped, .refl machine, .slot refused⟩
        intro ⟨_, last, granted⟩
        cases granted with
        | cons reserved _ => cases refused.symm.trans reserved
      · refine .inr ⟨_, _, ?_, run_bind_of_error stopped, ?_, .value reserved lowering⟩
        · intro ⟨all, _⟩
          cases all with
          | cons converts _ => exact unconverted converts
        · refine .of_reserve reserved ?_
          intro address outside
          exact Store.byteAt_fill_of_outside _ _ outside

/-- What a call needs so that native code is entered. -/
structure Callable (downcall : Downcall World) (frame : Frame) (scratch : Scratch) (args : List Value) : Prop where
  arity : args.length = downcall.signature.arity
  innermost : scratch.depth = frame.depth
  room : ∃ last, frame.Grants scratch downcall.requests last
  converts : List.Forall₂ (·.Converts downcall.signature.narrowing ·) downcall.signature.params args

/-- Why native code is not entered, by the first step that is refused. -/
inductive Refuses (downcall : Downcall World) (frame : Frame) (scratch : Scratch) (args : List Value) :
    CallError → Prop
  | arity (other : args.length ≠ downcall.signature.arity) :
    Refuses downcall frame scratch args (.arityMismatch downcall.name downcall.signature.arity args.length)
  | argument {error : CallError} (arity : args.length = downcall.signature.arity)
    (stops : downcall.Stops frame 0 scratch (downcall.signature.params.zip args) error) :
    Refuses downcall frame scratch args error
  | buffer {last : Scratch} {reason : MemoryError}
    (converts : List.Forall₂ (·.Converts downcall.signature.narrowing ·) downcall.signature.params args)
    (granted : frame.Grants scratch (downcall.signature.params.map slotRequest) last)
    (refused : last.reserve frame downcall.signature.resultBufferSize resultAlignment = .error reason) :
    Refuses downcall frame scratch args (.scratch downcall.name reason)

/-- What native code finds when it is entered: its arguments in slots and a buffer for its result, all of them apart
from each other and in the scratch space that was free before. -/
structure Delivers (downcall : Downcall World) (scratch : Scratch) (args : List Value) (pointers : List Nat)
    (result : Nat) (store : Store) : Prop where
  filled : Filled downcall.signature.narrowing store downcall.signature.params args pointers
  apart : (slotsAt downcall.signature.params pointers ++
    [View.atAddress result downcall.signature.resultBufferSize true]).Pairwise View.Apart
  within : ∀ view ∈ slotsAt downcall.signature.params pointers ++
      [View.atAddress result downcall.signature.resultBufferSize true],
    scratch.bottom ≤ view.start ∧ view.start + view.size ≤ scratch.pointer

private theorem delivers_of_placed {scratch between : Scratch} {args : List Value} {slots : List View} {store : Store}
    {start : Nat}
    (placed : Placed downcall.signature.narrowing scratch.pointer between.pointer downcall.signature.params args slots
      store)
    (reserved : between.reserve frame downcall.signature.resultBufferSize resultAlignment = .ok start)
    (bottom : between.bottom = scratch.bottom) (down : between.pointer ≤ scratch.pointer) :
    downcall.Delivers scratch args (slots.map (·.start)) start
      (store.fill start downcall.signature.resultBufferSize 0) := by
  obtain ⟨_, above, below⟩ := Scratch.placed_of_reserve reserved
  constructor
  · apply placed.filled
    intro address higher
    exact Store.byteAt_fill_of_outside _ _ (.inr (below.trans higher))
  · rw [← placed.views, List.pairwise_append]
    refine ⟨placed.apart, List.pairwise_singleton _ _, ?_⟩
    intro slot member buffer last
    rw [List.mem_singleton.mp last]
    exact .inr (below.trans (placed.within slot member).1)
  · rw [← placed.views]
    intro view member
    rcases List.mem_append.mp member with slot | buffer
    · obtain ⟨lower, upper⟩ := placed.within view slot
      omega
    · rw [List.mem_singleton.mp buffer]
      dsimp only [View.atAddress]
      omega

theorem not_granted_of_buffer {scratch last : Scratch} {reason : MemoryError}
    (granted : frame.Grants scratch (downcall.signature.params.map slotRequest) last)
    (refused : last.reserve frame downcall.signature.resultBufferSize resultAlignment = .error reason) :
    ¬ ∃ last, frame.Grants scratch downcall.requests last := by
  rintro ⟨_, all⟩
  obtain ⟨middle, first, buffer⟩ := all.split
  rw [first.unique granted] at buffer
  cases buffer with
  | cons reserved _ => cases refused.symm.trans reserved

/-- A call that has all it needs is prepared, and any other one is refused at its first step that is. -/
theorem prepare_cases (downcall : Downcall World) (frame : Frame) (args : List Value) (machine : Machine World) :
    (∃ prepared after, downcall.Callable frame machine.scratch args ∧
      downcall.prepare frame args machine = .ok prepared after ∧ machine.Lends after ∧
      downcall.Delivers machine.scratch args (prepared.slots.map (·.start)) prepared.buffer.start after.store) ∨
    ∃ error after, ¬ downcall.Callable frame machine.scratch args ∧
      downcall.prepare frame args machine = .error error after ∧ machine.Lends after ∧
      downcall.Refuses frame machine.scratch args error ∧
      (args.length ≠ downcall.signature.arity → after = machine) := by
  by_cases arity : args.length = downcall.signature.arity
  case neg =>
    have checked : downcall.checkArity args =
        .error (.arityMismatch downcall.name downcall.signature.arity args.length) := if_neg arity
    refine .inr ⟨_, machine, fun callable => arity callable.arity, ?_, .refl machine, .arity arity, fun _ => rfl⟩
    simp only [prepare, checked]
    rfl
  have checked : downcall.checkArity args = .ok () := if_pos arity
  obtain ⟨slots, between, converts, granted, run, lends, placed⟩ | ⟨error, after, impossible, run, lends, stops⟩ :=
    downcall.placeArguments_cases frame arity.symm 0 machine
  · obtain ⟨start, reserved, allocated⟩ | ⟨reason, refused, allocated⟩ :=
      Scratch.allocate_cases frame downcall.signature.resultBufferSize resultAlignment between
    · have all := granted.append (.cons reserved (.nil _))
      have innermost := all.innermost (List.append_ne_nil_of_right_ne_nil _ (List.cons_ne_nil _ _))
      have bottom : between.scratch.bottom = machine.scratch.bottom := by rw [lends.scratch]
      refine .inl ⟨⟨slots, .atAddress start downcall.signature.resultBufferSize true⟩, _,
        ⟨arity, innermost, ⟨_, all⟩, converts⟩, ?_, lends.trans (.of_reserve reserved ?_),
        delivers_of_placed placed reserved bottom lends.below⟩
      · simp only [prepare, checked]
        exact (run_bind_of_ok run).trans (run_bind_of_ok (adaptExcept_of_ok _ allocated))
      · intro address outside
        exact Store.byteAt_fill_of_outside _ _ outside
    · refine .inr ⟨.scratch downcall.name reason, between, ?_, ?_, lends, .buffer converts granted refused,
        fun other => absurd arity other⟩
      · exact fun callable => not_granted_of_buffer granted refused callable.room
      · simp only [prepare, checked]
        refine (run_bind_of_ok run).trans (run_bind_of_error ?_)
        simp only [EStateM.adaptExcept, allocated]
  · refine .inr ⟨error, after, ?_, ?_, lends, .argument arity stops, fun other => absurd arity other⟩
    · intro callable
      obtain ⟨last, all⟩ := callable.room
      obtain ⟨middle, first, _⟩ := all.split
      exact impossible ⟨callable.converts, middle, first⟩
    · simp only [prepare, checked]
      exact run_bind_of_error run

theorem delivers_of_prepare {args : List Value} {machine after : Machine World} {prepared : Prepared}
    (prepares : downcall.prepare frame args machine = .ok prepared after) :
    machine.Lends after ∧
      downcall.Delivers machine.scratch args (prepared.slots.map (·.start)) prepared.buffer.start after.store := by
  obtain ⟨_, _, _, run, lends, delivers⟩ | ⟨_, _, _, run, _⟩ := downcall.prepare_cases frame args machine
  · cases prepares.symm.trans run
    exact ⟨lends, delivers⟩
  · cases prepares.symm.trans run

end Downcall
end Interop
