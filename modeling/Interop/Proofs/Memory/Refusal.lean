import Interop.Memory.Decoder
import Interop.Memory.Encoder
import Interop.Proofs.Memory.Writing
import Interop.Proofs.Number.Masks

/-! When an access to memory is refused, for which reason, and that nothing has been touched by then.
Main statement: `accesses_guarded`, for every access and on words as on numbers of any size. -/
namespace Interop
open Outcome

private theorem Outcome.bind_ok_eq_map {ε α β : Type} (first : Except ε α) (change : α → β) :
    (do let value ← first; .ok (change value)) = first.map change := by
  cases first <;> rfl

namespace View

private theorem executeLocate_eq {view : View} (word : view.size < wordBound) (offset width : UInt64) :
    view.executeLocate offset width = view.locate offset.toNat width.toNat := by
  have size : (UInt64.ofNat view.size).toNat = view.size := UInt64.toNat_ofNat_of_lt word
  unfold executeLocate locate
  rw [Words.checkedAdd_eq]
  by_cases exact : offset.toNat + width.toNat < wordBound
  · have sum : (offset + width).toNat = offset.toNat + width.toNat := by
      rw [UInt64.toNat_add]
      exact Nat.mod_eq_of_lt exact
    rw [if_pos exact]
    simp only [UInt64.le_iff_toNat_le, sum, size]
  · rw [if_neg exact, if_neg (by omega)]

private theorem locate_whole (view : View) : view.locate 0 view.size = .ok view.start :=
  locate_eq_ok_iff.mpr ⟨Nat.le_of_eq (Nat.zero_add _), rfl⟩

private theorem locate_nothing (view : View) : view.locate 0 0 = .ok view.start :=
  locate_eq_ok_iff.mpr ⟨Nat.zero_le _, rfl⟩

inductive Access where
  | get (view : View) (type : ScalarType) (offset : Nat) (order : ByteOrder)
  | set (view : View) (type : ScalarType) (offset : Nat) (bits : type.Pattern) (order : ByteOrder)
  | readBytes (view : View) (offset count : Nat)
  | writeBytes (view : View) (offset : Nat) (bytes : List UInt8)
  | copyFrom (view source : View)
  | copyTo (view target : View)
  | fill (view : View) (byte : UInt8)
  | toList (view : View)
  | slice (view : View) (offset size : Nat)
  | encoder (view : View)
  | decoder (view : View)

/-- What an access asks for: a view to write to, a view to read from, and a range of one of them. -/
structure Demand where
  target : Option View
  source : Option View
  view : View
  offset : Nat
  width : Nat

namespace Demand

def check (demand : Demand) : Except MemoryError Nat := do
  forM demand.target requireWritable
  forM demand.source requireReadable
  demand.view.locate demand.offset demand.width

structure Spares (demand : Demand) (before after : Store) : Prop where
  outside : ∀ address, address < demand.view.start + demand.offset ∨
    demand.view.start + demand.offset + demand.width ≤ address → after.byteAt address = before.byteAt address
  unwritten : demand.target = none → after = before

end Demand

namespace Access

def Answer : Access → Type
  | .get _ type _ _ => type.Pattern
  | .readBytes .. | .toList _ => List UInt8
  | .slice .. => View
  | .encoder _ | .decoder _ => Cursor
  | .set .. | .writeBytes .. | .copyFrom .. | .copyTo .. | .fill .. => Unit

def perform : (access : Access) → EStateM MemoryError Store access.Answer
  | .get view type offset order => Store.observe (view.get type offset order)
  | .set view type offset bits order => view.set type offset bits order
  | .readBytes view offset count => Store.observe (view.readBytes offset count)
  | .writeBytes view offset bytes => view.writeBytes offset bytes
  | .copyFrom view source => view.copyFrom source
  | .copyTo view target => view.copyTo target
  | .fill view byte => view.fill byte
  | .toList view => Store.observe view.toList
  | .slice view offset size => Store.observe fun _ => view.slice offset size
  | .encoder view => Store.observe view.encoder
  | .decoder view => Store.observe view.decoder

def demand : Access → Demand
  | .get view type offset _ => ⟨none, some view, view, offset, type.width⟩
  | .set view type offset _ _ => ⟨some view, none, view, offset, type.width⟩
  | .readBytes view offset count => ⟨none, some view, view, offset, count⟩
  | .writeBytes view offset bytes => ⟨some view, none, view, offset, bytes.length⟩
  | .copyFrom view source => ⟨some view, some source, view, 0, source.size⟩
  | .copyTo view target => ⟨some target, some view, target, 0, view.size⟩
  | .fill view _ => ⟨some view, none, view, 0, view.size⟩
  | .toList view => ⟨none, some view, view, 0, view.size⟩
  | .slice view offset size => ⟨none, none, view, offset, size⟩
  | .encoder view => ⟨some view, none, view, 0, 0⟩
  | .decoder view => ⟨none, some view, view, 0, 0⟩

end Access

namespace Demand

variable {demand : Demand} {α : Type}

private theorem forM_eq_ok_iff {require : View → Except MemoryError Unit} {asked : Option View} :
    forM asked require = .ok () ↔ ∀ view ∈ asked, require view = .ok () := by
  cases asked with
  | none => simp [pure, Except.pure]
  | some view => simp

private theorem check_eq_ok_iff {start : Nat} : demand.check = .ok start ↔
    (∀ view ∈ demand.target, view.writable = true) ∧ (∀ view ∈ demand.source, view.readable = true) ∧
      demand.offset + demand.width ≤ demand.view.size ∧ start = demand.view.start + demand.offset := by
  simp only [← requireWritable_eq_ok_iff, ← requireReadable_eq_ok_iff, ← forM_eq_ok_iff]
  unfold check
  rw [bind_eq_ok]
  constructor
  · rintro ⟨⟨⟩, writable, checked⟩
    obtain ⟨⟨⟩, readable, located⟩ := bind_eq_ok.mp checked
    exact ⟨writable, readable, locate_eq_ok_iff.mp located⟩
  · rintro ⟨writable, readable, located⟩
    exact ⟨(), writable, bind_eq_ok.mpr ⟨(), readable, locate_eq_ok_iff.mpr located⟩⟩

private theorem check_of_not_writable {view : View} (target : demand.target = some view)
    (locked : view.writable = false) :
    demand.check = .error .notWritable := by
  have refused : view.requireWritable = .error .notWritable := by simp [requireWritable, locked]
  rw [check, target, Option.forM_some, refused, error_bind]

private theorem check_of_not_readable {view : View} (writable : ∀ view ∈ demand.target, view.writable = true)
    (source : demand.source = some view) (locked : view.readable = false) : demand.check = .error .notReadable := by
  have granted : forM demand.target requireWritable = .ok () :=
    forM_eq_ok_iff.mpr fun view member => requireWritable_eq_ok_iff.mpr (writable view member)
  have refused : view.requireReadable = .error .notReadable := by simp [requireReadable, locked]
  rw [check, granted, ok_bind, source, Option.forM_some, refused, error_bind]

private theorem check_of_outside (writable : ∀ view ∈ demand.target, view.writable = true)
    (readable : ∀ view ∈ demand.source, view.readable = true)
    (outside : demand.view.size < demand.offset + demand.width) :
    demand.check = .error (.outOfBounds demand.offset demand.width demand.view.size) := by
  have granted : forM demand.target requireWritable = .ok () :=
    forM_eq_ok_iff.mpr fun view member => requireWritable_eq_ok_iff.mpr (writable view member)
  have shown : forM demand.source requireReadable = .ok () :=
    forM_eq_ok_iff.mpr fun view member => requireReadable_eq_ok_iff.mpr (readable view member)
  rw [check, granted, ok_bind, shown, ok_bind]
  exact if_neg (Nat.not_le_of_lt outside)

theorem Spares.refl (demand : Demand) (store : Store) : demand.Spares store store :=
  ⟨fun _ _ => rfl, fun _ => rfl⟩

/-- What comes of an action that the check decides about: it is carried out within the range, or it does nothing. -/
inductive Settles (demand : Demand) (store : Store) : EStateM.Result MemoryError Store α → Prop
  | carried {start : Nat} {answer : α} {after : Store} (checked : demand.check = .ok start)
    (spares : demand.Spares store after) : Settles demand store (.ok answer after)
  | refused {reason : MemoryError} (checked : demand.check = .error reason) :
    Settles demand store (.error reason store)

namespace Settles

variable {store after : Store} {result : EStateM.Result MemoryError Store α}

private theorem accepted_iff (settles : demand.Settles store result) :
    (∃ answer after, result = .ok answer after) ↔ ∃ start, demand.check = .ok start := by
  cases settles with
  | carried checked _ => simp [checked]
  | refused checked => simp [checked]

private theorem of_check_error (settles : demand.Settles store result) {reason : MemoryError}
    (checked : demand.check = .error reason) : result = .error reason store := by
  cases settles with
  | carried passed _ => cases checked.symm.trans passed
  | refused failed =>
    cases checked.symm.trans failed
    rfl

private theorem unchanged (settles : demand.Settles store result) {reason : MemoryError}
    (failed : result = .error reason after) : after = store := by
  cases settles <;> cases failed
  rfl

private theorem spares (settles : demand.Settles store result) {answer : α} (carried : result = .ok answer after) :
    demand.Spares store after := by
  cases settles <;> cases carried
  assumption

end Settles

def Decides (demand : Demand) (action : EStateM MemoryError Store α) : Prop :=
  ∀ store, demand.Settles store (action store)

private theorem decides_observe {look : Store → Except MemoryError α} (answer : Nat → Store → α)
    (looked : ∀ store, look store = demand.check.map fun start => answer start store) :
    demand.Decides (Store.observe look) := by
  intro store
  rw [Store.observe, looked]
  cases checked : demand.check with
  | ok start => exact .carried checked (.refl demand store)
  | error reason => exact .refused checked

private theorem decides_guarded {change : Nat → Store → Store}
    (spares : ∀ store, demand.offset + demand.width ≤ demand.view.size →
      demand.Spares store (change (demand.view.start + demand.offset) store)) :
    demand.Decides (Store.guarded demand.check change) := by
  intro store
  unfold Store.guarded
  cases checked : demand.check with
  | ok start =>
    obtain ⟨_, _, inside, rfl⟩ := check_eq_ok_iff.mp checked
    exact .carried checked (spares store inside)
  | error reason => exact .refused checked

private theorem spares_write {view : View} (target : demand.target = some view) (store : Store) {bytes : List UInt8}
    (width : bytes.length = demand.width) :
    demand.Spares store (store.write (demand.view.start + demand.offset) bytes) := by
  constructor
  · intro address outside
    exact Store.byteAt_write_of_outside _ _ _ (by omega)
  · intro none
    cases target.symm.trans none

end Demand

private theorem fill_eq_guarded (view : View) (byte : UInt8) :
    view.fill byte = Store.guarded (view.locateWrite 0 view.size) fun start store =>
      store.fill start view.size byte := by
  unfold fill locateWrite
  rw [locate_whole]
  funext store
  cases view.requireWritable <;> rfl

private theorem encoder_eq_map (view : View) (store : Store) :
    view.encoder store = (view.locateWrite 0 0).map fun _ => ⟨store, view, 0⟩ := by
  unfold encoder locateWrite
  rw [locate_nothing]
  cases view.requireWritable <;> rfl

private theorem decoder_eq_map (view : View) (store : Store) :
    view.decoder store = (view.locateRead 0 0).map fun _ => ⟨store, view, 0⟩ := by
  unfold decoder locateRead
  rw [locate_nothing]
  cases view.requireReadable <;> rfl

namespace Access

private theorem decides (access : Access) : access.demand.Decides access.perform := by
  cases access with
  | get view type offset order =>
    exact Demand.decides_observe (fun start store => type.decode order (store.read start type.width))
      fun _ => bind_ok_eq_map _ _
  | set view type offset bits order =>
    exact Demand.decides_guarded fun store _ => Demand.spares_write rfl store (type.length_encode order bits)
  | readBytes view offset count =>
    exact Demand.decides_observe (fun start store => store.read start count) fun _ => bind_ok_eq_map _ _
  | writeBytes view offset bytes =>
    exact Demand.decides_guarded fun store _ => Demand.spares_write rfl store rfl
  | copyFrom view source | copyTo source view =>
    exact Demand.decides_guarded fun store _ => Demand.spares_write rfl store (store.length_read _ _)
  | fill view byte =>
    rw [perform, fill_eq_guarded]
    exact Demand.decides_guarded fun store _ =>
      ⟨fun _ outside => store.byteAt_fill_of_outside byte outside, nofun⟩
  | toList view =>
    exact Demand.decides_observe (fun start store => store.read start view.size) fun _ => bind_ok_eq_map _ _
  | slice view offset size =>
    exact Demand.decides_observe (fun start _ => { view with start, size }) fun _ => bind_ok_eq_map _ _
  | encoder view => exact Demand.decides_observe (fun _ store => ⟨store, view, 0⟩) view.encoder_eq_map
  | decoder view => exact Demand.decides_observe (fun _ store => ⟨store, view, 0⟩) view.decoder_eq_map

/-- An access is carried out exactly if it has the permissions that it needs and its range lies inside the view, and
otherwise it changes nothing. A missing permission is reported whatever the range is. -/
structure Guarded (access : Access) (store : Store) : Prop where
  accepted : (∃ answer after, access.perform store = .ok answer after) ↔
    (∀ view ∈ access.demand.target, view.writable = true) ∧ (∀ view ∈ access.demand.source, view.readable = true) ∧
      access.demand.offset + access.demand.width ≤ access.demand.view.size
  notWritable : ∀ view ∈ access.demand.target, view.writable = false →
    access.perform store = .error .notWritable store
  notReadable : (∀ view ∈ access.demand.target, view.writable = true) →
    ∀ view ∈ access.demand.source, view.readable = false → access.perform store = .error .notReadable store
  outside : (∀ view ∈ access.demand.target, view.writable = true) →
    (∀ view ∈ access.demand.source, view.readable = true) →
    access.demand.view.size < access.demand.offset + access.demand.width →
    access.perform store =
      .error (.outOfBounds access.demand.offset access.demand.width access.demand.view.size) store
  refused : ∀ reason after, access.perform store = .error reason after → after = store
  spared : ∀ answer after, access.perform store = .ok answer after → access.demand.Spares store after

end Access

/-- Every access asks for its permissions first and for its bounds second, and touches no byte before that; on words the
bounds are the same as in exact numbers. -/
theorem accesses_guarded (access : Access) (store : Store) : access.Guarded store ∧
    (access.demand.view.size < wordBound → ∀ offset width : UInt64,
      offset.toNat = access.demand.offset → width.toNat = access.demand.width →
      access.demand.view.executeLocate offset width =
        access.demand.view.locate access.demand.offset access.demand.width) := by
  have settles := access.decides store
  refine ⟨⟨?_, ?_, ?_, ?_, ?_, ?_⟩, ?_⟩
  · rw [settles.accepted_iff]
    constructor
    · rintro ⟨start, checked⟩
      obtain ⟨writable, readable, inside, _⟩ := Demand.check_eq_ok_iff.mp checked
      exact ⟨writable, readable, inside⟩
    · rintro ⟨writable, readable, inside⟩
      exact ⟨_, Demand.check_eq_ok_iff.mpr ⟨writable, readable, inside, rfl⟩⟩
  · intro view target locked
    exact settles.of_check_error (Demand.check_of_not_writable target locked)
  · intro writable view source locked
    exact settles.of_check_error (Demand.check_of_not_readable writable source locked)
  · intro writable readable outside
    exact settles.of_check_error (Demand.check_of_outside writable readable outside)
  · intro reason after refused
    exact settles.unchanged refused
  · intro answer after performed
    exact settles.spares performed
  · intro word offset width first second
    rw [executeLocate_eq word, first, second]

/-- However far out an access to a read-only view is, writing wants the permission, and reading is out of bounds. -/
theorem accesses_guarded_readOnly :
    (Access.set (.heap 32 4 false) .u8 (2 ^ 64 - 1) 1 .native).perform .initial = .error .notWritable .initial ∧
      (Access.get (.heap 32 4 false) .u32 (2 ^ 64 - 2) .little).perform .initial =
        .error (.outOfBounds (2 ^ 64 - 2) 4 4) .initial ∧
      (View.heap 32 4 false).executeLocate 0xfffffffffffffffe 4 = .error (.outOfBounds (2 ^ 64 - 2) 4 4) := by
  have writing := (accesses_guarded (.set (.heap 32 4 false) .u8 (2 ^ 64 - 1) 1 .native) .initial).1
  obtain ⟨reading, words⟩ := accesses_guarded (.get (.heap 32 4 false) .u32 (2 ^ 64 - 2) .little) .initial
  refine ⟨writing.notWritable _ rfl rfl, ?_, ?_⟩
  · refine reading.outside nofun ?_ (by decide)
    intro view source
    cases source
    rfl
  · exact words (by decide) 0xfffffffffffffffe 4 rfl rfl

end View
end Interop
