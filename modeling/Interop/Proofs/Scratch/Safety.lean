import Interop.Proofs.Scratch.Session

/-! No run of a scratch stack lets live allocations collide.
`Session.Sound` relates the pointer, the saved pointers and the live allocations; every action preserves it. -/
namespace Interop

namespace Held

structure Within (held : Held) (pointer limit : Nat) : Prop where
  aligned : held.alignment ∣ held.view.start
  above : pointer ≤ held.view.start
  below : held.view.start + held.view.size ≤ limit

private theorem Within.mono {held : Held} {pointer lower limit higher : Nat} (within : held.Within pointer limit)
    (down : lower ≤ pointer) (up : limit ≤ higher) : held.Within lower higher :=
  ⟨within.aligned, down.trans within.above, within.below.trans up⟩

def bytes (held : Held) (store : Store) : List UInt8 := store.read held.view.start held.view.size

private theorem bytes_congr {held : Held} {store other : Store}
    (same : ∀ address, held.view.start ≤ address → address < held.view.start + held.view.size →
      other.byteAt address = store.byteAt address) : held.bytes other = held.bytes store :=
  Store.read_congr same

end Held

/-- Frames that are nested below `top`: each keeps what it handed out between the pointer and where it began. -/
inductive Stacked (top : Nat) : Nat → List LiveFrame → Prop
  | bare : Stacked top top []
  | frame {pointer : Nat} {live : LiveFrame} {rest : List LiveFrame}
      (depth : live.frame.depth = rest.length + 1) (room : pointer ≤ live.frame.saved)
      (within : ∀ held ∈ live.held, held.Within pointer live.frame.saved)
      (apart : live.held.Pairwise fun a b => a.view.Apart b.view)
      (outer : Stacked top live.frame.saved rest) : Stacked top pointer (live :: rest)

namespace Stacked

variable {top pointer : Nat} {frames : List LiveFrame}

theorem pointer_le_top (stacked : Stacked top pointer frames) : pointer ≤ top := by
  induction stacked with
  | bare => exact Nat.le_refl top
  | frame _ room _ _ _ ih => exact room.trans ih

private theorem live_within (stacked : Stacked top pointer frames) :
    ∀ held ∈ frames.flatMap (·.held), held.Within pointer top := by
  induction stacked with
  | bare => simp
  | frame _ room within _ outer ih =>
    simp only [List.flatMap_cons, List.mem_append]
    rintro held (inner | around)
    · exact (within held inner).mono (Nat.le_refl _) outer.pointer_le_top
    · exact (ih held around).mono room (Nat.le_refl _)

private theorem live_apart (stacked : Stacked top pointer frames) :
    (frames.flatMap (·.held)).Pairwise fun a b => a.view.Apart b.view := by
  induction stacked with
  | bare => exact .nil
  | frame _ _ within apart outer ih =>
    rw [List.flatMap_cons, List.pairwise_append]
    refine ⟨apart, ih, ?_⟩
    intro inner innerLive around aroundLive
    exact .inl ((within inner innerLive).below.trans (outer.live_within around aroundLive).above)

theorem depth_eq (stacked : Stacked top pointer frames) {index : Nat} {live : LiveFrame}
    (found : frames[index]? = some live) : live.frame.depth + index = frames.length := by
  induction stacked generalizing index with
  | bare => simp at found
  | frame depth _ _ _ _ ih =>
    cases index with
    | zero =>
      cases found
      exact depth
    | succ index =>
      have deeper := ih found
      simp only [List.length_cons]
      omega

end Stacked

namespace Session

variable {World : Type}

/-- What holds of the region from `bottom` to `top` in the middle of every run. -/
structure Sound (bottom top : Nat) (session : Session World) : Prop where
  lowest : session.machine.scratch.bottom = bottom
  highest : session.machine.scratch.top = top
  above : bottom ≤ session.machine.scratch.pointer
  depth : session.machine.scratch.depth = session.frames.length
  stacked : Stacked top session.machine.scratch.pointer session.frames

namespace Sound

variable {bottom top : Nat} {session : Session World}

private theorem enter (sound : Sound bottom top session) : Sound bottom top session.enter where
  lowest := sound.lowest
  highest := sound.highest
  above := sound.above
  depth := congrArg (· + 1) sound.depth
  stacked := .frame (congrArg (· + 1) sound.depth) (Nat.le_refl _) (by simp) .nil sound.stacked

private theorem leave (sound : Sound bottom top session) : Sound bottom top session.leave := by
  obtain ⟨machine, frames⟩ := session
  cases frames with
  | nil => exact sound
  | cons live rest =>
    cases sound.stacked with
    | frame depth room within apart outer =>
      exact {
        lowest := sound.lowest
        highest := sound.highest
        above := sound.above.trans room
        depth := by simp [Session.leave, Scratch.leave, depth]
        stacked := outer }

private theorem write (sound : Sound bottom top session) (index : Nat) (writing : View.Writing) :
    Sound bottom top (session.write index writing) := by
  unfold Session.write
  cases session.live[index]? with
  | none => exact sound
  | some held => exact ⟨sound.lowest, sound.highest, sound.above, sound.depth, sound.stacked⟩

private theorem reserve (sound : Sound bottom top session) {index size alignment start : Nat} {live : LiveFrame}
    (found : session.frames[index]? = some live)
    (reserved : session.machine.scratch.reserve live.frame size alignment = .ok start) :
    index = 0 ∧ alignment ∣ start ∧ bottom ≤ start ∧ start + size ≤ session.machine.scratch.pointer := by
  obtain ⟨_, innermost, _⟩ := Scratch.reserve_eq_ok_iff.mp reserved
  obtain ⟨divides, above, below⟩ := Scratch.placed_of_reserve reserved
  have depth := sound.stacked.depth_eq found
  have total := sound.depth
  exact ⟨by omega, divides, sound.lowest ▸ above, below⟩

private theorem allocate (sound : Sound bottom top session) (index size alignment : Nat) :
    Sound bottom top (session.allocate index size alignment) := by
  obtain ⟨machine, frames⟩ := session
  unfold Session.allocate
  cases found : frames[index]? with
  | none => exact sound
  | some live =>
    obtain ⟨start, reserved, allocated⟩ | ⟨reason, _, refused⟩ :=
      Scratch.allocate_cases live.frame size alignment machine
    · obtain ⟨rfl, divides, above, below⟩ := sound.reserve found reserved
      cases frames with
      | nil => simp at found
      | cons inner rest =>
        cases found
        dsimp only
        rw [allocated]
        cases sound.stacked with
        | frame depth room within apart outer =>
          have lower : start ≤ machine.scratch.pointer := (Nat.le_add_right _ _).trans below
          refine ⟨sound.lowest, sound.highest, above, sound.depth, .frame depth (lower.trans room) ?_ ?_ outer⟩
          · simp only [List.mem_cons, forall_eq_or_imp]
            refine ⟨⟨divides, Nat.le_refl start, below.trans room⟩, ?_⟩
            intro held member
            exact (within held member).mono lower (Nat.le_refl _)
          · refine .cons ?_ apart
            intro held member
            exact .inl (below.trans (within held member).above)
    · dsimp only
      rw [refused]
      exact sound

private theorem perform (sound : Sound bottom top session) (action : Action) :
    Sound bottom top (session.perform action) := by
  cases action with
  | enter => exact sound.enter
  | allocate frame size alignment => exact sound.allocate frame size alignment
  | write allocation writing => exact sound.write allocation writing
  | leave => exact sound.leave

theorem run (sound : Sound bottom top session) (actions : List Action) :
    Sound bottom top (session.run actions) := by
  induction actions generalizing session with
  | nil => exact sound
  | cons action rest ih => exact ih (sound.perform action)

private theorem bytes_allocate (sound : Sound bottom top session) (index size alignment : Nat) {held : Held}
    (live : held ∈ session.live) :
    held.bytes (session.allocate index size alignment).machine.store = held.bytes session.machine.store := by
  -- Memory is handed out below every live allocation, so its zeroes reach none of them.
  unfold Session.allocate
  cases found : session.frames[index]? with
  | none => rfl
  | some frame =>
    obtain ⟨start, reserved, allocated⟩ | ⟨reason, _, refused⟩ :=
      Scratch.allocate_cases frame.frame size alignment session.machine
    · obtain ⟨_, _, _, below⟩ := sound.reserve found reserved
      have within := sound.stacked.live_within held live
      dsimp only
      rw [allocated]
      apply Held.bytes_congr
      intro address from_start _
      exact Store.byteAt_fill_of_outside _ _ (.inr (below.trans (within.above.trans from_start)))
    · dsimp only
      rw [refused]

private theorem bytes_write (sound : Sound bottom top session) {index other : Nat} (different : index ≠ other)
    (writing : View.Writing) {held : Held} (found : session.live[other]? = some held) :
    held.bytes (session.write index writing).machine.store = held.bytes session.machine.store := by
  unfold Session.write
  cases target : session.live[index]? with
  | none => rfl
  | some written =>
    obtain ⟨otherBound, rfl⟩ := List.getElem?_eq_some_iff.mp found
    obtain ⟨indexBound, rfl⟩ := List.getElem?_eq_some_iff.mp target
    have pairwise := List.pairwise_iff_getElem.mp sound.stacked.live_apart
    have apart : View.Apart session.live[index].view session.live[other].view := by
      rcases Nat.lt_or_gt_of_ne different with before | behind
      · exact pairwise index other indexBound otherBound before
      · exact (pairwise other index otherBound indexBound behind).symm
    apply Held.bytes_congr
    intro address from_start to_end
    apply View.Writing.byteAt_run_of_outside
    unfold View.Apart at apart
    omega

private theorem bytes_perform (sound : Sound bottom top session) (action : Action) {index : Nat} {held : Held}
    (found : session.live[index]? = some held) (elsewhere : ∀ writing, action ≠ .write index writing) :
    held.bytes (session.perform action).machine.store = held.bytes session.machine.store := by
  cases action with
  | enter => rfl
  | allocate frame size alignment => exact sound.bytes_allocate frame size alignment (List.mem_of_getElem? found)
  | write allocation writing =>
    refine sound.bytes_write ?_ writing found
    rintro rfl
    exact elsewhere writing rfl
  | leave =>
    obtain ⟨machine, frames⟩ := session
    cases frames <;> rfl

end Sound

theorem sound_ofAllocation (region : Allocation) (store : Store) (world : World) :
    Sound region.start (region.start + region.size) (⟨⟨store, .ofAllocation region, world⟩, []⟩ : Session World) :=
  ⟨rfl, rfl, Nat.le_add_right _ _, rfl, .bare⟩

/-- What every frame and every live allocation may rely on, for a region from `bottom` to `top`. -/
structure Safe (bottom top : Nat) (session : Session World) : Prop where
  bottom_le : bottom ≤ session.machine.scratch.pointer
  le_top : session.machine.scratch.pointer ≤ top
  within : ∀ held ∈ session.live, held.Within session.machine.scratch.pointer top
  apart : session.live.Pairwise fun a b => a.view.Apart b.view
  /-- What a frame hands out next reads as zeroes, whatever was there before. -/
  zeroed : ∀ live ∈ session.frames, ∀ size alignment view machine,
    Scratch.allocate live.frame size alignment session.machine = .ok view machine →
      view.size = size ∧ view.toList machine.store = .ok (List.replicate size 0)
  /-- No action but a write through an allocation changes the bytes of the allocation. -/
  kept : ∀ (action : Action) index held, session.live[index]? = some held →
    (∀ writing, action ≠ .write index writing) →
      held.bytes (session.perform action).machine.store = held.bytes session.machine.store

private theorem Sound.safe {bottom top : Nat} {session : Session World} (sound : Sound bottom top session) :
    Safe bottom top session where
  bottom_le := sound.above
  le_top := sound.stacked.pointer_le_top
  within := sound.stacked.live_within
  apart := sound.stacked.live_apart
  zeroed _ _ _ _ _ _ allocated := Scratch.zeroed_of_allocate allocated
  kept action _ _ found elsewhere := sound.bytes_perform action found elsewhere

/-- No run on a scratch stack lets live allocations collide, wherever the region of the stack lies, and so it is for the
stacks that are created. -/
theorem run_safe (world : World) (actions : List Action) :
    (∀ (region : Allocation) store, Safe region.start (region.start + region.size)
      ((⟨⟨store, .ofAllocation region, world⟩, []⟩ : Session World).run actions)) ∧
    ∀ size alignment store scratch after, Scratch.new size alignment store = .ok scratch after →
      Safe scratch.bottom (scratch.bottom + size)
        ((⟨⟨after, scratch, world⟩, []⟩ : Session World).run actions) := by
  have everywhere (region : Allocation) (store : Store) : Safe region.start (region.start + region.size)
      ((⟨⟨store, .ofAllocation region, world⟩, []⟩ : Session World).run actions) :=
    ((sound_ofAllocation region store world).run actions).safe
  refine ⟨everywhere, ?_⟩
  intro size alignment store scratch after created
  obtain ⟨owned, rfl, rfl⟩ := Scratch.ofAllocation_of_new created
  exact everywhere owned after

/-- Here a second inner frame is given the bytes that the first one wrote to, while the outer allocation stays. -/
theorem run_safe_reused : ∃ scratch after,
    Scratch.new 16 8 .initial = .ok scratch after ∧
    ∃ session : Session Unit,
      session = (⟨⟨after, scratch, ()⟩, []⟩ : Session Unit).run
        [.enter, .allocate 0 3 1, .enter, .allocate 0 8 8, .write 0 (.fill 255), .leave, .enter,
          .allocate 0 8 8] ∧
      session.live.map (·.view.start) = [4096, 4109] ∧ Safe scratch.bottom (scratch.bottom + 16) session := by
  have created : Scratch.new 16 8 .initial =
      .ok ⟨4096, 4112, 4112, 0⟩ (Outcome.left (Scratch.new 16 8 .initial)) := rfl
  exact ⟨_, _, created, _, rfl, rfl, (run_safe () _).2 _ _ _ _ _ created⟩

end Session
end Interop
