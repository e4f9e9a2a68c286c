import Interop.Proofs.Scratch.Session

/-! Programs that go on as their allocations were answered, and what is left of a child frame once it has ended.
Main statements: `Without.run` compares two runs, one without a block, and `children_invisible` is for every program. -/
namespace Interop
open Outcome

def Outcome.attempt {ε σ α : Type} (action : EStateM ε σ α) : EStateM ε σ (Except ε α) := fun state =>
  match action state with
  | .ok value after => .ok (.ok value) after
  | .error reason after => .ok (.error reason) after

/-- A program in live frames, which are counted from the outermost one. It may ask any of them for memory, and go on
as that was answered. A block is run in a new frame, in the same way through the stack and through any live frame. -/
inductive Client : Nat → Type → Type 1
  | done {live : Nat} {α : Type} (result : α) : Client live α
  | allocate {live : Nat} {α : Type} (frame : Fin live) (size alignment : Nat)
    (next : Except MemoryError View → Client live α) : Client live α
  | block {live : Nat} {α β : Type} (body : Client (live + 1) β) (next : β → Client live α) : Client live α

structure Moment (World : Type) where
  live : Nat
  frames : Vector Frame live
  machine : Machine World

namespace Client

variable {World : Type}

def run {live : Nat} {α : Type} : Client live α → Vector Frame live →
    EStateM MemoryError (Machine World) (α × List (Except MemoryError View))
  | .done result, _ => return (result, [])
  | .allocate frame size alignment next, frames => do
    let answer ← attempt (Scratch.allocate frames[frame] size alignment)
    let rest ← (next answer).run frames
    return (rest.1, answer :: rest.2)
  | .block body next, frames => do
    let inner ← Scratch.withFrame fun frame => body.run (frames.push frame)
    let rest ← (next inner.1).run frames
    return (rest.1, inner.2 ++ rest.2)

/-- The moments of a run, those in blocks and those after them. -/
inductive Passes : {live : Nat} → {α : Type} → Client live α → Vector Frame live → Machine World → Moment World → Prop
  | here {live : Nat} {α : Type} (client : Client live α) (frames : Vector Frame live) (machine : Machine World) :
    Passes client frames machine ⟨live, frames, machine⟩
  | answered {live : Nat} {α : Type} {frame : Fin live} {size alignment : Nat}
    {next : Except MemoryError View → Client live α} {frames : Vector Frame live} {machine after : Machine World}
    {answer : Except MemoryError View} {moment : Moment World}
    (asked : attempt (Scratch.allocate frames[frame] size alignment) machine = .ok answer after)
    (rest : Passes (next answer) frames after moment) :
    Passes (.allocate frame size alignment next) frames machine moment
  | inside {live : Nat} {α β : Type} {body : Client (live + 1) β} {next : β → Client live α}
    {frames : Vector Frame live} {machine : Machine World} {moment : Moment World}
    (rest : Passes body (frames.push machine.scratch.nextFrame) { machine with scratch := machine.scratch.enter }
      moment) :
    Passes (.block body next) frames machine moment
  | behind {live : Nat} {α β : Type} {body : Client (live + 1) β} {next : β → Client live α}
    {frames : Vector Frame live} {machine after : Machine World} {inner : β × List (Except MemoryError View)}
    {moment : Moment World}
    (ended : Scratch.withFrame (fun frame => body.run (frames.push frame)) machine = .ok inner after)
    (rest : Passes (next inner.1) frames after moment) :
    Passes (.block body next) frames machine moment

/-- The second program does without a block of the first one, whose result nobody asks for. -/
inductive Without {outer : Nat} {β : Type} (body : Client (outer + 1) β) :
    {live : Nat} → {α : Type} → Client live α → Client live α → Prop
  | kept {live : Nat} {α : Type} (client : Client live α) : Without body client client
  | removed {α : Type} (next : Client outer α) : Without body (.block body fun _ => next) next
  | answered {live : Nat} {α : Type} {frame : Fin live} {size alignment : Nat}
    {next other : Except MemoryError View → Client live α}
    (rest : ∀ answer, Without body (next answer) (other answer)) :
    Without body (.allocate frame size alignment next) (.allocate frame size alignment other)
  | inside {live : Nat} {α γ : Type} {first second : Client (live + 1) γ} {next : γ → Client live α}
    (rest : Without body first second) : Without body (.block first next) (.block second next)
  | behind {live : Nat} {α γ : Type} {first : Client (live + 1) γ} {next other : γ → Client live α}
    (rest : ∀ result, Without body (next result) (other result)) :
    Without body (.block first next) (.block first other)

end Client

namespace Scratch

variable {World : Type}

private theorem attempt_allocate (frame : Frame) (size alignment : Nat) {machine other : Machine World}
    (same : other.scratch = machine.scratch) : ∃ answer after last pointer,
      attempt (allocate frame size alignment) machine = .ok answer after ∧
      attempt (allocate frame size alignment) other = .ok answer last ∧
      after.scratch = { machine.scratch with pointer } ∧ last.scratch = after.scratch := by
  rcases allocate_cases frame size alignment machine with ⟨start, reserved, allocated⟩ | ⟨reason, reserved, refused⟩
  · obtain ⟨_, again, there⟩ | ⟨_, again, _⟩ := allocate_cases frame size alignment other
    · rw [same, reserved] at again
      cases again
      exact ⟨_, _, _, start, by rw [attempt, allocated], by rw [attempt, there], rfl, by rw [same]⟩
    · rw [same, reserved] at again
      cases again
  · obtain ⟨_, again, _⟩ | ⟨_, again, there⟩ := allocate_cases frame size alignment other
    · rw [same, reserved] at again
      cases again
    · rw [same, reserved] at again
      cases again
      exact ⟨_, _, _, machine.scratch.pointer, by rw [attempt, refused], by rw [attempt, there], rfl, same⟩

end Scratch

namespace Client

variable {World : Type}

section Steps

variable {live : Nat} {α β : Type} {frames : Vector Frame live} {machine between after : Machine World}

private theorem run_allocate {frame : Fin live} {size alignment : Nat} {next : Except MemoryError View → Client live α}
    {answer : Except MemoryError View} {rest : α × List (Except MemoryError View)}
    (asked : attempt (Scratch.allocate frames[frame] size alignment) machine = .ok answer between)
    (ended : (next answer).run frames between = .ok rest after) :
    (allocate frame size alignment next).run frames machine = .ok (rest.1, answer :: rest.2) after := by
  rw [run, run_bind_of_ok asked, run_bind_of_ok ended]
  rfl

private theorem run_block {body : Client (live + 1) β} {next : β → Client live α}
    {inner : β × List (Except MemoryError View)} {rest : α × List (Except MemoryError View)}
    (first : Scratch.withFrame (fun frame => body.run (frames.push frame)) machine = .ok inner between)
    (ended : (next inner.1).run frames between = .ok rest after) :
    (block body next).run frames machine = .ok (rest.1, inner.2 ++ rest.2) after := by
  rw [run, run_bind_of_ok first, run_bind_of_ok ended]
  rfl

private theorem withFrame_run {body : Client (live + 1) β} {inner : β × List (Except MemoryError View)} {pointer : Nat}
    (ended : body.run (frames.push machine.scratch.nextFrame) { machine with scratch := machine.scratch.enter } =
      .ok inner between) (kept : between.scratch = { machine.scratch.enter with pointer }) :
    ∃ after, Scratch.withFrame (fun frame => body.run (frames.push frame)) machine = .ok inner after ∧
      after.scratch = machine.scratch := by
  refine ⟨{ between with scratch := between.scratch.leave machine.scratch.nextFrame }, ?_, ?_⟩
  · simp only [Scratch.withFrame, ended]
  · rw [kept]
    rfl

private theorem withFrame_alike {first second : Client (live + 1) β} {there left : Machine World}
    {inner other : β × List (Except MemoryError View)} {pointer : Nat} (same : there.scratch = machine.scratch)
    (ended : first.run (frames.push machine.scratch.nextFrame) { machine with scratch := machine.scratch.enter } =
      .ok inner between)
    (again : second.run (frames.push machine.scratch.nextFrame) { there with scratch := there.scratch.enter } =
      .ok other left)
    (kept : between.scratch = { machine.scratch.enter with pointer }) (equal : left.scratch = between.scratch) :
    ∃ after last, Scratch.withFrame (fun frame => first.run (frames.push frame)) machine = .ok inner after ∧
      Scratch.withFrame (fun frame => second.run (frames.push frame)) there = .ok other last ∧
      after.scratch = machine.scratch ∧ last.scratch = after.scratch := by
  obtain ⟨after, block, restored⟩ := withFrame_run ended kept
  rw [← same] at again kept
  obtain ⟨last, twin, agree⟩ := withFrame_run again (equal.trans kept)
  exact ⟨after, last, block, twin, restored, agree.trans (same.trans restored.symm)⟩

private theorem enter_congr {there : Machine World} (same : there.scratch = machine.scratch) :
    ({ there with scratch := there.scratch.enter } : Machine World).scratch =
      ({ machine with scratch := machine.scratch.enter } : Machine World).scratch :=
  congrArg Scratch.enter same

end Steps

private theorem run_congr {live : Nat} {α : Type} (client : Client live α) (frames : Vector Frame live)
    {machine other : Machine World} (same : other.scratch = machine.scratch) : ∃ outcome after last pointer,
      client.run frames machine = .ok outcome after ∧ client.run frames other = .ok outcome last ∧
      after.scratch = { machine.scratch with pointer } ∧ last.scratch = after.scratch := by
  induction client generalizing machine other with
  | done result => exact ⟨_, machine, other, machine.scratch.pointer, rfl, rfl, rfl, same⟩
  | allocate frame size alignment next ih =>
    obtain ⟨answer, middle, between, _, asked, again, moved, equal⟩ :=
      Scratch.attempt_allocate frames[frame] size alignment same
    obtain ⟨outcome, after, last, pointer, ended, there, kept, agree⟩ := ih answer frames equal
    refine ⟨_, after, last, pointer, run_allocate asked ended, run_allocate again there, ?_, agree⟩
    rw [kept, moved]
  | block body next bodyIh nextIh =>
    -- The frame is the same in both runs, since it is made of the stack alone.
    obtain ⟨inner, _, _, _, inside, there, kept, equal⟩ :=
      bodyIh (frames.push machine.scratch.nextFrame) (enter_congr same)
    obtain ⟨_, _, first, second, restored, equal⟩ := withFrame_alike same inside there kept equal
    obtain ⟨outcome, after, last, pointer, ended, behind, kept, agree⟩ := nextIh inner.1 frames equal
    exact ⟨_, after, last, pointer, run_block first ended, run_block second behind, restored ▸ kept, agree⟩

private theorem withFrame_congr {live : Nat} {β : Type} (body : Client (live + 1) β) (frames : Vector Frame live)
    {machine other : Machine World} (same : other.scratch = machine.scratch) : ∃ inner after last,
      Scratch.withFrame (fun frame => body.run (frames.push frame)) machine = .ok inner after ∧
      Scratch.withFrame (fun frame => body.run (frames.push frame)) other = .ok inner last ∧
      after.scratch = machine.scratch ∧ last.scratch = after.scratch := by
  obtain ⟨inner, _, _, _, inside, there, kept, equal⟩ :=
    body.run_congr (frames.push machine.scratch.nextFrame) (enter_congr same)
  exact ⟨inner, withFrame_alike same inside there kept equal⟩

end Client

/-! ## Frames around the innermost one -/

structure Moment.Nested {World : Type} (moment : Moment World) : Prop where
  depth : moment.machine.scratch.depth = moment.live
  frames : ∀ frame : Fin moment.live, moment.frames[frame].depth = frame + 1

namespace Moment.Nested

variable {World : Type} {live : Nat} {frames : Vector Frame live} {machine after : Machine World}

private theorem enter (nested : Nested ⟨live, frames, machine⟩) :
    Nested ⟨live + 1, frames.push machine.scratch.nextFrame, { machine with scratch := machine.scratch.enter }⟩ where
  depth := congrArg (· + 1) nested.depth
  frames frame := by
    rw [Fin.getElem_fin, Vector.getElem_push]
    split
    next outer => exact nested.frames ⟨frame, outer⟩
    next innermost =>
      have bound : frame.val < live + 1 := frame.isLt
      have last : frame.val = live := by omega
      rw [last, Scratch.nextFrame, nested.depth]

private theorem of_depth (nested : Nested ⟨live, frames, machine⟩)
    (same : after.scratch.depth = machine.scratch.depth) :
    Nested ⟨live, frames, after⟩ :=
  ⟨same.trans nested.depth, nested.frames⟩

private theorem inactive {moment : Moment World} (nested : moment.Nested) {frame : Fin moment.live}
    (outer : frame + 1 < moment.live) (size : Nat) {alignment : Nat} (power : alignment.isPowerOfTwo) :
    Scratch.allocate moment.frames[frame] size alignment moment.machine =
      .error .inactiveFrame moment.machine := by
  have other : moment.machine.scratch.depth ≠ moment.frames[frame].depth := by
    rw [nested.depth, nested.frames]
    omega
  have refused : moment.machine.scratch.reserve moment.frames[frame] size alignment = .error .inactiveFrame := by
    rw [Scratch.reserve, checkAlignment_eq_ok_iff.mpr power, ok_bind, if_pos other]
  exact Scratch.allocate_eq_error_iff.mpr ⟨refused, rfl⟩

end Moment.Nested

namespace Client

variable {World : Type}

private theorem Passes.nested {live : Nat} {α : Type} {client : Client live α} {frames : Vector Frame live}
    {machine : Machine World} {moment : Moment World} (passes : client.Passes frames machine moment)
    (nested : Moment.Nested ⟨live, frames, machine⟩) : moment.Nested := by
  induction passes with
  | here => exact nested
  | @answered live α frame size alignment _ frames machine _ _ _ asked _ ih =>
    obtain ⟨_, _, _, _, again, _, moved, _⟩ :=
      Scratch.attempt_allocate frames[frame] size alignment (Eq.refl machine.scratch)
    cases asked.symm.trans again
    exact ih (nested.of_depth (by rw [moved]))
  | inside _ ih => exact ih nested.enter
  | @behind live α β body next frames machine _ _ _ ended _ ih =>
    obtain ⟨_, _, _, again, _, restored, _⟩ := body.withFrame_congr frames (Eq.refl machine.scratch)
    cases ended.symm.trans again
    exact ih (nested.of_depth (by rw [restored]))

/-! ## Programs without a block -/

section Removal

variable {outer : Nat} {β : Type} {body : Client (outer + 1) β}

/-- The answers in a block at the moment when a run came to it, or none if it did not. -/
inductive Within {outer : Nat} {β : Type} (body : Client (outer + 1) β) {live : Nat} {α : Type} (client : Client live α)
    (frames : Vector Frame live) (machine : Machine World) : List (Except MemoryError View) → Prop
  | unmet : Within body client frames machine []
  | met {around : Vector Frame outer} {between after : Machine World} {inner : β × List (Except MemoryError View)}
    (passes : client.Passes frames machine ⟨outer, around, between⟩)
    (ended : Scratch.withFrame (fun frame => body.run (around.push frame)) between = .ok inner after) :
    Within body client frames machine inner.2

private theorem Within.imp {live inner : Nat} {α γ : Type} {client : Client inner γ} {whole : Client live α}
    {frames : Vector Frame inner} {around : Vector Frame live} {machine between : Machine World}
    {answers : List (Except MemoryError View)} (within : Within body client frames machine answers)
    (passes : ∀ moment, client.Passes frames machine moment → whole.Passes around between moment) :
    Within body whole around between answers := by
  cases within with
  | unmet => exact .unmet
  | met met ended => exact .met (passes _ met) ended

/-- A run without a block differs from the one with it by the answers in the block alone. -/
theorem Without.run {live : Nat} {α : Type} {client other : Client live α} (without : Without body client other)
    (frames : Vector Frame live) {machine there : Machine World} (same : there.scratch = machine.scratch) :
    ∃ result before inside behind after last pointer,
      client.run frames machine = .ok (result, before ++ inside ++ behind) after ∧
      other.run frames there = .ok (result, before ++ behind) last ∧
      Within body client frames machine inside ∧
      after.scratch = { machine.scratch with pointer } ∧ last.scratch = after.scratch := by
  induction without generalizing machine there with
  | kept client =>
    obtain ⟨outcome, after, last, pointer, ended, again, kept, agree⟩ := client.run_congr frames same
    exact ⟨outcome.1, [], [], outcome.2, after, last, pointer, ended, again, .unmet, kept, agree⟩
  | removed next =>
    obtain ⟨inner, between, _, block, _, restored, _⟩ := body.withFrame_congr frames (Eq.refl machine.scratch)
    obtain ⟨outcome, after, last, pointer, ended, again, kept, agree⟩ :=
      next.run_congr frames (same.trans restored.symm)
    exact ⟨outcome.1, [], inner.2, outcome.2, after, last, pointer, run_block block ended, again,
      .met (.here _ _ _) block, restored ▸ kept, agree⟩
  | @answered live α frame size alignment next other rest ih =>
    obtain ⟨answer, _, _, _, asked, reply, moved, equal⟩ :=
      Scratch.attempt_allocate frames[frame] size alignment same
    obtain ⟨result, before, inside, behind, after, last, pointer, ended, again, within, kept, agree⟩ :=
      ih answer frames equal
    refine ⟨result, answer :: before, inside, behind, after, last, pointer, run_allocate asked ended,
      run_allocate reply again, within.imp fun _ => .answered asked, ?_, agree⟩
    rw [kept, moved]
  | @inside live α γ first second next rest ih =>
    obtain ⟨result, before, inside, behind, _, _, _, inner, other, within, kept, equal⟩ :=
      ih (frames.push machine.scratch.nextFrame) (enter_congr same)
    obtain ⟨_, _, block, again, restored, equal⟩ := withFrame_alike same inner other kept equal
    obtain ⟨outcome, after, last, pointer, ended, finish, kept, agree⟩ := (next result).run_congr frames equal
    refine ⟨outcome.1, before, inside, behind ++ outcome.2, after, last, pointer, ?_, ?_,
      within.imp fun _ => .inside, restored ▸ kept, agree⟩
    · simpa using run_block block ended
    · simpa using run_block again finish
  | @behind live α γ first next other rest ih =>
    obtain ⟨inner, _, _, block, again, restored, equal⟩ := first.withFrame_congr frames same
    obtain ⟨result, before, inside, behind, after, last, pointer, ended, finish, within, kept, agree⟩ :=
      ih inner.1 frames equal
    refine ⟨result, inner.2 ++ before, inside, behind, after, last, pointer, ?_, ?_,
      within.imp fun _ => .behind block, restored ▸ kept, agree⟩
    · simpa using run_block block ended
    · simpa using run_block again finish

end Removal

/-- What the blocks of a program leave to the program around them. -/
structure HidesChildren {α : Type} (client : Client 0 α) (machine : Machine World) : Prop where
  restores : ∀ moment, client.Passes #v[] machine moment → ∀ (β : Type) (body : Client (moment.live + 1) β),
    ∃ inner after, Scratch.withFrame (fun frame => body.run (moment.frames.push frame)) moment.machine =
        .ok inner after ∧
      after.scratch.available = moment.machine.scratch.available ∧
      after.scratch.depth = moment.machine.scratch.depth
  inactive : ∀ moment, client.Passes #v[] machine moment → ∀ frame : Fin moment.live, frame + 1 < moment.live →
    ∀ size alignment, alignment.isPowerOfTwo →
      Scratch.allocate moment.frames[frame] size alignment moment.machine = .error .inactiveFrame moment.machine
  removal : ∀ (outer : Nat) (β : Type) (body : Client (outer + 1) β) (other : Client 0 α),
    Without body client other → ∃ result before inside behind after last,
      client.run #v[] machine = .ok (result, before ++ inside ++ behind) after ∧
      other.run #v[] machine = .ok (result, before ++ behind) last ∧
      Within body client #v[] machine inside ∧ last.scratch = after.scratch

/-- On a stack without frames, wherever its region lies, every block that a run comes to returns with the space and the
depth that there were before. While a frame is not the innermost one it gives out nothing and changes nothing. A program
that does without a block is answered the same outside of it. -/
theorem children_invisible {machine : Machine World} (bare : machine.scratch.depth = 0) {α : Type}
    (client : Client 0 α) : client.HidesChildren machine where
  restores moment _ β body := by
    obtain ⟨inner, after, _, ended, _, restored, _⟩ :=
      body.withFrame_congr moment.frames (Eq.refl moment.machine.scratch)
    exact ⟨inner, after, ended, congrArg Scratch.available restored, congrArg Scratch.depth restored⟩
  inactive moment passes frame outer size alignment power := by
    have start : Moment.Nested ⟨0, #v[], machine⟩ := ⟨bare, fun frame => frame.elim0⟩
    exact (passes.nested start).inactive outer size power
  removal outer β body other without := by
    obtain ⟨result, before, inside, behind, after, last, _, ended, again, within, _, agree⟩ :=
      without.run #v[] (Eq.refl machine.scratch)
    exact ⟨result, before, inside, behind, after, last, ended, again, within, agree⟩

end Client

namespace Specimen

def child : Client 2 Unit := .allocate 1 8 8 fun _ => .allocate 0 1 1 fun _ => .done ()

def last : Client 1 Unit := .allocate 0 8 8 fun _ => .done ()

def parent (rest : Client 1 Unit) : Client 0 Unit := .block (.allocate 0 3 1 fun _ => rest) fun _ => .done ()

end Specimen

namespace Client

open Specimen

/-- The parent is given the same bytes with the child and without it. -/
theorem children_invisible_removed : ∃ scratch after, Scratch.new 16 8 .initial = .ok scratch after ∧
    ∃ before inside behind first second,
      (parent (.block child fun _ => last)).run #v[] (⟨after, scratch, ()⟩ : Machine Unit) =
        .ok ((), before ++ inside ++ behind) first ∧
      (parent last).run #v[] (⟨after, scratch, ()⟩ : Machine Unit) = .ok ((), before ++ behind) second ∧
      before ++ behind = [.ok (.atAddress 4109 3 true), .ok (.atAddress 4096 8 true)] := by
  have created : Scratch.new 16 8 .initial =
      .ok ⟨4096, 4112, 4112, 0⟩ (left (Scratch.new 16 8 .initial)) := rfl
  have without : Without child (parent (.block child fun _ => last)) (parent last) :=
    .inside (.answered fun _ => .removed last)
  have bare : (⟨left (Scratch.new 16 8 .initial), ⟨4096, 4112, 4112, 0⟩, ()⟩ : Machine Unit).scratch.depth = 0 :=
    Scratch.depth_of_new created
  obtain ⟨_, before, inside, behind, first, second, ended, again, _⟩ :=
    (children_invisible bare (parent (.block child fun _ => last))).removal 1 Unit child (parent last) without
  refine ⟨_, _, created, before, inside, behind, first, second, ended, again, ?_⟩
  have answers := congrArg (fun outcome => match outcome with
    | .ok rest _ => rest.2
    | .error _ _ => []) again
  exact answers.symm

end Client
end Interop
