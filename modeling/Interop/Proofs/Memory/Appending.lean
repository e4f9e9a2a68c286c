import Interop.Number.Words
import Interop.Proofs.Memory.Steps
import Mathlib.Algebra.GroupWithZero.Nat

/-! Whatever code does with an encoder, it adds bytes at the end and nowhere else, and steps that are refused leave no
trace. Main statement: `runs_append`, for code of any length that goes on after refusals, in blocks of any nesting. -/
namespace Interop
open Outcome

namespace Encoder
open Cursor

private theorem map_getLast?_cons {α β : Type} (image : α → β) (first : α) (rest : List α) (other : β) :
    ((first :: rest).getLast?.map image).getD other = (rest.getLast?.map image).getD (image first) := by
  rw [List.getLast?_cons]
  cases rest.getLast? <;> rfl

/-- One step of an encoder. Any view that exists may be put, the encoded one as well. -/
inductive Move where
  | put (type : ScalarType) (bits : type.Pattern) (order : ByteOrder)
  | putBytes (bytes : List UInt8)
  | skip (count : Nat)
  | putView (source : View) (obtained : source.Obtained)

namespace Move

def width : Move → Nat
  | put type _ _ => type.width
  | putBytes bytes => bytes.length
  | skip count => count
  | putView source _ => source.size

def isSkip : Move → Bool
  | skip _ => true
  | _ => false

def perform : Move → EStateM MemoryError Cursor Unit
  | put type bits order => Encoder.put type bits order
  | putBytes bytes => Encoder.putBytes bytes
  | skip count => Encoder.skip count
  | putView source _ => Encoder.putView source

end Move

/-- Code that is given an encoder. It goes on after each step as that was answered, it may look at the cursor, and it may
give the encoder to other code as a block, to be told how many bytes that has put. -/
inductive Code : Type → Type 1
  | finish {ε : Type} (outcome : Except ε Unit) : Code ε
  | look {ε : Type} (next : Cursor → Code ε) : Code ε
  | step {ε : Type} (move : Move) (next : Except MemoryError Unit → Code ε) : Code ε
  | block {ε δ : Type} (body : Code δ) (next : Except δ Nat → Code ε) : Code ε

structure Record where
  move : Move
  before : Cursor
  after : Cursor
  answer : Except MemoryError Unit

/-- What is noted of a run: its steps, and the blocks where they end, with the steps that were in them. -/
inductive Entry where
  | step (record : Record)
  | block (inside : List Record) (before after : Cursor) (counted : Option Nat)

def Entry.after : Entry → Cursor
  | step record => record.after
  | block _ _ after _ => after

def Entry.record? : Entry → Option Record
  | step record => some record
  | block .. => none

def stepsOf (log : List Entry) : List Record := log.filterMap Entry.record?

private theorem stepsOf_step (record : Record) (log : List Entry) :
    stepsOf (.step record :: log) = record :: stepsOf log :=
  List.filterMap_cons_some rfl

private theorem stepsOf_block (inside : List Record) (before after : Cursor) (counted : Option Nat) (log : List Entry) :
    stepsOf (.block inside before after counted :: log) = stepsOf log :=
  List.filterMap_cons_none rfl

private theorem mem_stepsOf {record : Record} {log : List Entry} : record ∈ stepsOf log ↔ .step record ∈ log := by
  unfold stepsOf
  rw [List.mem_filterMap]
  constructor
  · rintro ⟨entry, noted, same⟩
    cases entry with
    | step other =>
      cases same
      exact noted
    | block => cases same
  · intro noted
    exact ⟨.step record, noted, rfl⟩

namespace Code

def run {ε : Type} : Code ε → EStateM ε Cursor Unit
  | .finish (.ok ()), cursor => .ok () cursor
  | .finish (.error reason), cursor => .error reason cursor
  | .look next, cursor => (next cursor).run cursor
  | .step move next, cursor =>
    let result := move.perform cursor
    (next (answer result)).run (left result)
  | .block body next, cursor =>
    let result := advanceOf body.run cursor
    (next ((answer result).map Prod.fst)).run (left result)

def log {ε : Type} : Code ε → Cursor → List Entry
  | .finish _, _ => []
  | .look next, cursor => (next cursor).log cursor
  | .step move next, cursor =>
    let result := move.perform cursor
    .step ⟨move, cursor, left result, answer result⟩ :: (next (answer result)).log (left result)
  | .block body next, cursor =>
    let result := advanceOf body.run cursor
    let counted := (answer result).map Prod.fst
    body.log cursor ++
      .block (stepsOf (body.log cursor)) cursor (left result) counted.toOption :: (next counted).log (left result)

end Code

def Record.succeeded (record : Record) : Bool := record.answer.isOk

def Record.gain (record : Record) : Nat := if record.succeeded then record.move.width else 0

def gainOf (records : List Record) : Nat := (records.map Record.gain).sum

private theorem gainOf_cons (record : Record) (records : List Record) :
    gainOf (record :: records) = record.gain + gainOf records := by
  rw [gainOf, gainOf, List.map_cons, List.sum_cons]

def landing (start : Nat) (records : List Record) : Nat :=
  ((records.filter Record.succeeded).getLast?.map fun record => record.after.position).getD start

def Record.Skips (record : Record) (address : Nat) : Prop :=
  record.move.isSkip = true ∧ record.before.view.start + record.before.position ≤ address ∧
    address < record.before.view.start + record.after.position

/-- A step that fits moves on by its width and changes the bytes there at most; a skip changes none. A step that does not
fit says so and changes nothing. -/
inductive Record.Sound (record : Record) : Prop
  | done (room : record.move.width ≤ record.before.remaining) (answer : record.answer = .ok ())
    (view : record.after.view = record.before.view)
    (moved : record.after.position = record.before.position + record.move.width)
    (kept : ∀ address, address < record.before.view.start + record.before.position ∨
      record.before.view.start + record.after.position ≤ address ∨ record.move.isSkip = true →
      record.after.store.byteAt address = record.before.store.byteAt address)
  | refused (full : record.before.remaining < record.move.width)
    (answer : record.answer =
      .error (.overflow record.before.position record.move.width record.before.view.size))
    (unchanged : record.after = record.before)

structure Ready (cursor : Cursor) : Prop where
  writable : cursor.view.writable = true
  inside : cursor.position ≤ cursor.view.size

section Steps

variable {move : Move} {action : View → Nat → EStateM MemoryError Store Unit} {cursor : Cursor}

private theorem sound_of_step (performs : move.perform = step move.width action)
    (inside : cursor.position ≤ cursor.view.size) (acts : cursor.position + move.width ≤ cursor.view.size →
      ∃ after, action cursor.view cursor.position cursor.store = .ok () after ∧
        ∀ address, address < cursor.view.start + cursor.position ∨
          cursor.view.start + (cursor.position + move.width) ≤ address ∨ move.isSkip = true →
          after.byteAt address = cursor.store.byteAt address) :
    Record.Sound ⟨move, cursor, left (move.perform cursor), answer (move.perform cursor)⟩ := by
  rw [performs]
  by_cases room : move.width ≤ cursor.remaining
  · have fits : cursor.position + move.width ≤ cursor.view.size := by
      unfold remaining at room
      omega
    obtain ⟨after, acted, kept⟩ := acts fits
    have stepped : step move.width action cursor = .ok () ⟨after, cursor.view, cursor.position + move.width⟩ :=
      step_of_ok room acted
    rw [stepped]
    exact .done room rfl rfl rfl kept
  · have full := Nat.lt_of_not_le room
    have stepped : step move.width action cursor =
        .error (.overflow cursor.position move.width cursor.view.size) cursor := step_of_full full
    rw [stepped]
    exact .refused full rfl rfl

private theorem sound_of_write (performs : move.perform = step move.width action) (writing : move.isSkip = false)
    (inside : cursor.position ≤ cursor.view.size)
    (writes : cursor.position + move.width ≤ cursor.view.size → ∃ bytes : List UInt8, bytes.length = move.width ∧
      action cursor.view cursor.position cursor.store =
        .ok () (cursor.store.write (cursor.view.start + cursor.position) bytes)) :
    Record.Sound ⟨move, cursor, left (move.perform cursor), answer (move.perform cursor)⟩ := by
  refine sound_of_step performs inside fun fits => ?_
  obtain ⟨bytes, length, acted⟩ := writes fits
  -- A write that is not a skip promises nothing about its own range.
  refine ⟨_, acted, fun address outside => Store.byteAt_write_of_outside _ _ _ ?_⟩
  simp only [writing, Bool.false_eq_true, or_false] at outside
  omega

private theorem Move.sound (move : Move) (ready : Ready cursor) :
    Record.Sound ⟨move, cursor, left (move.perform cursor), answer (move.perform cursor)⟩ := by
  have writable := ready.writable
  cases move with
  | put type bits order =>
    refine @sound_of_write (.put type bits order) (fun view start => view.set type start bits order) cursor rfl rfl
      ready.inside fun fits => ?_
    have width : (type.encode order bits).length = type.width := type.length_encode order bits
    refine ⟨type.encode order bits, width, ?_⟩
    rw [View.set_eq_writeBytes]
    exact View.writeBytes_eq_ok writable (width ▸ fits) cursor.store
  | putBytes bytes =>
    exact @sound_of_write (.putBytes bytes) (fun view start => view.writeBytes start bytes) cursor rfl rfl
      ready.inside fun fits => ⟨bytes, rfl, View.writeBytes_eq_ok writable fits cursor.store⟩
  | skip count =>
    exact @sound_of_step (.skip count) (fun _ _ => pure ()) cursor rfl ready.inside fun _ =>
      ⟨cursor.store, rfl, fun _ _ => rfl⟩
  | putView source obtained =>
    refine @sound_of_write (.putView source obtained) (fun view start => do
      let target ← Store.observe fun _ => view.slice start source.size
      target.copyFrom source) cursor rfl rfl ready.inside fun fits => ?_
    have inside : cursor.position + source.size ≤ cursor.view.size := fits
    refine ⟨cursor.store.read source.start source.size, Store.length_read _ _ _, ?_⟩
    rw [Store.observe_bind, View.slice_eq_ok inside]
    exact @View.copyFrom_eq_ok
      { cursor.view with start := cursor.view.start + cursor.position, size := source.size } source writable
      obtained.readable (Nat.le_refl _) cursor.store

end Steps

structure Grows (before after : Cursor) : Prop where
  view : after.view = before.view
  forward : before.position ≤ after.position
  inside : before.position ≤ before.view.size → after.position ≤ before.view.size
  kept : ∀ address, address < before.view.start + before.position ∨ before.view.start + after.position ≤ address →
    after.store.byteAt address = before.store.byteAt address

namespace Grows

variable {first second third : Cursor}

theorem refl (cursor : Cursor) : Grows cursor cursor :=
  ⟨rfl, Nat.le_refl _, id, fun _ _ => rfl⟩

theorem trans (before : Grows first second) (after : Grows second third) : Grows first third := by
  have forward := before.forward
  have further := after.forward
  constructor
  · exact after.view.trans before.view
  · exact Nat.le_trans forward further
  · intro inside
    have within := after.inside
    rw [before.view] at within
    exact within (before.inside inside)
  · intro address outside
    have kept := after.kept address
    rw [before.view] at kept
    rw [kept (by omega)]
    exact before.kept address (by omega)

private theorem ready (grows : Grows first second) (ready : Ready first) : Ready second := by
  constructor
  · rw [grows.view]
    exact ready.writable
  · rw [grows.view]
    exact grows.inside ready.inside

end Grows

namespace Record.Sound

variable {record : Record}

private theorem position_eq (sound : record.Sound) : record.after.position = record.before.position + record.gain := by
  unfold gain succeeded
  cases sound with
  | done _ answer _ moved _ =>
    rw [answer, moved]
    rfl
  | refused _ answer unchanged =>
    rw [answer, unchanged]
    rfl

private theorem landing_cons (sound : record.Sound) (later : List Record) :
    landing record.before.position (record :: later) = landing record.after.position later := by
  unfold landing
  cases sound with
  | done _ answer _ _ _ =>
    have succeeds : record.succeeded = true := congrArg Except.isOk answer
    rw [List.filter_cons_of_pos succeeds, map_getLast?_cons]
  | refused _ answer unchanged =>
    have fails : ¬ record.succeeded = true := by
      rw [succeeded, answer]
      nofun
    rw [List.filter_cons_of_neg fails, unchanged]

private theorem byteAt_of_skip (sound : record.Sound) (skip : record.move.isSkip = true) (address : Nat) :
    record.after.store.byteAt address = record.before.store.byteAt address := by
  cases sound with
  | done _ _ _ _ kept => exact kept address (.inr (.inr skip))
  | refused _ _ unchanged => rw [unchanged]

private theorem grows (sound : record.Sound) : Grows record.before record.after := by
  cases sound with
  | done room _ view moved kept =>
    unfold remaining at room
    exact ⟨view, by omega, fun inside => by omega, fun address outside =>
      kept address (outside.imp_right Or.inl)⟩
  | refused _ _ unchanged =>
    rw [unchanged]
    exact .refl _

end Record.Sound

/-- The entries of a log follow on one another. A block is noted at its end, behind the entries that were made in it. -/
inductive Chain : Cursor → List Entry → Cursor → Prop
  | nil (cursor : Cursor) : Chain cursor [] cursor
  | step {record : Record} {first last : Cursor} {log : List Entry} (begins : first = record.before)
    (sound : record.Sound) (rest : Chain record.after log last) : Chain first (.step record :: log) last
  | block {before after last : Cursor} {within log : List Entry} {counted : Option Nat}
    (inside : Chain before within after) (counts : ∀ count ∈ counted, count = after.position - before.position)
    (rest : Chain after log last) : Chain after (.block (stepsOf within) before after counted :: log) last

namespace Chain

variable {first middle last : Cursor} {log rest : List Entry}

private theorem append (chain : Chain first log middle) (behind : Chain middle rest last) :
    Chain first (log ++ rest) last := by
  induction chain with
  | nil cursor => exact behind
  | step begins sound _ ih => exact .step begins sound (ih behind)
  | block inside counts _ _ ih => exact .block inside counts (ih behind)

private theorem split (chain : Chain first (log ++ rest) last) :
    ∃ middle, Chain first log middle ∧ Chain middle rest last := by
  induction log generalizing first with
  | nil => exact ⟨first, .nil first, chain⟩
  | cons entry log ih =>
    cases chain with
    | step begins sound chain =>
      obtain ⟨middle, before, after⟩ := ih chain
      exact ⟨middle, .step begins sound before, after⟩
    | block inside counts chain =>
      obtain ⟨middle, before, after⟩ := ih chain
      exact ⟨middle, .block inside counts before, after⟩

private theorem last_eq (chain : Chain first log last) : last = (log.getLast?.map Entry.after).getD first := by
  induction chain with
  | nil cursor => rfl
  | step _ _ _ ih =>
    rw [ih, map_getLast?_cons]
    rfl
  | block _ _ _ _ ih =>
    rw [ih, map_getLast?_cons]
    rfl

private theorem after_eq {entry : Entry} (chain : Chain first (log ++ [entry]) last) : last = entry.after := by
  rw [chain.last_eq, List.getLast?_append]
  rfl

private theorem grows (chain : Chain first log last) : Grows first last := by
  induction chain with
  | nil cursor => exact .refl cursor
  | step begins sound _ ih =>
    rw [begins]
    exact sound.grows.trans ih
  | block _ _ _ _ ih => exact ih

private theorem sound (chain : Chain first log last) : ∀ record ∈ stepsOf log, record.Sound := by
  induction chain with
  | nil cursor => exact List.forall_mem_nil _
  | step _ sound _ ih =>
    rw [stepsOf_step]
    exact List.forall_mem_cons.mpr ⟨sound, ih⟩
  | block _ _ _ _ ih =>
    rw [stepsOf_block]
    exact ih

private theorem position_eq (chain : Chain first log last) : last.position = first.position + gainOf (stepsOf log) := by
  induction chain with
  | nil cursor => rfl
  | step begins sound _ ih => rw [ih, sound.position_eq, begins, stepsOf_step, gainOf_cons, Nat.add_assoc]
  | block _ _ _ _ ih => rw [ih, stepsOf_block]

private theorem position_eq_landing (chain : Chain first log last) :
    last.position = landing first.position (stepsOf log) := by
  induction chain with
  | nil cursor => rfl
  | step begins sound _ ih => rw [ih, stepsOf_step, begins, sound.landing_cons]
  | block _ _ _ _ ih => rw [ih, stepsOf_block]

private theorem byteAt_of_skips (chain : Chain first log last) {record : Record} (noted : record ∈ stepsOf log)
    {address : Nat} (skips : record.Skips address) : last.store.byteAt address = first.store.byteAt address := by
  -- What was skipped stays as it was: the puts before it end in front of it, and those after it begin behind it.
  obtain ⟨skip, lower, upper⟩ := skips
  obtain ⟨done, rest, rfl⟩ := List.append_of_mem (mem_stepsOf.mp noted)
  obtain ⟨middle, earlier, later⟩ := chain.split
  cases later with
  | step begins sound later =>
    subst begins
    have view := sound.grows.view
    rw [later.grows.kept address (.inl (view ▸ upper)), sound.byteAt_of_skip skip, earlier.grows.kept address]
    right
    rwa [← earlier.grows.view]

end Chain

private theorem Code.chain {ε : Type} (code : Code ε) {cursor : Cursor} (ready : Ready cursor) :
    Chain cursor (code.log cursor) (left (code.run cursor)) := by
  induction code generalizing cursor with
  | finish outcome =>
    cases outcome <;> exact .nil cursor
  | look next ih => exact ih cursor ready
  | step move next ih =>
    have sound := move.sound ready
    exact .step rfl sound (ih _ (sound.grows.ready ready))
  | block body next inner ih =>
    have within := inner ready
    have ended : left (advanceOf body.run cursor) = left (body.run cursor) := by
      rw [advanceOf_eq, left_relabel]
    rw [← ended] at within
    -- The steps of the block are in the log already when the block itself is noted, so its chain is used twice.
    refine within.append (.block within ?_ (ih _ (within.grows.ready ready)))
    intro count counted
    rw [advanceOf_eq] at counted ⊢
    cases ran : body.run cursor with
    | ok result after =>
      rw [ran] at counted
      cases counted
      rfl
    | error reason after =>
      rw [ran] at counted
      cases counted

/-- Where a run stands after an entry, when it was given a view of a store: `records` are the steps so far. -/
structure Stands (view : View) (store : Store) (records : List Record) (cursor : Cursor) : Prop where
  position : cursor.position = gainOf records
  inside : cursor.position ≤ view.size
  remaining : Words.sub view.size cursor.position = .ok cursor.remaining
  untouched : ∀ address, address < view.start ∨ view.start + cursor.position ≤ address ∨
    (∃ record ∈ records, record.Skips address) → cursor.store.byteAt address = store.byteAt address

/-- What a block has put: its answer is the sum of the widths of its steps, and its end is that of its last step. -/
structure Counts (inside : List Record) (before after : Cursor) (counted : Option Nat) : Prop where
  answer : ∀ count ∈ counted, count = gainOf inside ∧ Words.sub after.position before.position = .ok count
  ending : after.position = landing before.position inside

/-- All that a run does with the encoder of a view. -/
structure Appends (view : View) (store : Store) (log : List Entry) (last : Cursor) : Prop where
  steps : ∀ record ∈ stepsOf log, record.Sound
  stands : ∀ done entry rest, log = done ++ entry :: rest →
    Stands view store (stepsOf (done ++ [entry])) entry.after
  blocks : ∀ inside before after counted, Entry.block inside before after counted ∈ log →
    Counts inside before after counted
  ends : last = (log.getLast?.map Entry.after).getD ⟨store, view, 0⟩

private theorem Chain.stands {view : View} {store : Store} {log : List Entry} {last : Cursor}
    (chain : Chain ⟨store, view, 0⟩ log last) : Stands view store (stepsOf log) last := by
  have grows := chain.grows
  have inside : last.position ≤ view.size := grows.inside (Nat.zero_le _)
  constructor
  · rw [chain.position_eq, Nat.zero_add]
  · exact inside
  · unfold Words.sub Cursor.remaining
    rw [if_pos inside, grows.view]
  · rintro address (lower | upper | ⟨record, noted, skips⟩)
    · exact grows.kept address (.inl lower)
    · exact grows.kept address (.inr upper)
    · exact chain.byteAt_of_skips noted skips

private theorem Chain.counts {first last before after : Cursor} {log : List Entry} {inside : List Record}
    {counted : Option Nat} (chain : Chain first log last) (noted : .block inside before after counted ∈ log) :
    Counts inside before after counted := by
  obtain ⟨done, rest, rfl⟩ := List.append_of_mem noted
  obtain ⟨_, _, later⟩ := chain.split
  cases later with
  | block within counts _ =>
    have position := within.position_eq
    constructor
    · intro count answered
      rw [counts count answered]
      refine ⟨by omega, if_pos (by omega)⟩
    · exact within.position_eq_landing

/-- Every run over a view that may be written appends, whatever the code does with the answers. -/
theorem runs_append {view : View} {store : Store} {first : Cursor} (begun : view.encoder store = .ok first) {ε : Type}
    (code : Code ε) : Appends view store (code.log first) (left (code.run first)) := by
  obtain ⟨_, allowed, started⟩ := bind_eq_ok.mp begun
  cases started
  have ready : Ready ⟨store, view, 0⟩ := ⟨View.requireWritable_eq_ok_iff.mp allowed, Nat.zero_le _⟩
  have chain := code.chain ready
  constructor
  · exact chain.sound
  · intro done entry rest same
    rw [same, List.append_cons] at chain
    obtain ⟨middle, reached, _⟩ := chain.split
    cases reached.after_eq
    exact reached.stands
  · intro inside before after counted noted
    exact chain.counts noted
  · exact chain.last_eq

/-- A block that fails at its second step does not undo its first one, and the run goes on behind it, with a view that
overlaps the one being written. -/
theorem runs_append_after_failure :
    let view := View.heap 32 8 true
    let store := Store.initial.write 32 [10, 11, 12, 13, 14, 15, 16, 17]
    let code : Code Unit :=
      .step (.put .u16 0x0201 .little) fun _ =>
      .block (.step (.skip 1) fun _ => .step (.putBytes [1, 2, 3, 4, 5, 6]) fun answer => .finish answer) fun _ =>
      .step (.putView (.heap 33 3 true) (.heap 33 3 true)) fun _ => .finish (.ok ())
    Appends view store (code.log ⟨store, view, 0⟩) (left (code.run ⟨store, view, 0⟩)) ∧
      (code.log ⟨store, view, 0⟩).map (fun entry => entry.after.position) = [2, 3, 3, 3, 6] ∧
      (left (code.run ⟨store, view, 0⟩)).store.read 32 8 = [1, 2, 12, 2, 12, 13, 16, 17] := by
  intro view store code
  exact ⟨@runs_append view store _ rfl _ code, rfl, by decide⟩

end Encoder
end Interop
