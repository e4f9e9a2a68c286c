import Interop.Proofs.Memory.Steps

/-! Decoding what was encoded: the two go through a sequence in the same steps and stop at the same item.
Main statement: `decoder_lockstep`, for every nesting of blocks and for copied views that overlap the encoded one. -/
namespace Interop
open Outcome

namespace Cursor

/-- What is seen of an item: the bits that went through, the bytes that a block has counted beside the widths of its
items, or the claim that was refused. -/
inductive Content where
  | scalar (type : ScalarType) (bits : type.Pattern)
  | bytes (bytes : List UInt8)
  | skipped
  | block (counted widths : Nat)
  | refused (position width size : Nat)

structure Note where
  /-- Where the cursor is after the item. -/
  position : Nat
  content : Content

variable {α : Type}

def completion (content : α → Cursor → Content) : EStateM.Result MemoryError Cursor α → List Note
  | .ok value after => [⟨after.position, content value after⟩]
  | .error .. => []

def refusal : EStateM.Result MemoryError Cursor α → List Note
  | .error (.overflow position width size) after | .error (.underflow position width size) after =>
    [⟨after.position, .refused position width size⟩]
  | _ => []

end Cursor

namespace Encoder
open Cursor

mutual

def Item.width : Item → Nat
  | .scalar type _ _ => type.width
  | .bytes bytes => bytes.length
  | .skip count => count
  | .view source => source.size
  | .block items => widthOf items

def widthOf : List Item → Nat
  | [] => 0
  | item :: rest => item.width + widthOf rest

end

def Item.content (item : Item) (before : Store) : Report → Content
  | .block advanced _ => .block advanced item.width
  | .done =>
    match item with
    | .scalar type bits _ => .scalar type bits
    | .bytes given => .bytes given
    | .view source => .bytes (before.read source.start source.size)
    | .skip _ | .block _ => .skipped

mutual

def Item.notes : Item → Cursor → List Note
  | .block items, cursor =>
    notesOf items cursor ++
      completion (fun report _ => (Item.block items).content cursor.store report) ((Item.block items).put cursor)
  | item, cursor =>
    completion (fun report _ => item.content cursor.store report) (item.put cursor) ++ refusal (item.put cursor)

def notesOf : List Item → Cursor → List Note
  | [], _ => []
  | item :: rest, cursor =>
    item.notes cursor ++
      match item.put cursor with
      | .ok _ after => notesOf rest after
      | .error .. => []

end

end Encoder

namespace Decoder
open Cursor

mutual

def Item.width : Item → Nat
  | .scalar type _ => type.width
  | .bytes count | .skip count => count
  | .view target => target.size
  | .block items => widthOf items

def widthOf : List Item → Nat
  | [] => 0
  | item :: rest => item.width + widthOf rest

end

def Item.content (item : Item) (after : Cursor) : Taken → Content
  | .scalar type bits => .scalar type bits
  | .bytes given => .bytes given
  | .block consumed _ => .block consumed item.width
  | .done =>
    match item with
    | .view target => .bytes (after.store.read target.start target.size)
    | _ => .skipped

mutual

def Item.notes : Item → Cursor → List Note
  | .block items, cursor =>
    notesOf items cursor ++
      completion (fun taken after => (Item.block items).content after taken) ((Item.block items).take cursor)
  | item, cursor =>
    completion (fun taken after => item.content after taken) (item.take cursor) ++ refusal (item.take cursor)

def notesOf : List Item → Cursor → List Note
  | [], _ => []
  | item :: rest, cursor =>
    item.notes cursor ++
      match item.take cursor with
      | .ok _ after => notesOf rest after
      | .error .. => []

end

end Decoder

/-- Items to take have the shape of items to put: the same types, orders, lengths and blocks. Copied views are taken
to writable destinations of their sizes, which share no byte with the encoded view. -/
inductive Mirrors (view : View) : List Encoder.Item → List Decoder.Item → Prop
  | nil : Mirrors view [] []
  | scalar {items shape} (type : ScalarType) (bits : type.Pattern) (order : ByteOrder)
    (rest : Mirrors view items shape) : Mirrors view (.scalar type bits order :: items) (.scalar type order :: shape)
  | bytes {items shape} (bytes : List UInt8) (rest : Mirrors view items shape) :
    Mirrors view (.bytes bytes :: items) (.bytes bytes.length :: shape)
  | skip {items shape} (count : Nat) (rest : Mirrors view items shape) :
    Mirrors view (.skip count :: items) (.skip count :: shape)
  | view {items shape} {source target : View} (obtained : source.Obtained) (writable : target.writable = true)
    (size : target.size = source.size) (separate : ∀ address, target.Covers address → ¬ view.Covers address)
    (rest : Mirrors view items shape) : Mirrors view (.view source :: items) (.view target :: shape)
  | block {inner within items shape} (inside : Mirrors view inner within) (rest : Mirrors view items shape) :
    Mirrors view (.block inner :: items) (.block within :: shape)

namespace Cursor

variable {α β : Type}

/-- Both sides come to their end where the widths say so, or both are refused the same claim. -/
inductive Ends (view : View) (reach : Nat) :
    EStateM.Result MemoryError Cursor α → EStateM.Result MemoryError Cursor β → Prop
  | done {put : α} {taken : β} {after later : Cursor} (room : reach ≤ view.size)
    (views : after.view = view ∧ later.view = view) (positions : after.position = reach ∧ later.position = reach) :
    Ends view reach (.ok put after) (.ok taken later)
  | refused {position width : Nat} {after later : Cursor} (full : view.size < reach)
    (positions : after.position = position ∧ later.position = position) :
    Ends view reach (.error (.overflow position width view.size) after)
      (.error (.underflow position width view.size) later)

structure Aligned (view : View) (encoder decoder : Cursor) : Prop where
  encoding : encoder.view = view
  decoding : decoder.view = view
  position : decoder.position = encoder.position
  within : encoder.position ≤ view.size

def Content.Adds : Content → Prop
  | .block counted widths => counted = widths
  | _ => True

/-- A decoder does what an encoder has done, and leaves the encoded bytes as they are. -/
structure InStep (view : View) (reach : Nat) (decoder : Cursor) (written read : List Note)
    (put : EStateM.Result MemoryError Cursor α) (taken : EStateM.Result MemoryError Cursor β) : Prop where
  notes : read = written
  sums : ∀ note ∈ written, note.content.Adds
  ends : Ends view reach put taken
  kept : ∀ address, view.Covers address → (left taken).store.byteAt address = decoder.store.byteAt address

/-- Decoding stays in step with encoding wherever it finds the bytes that encoding has left. -/
def StayInStep (view : View) (width : Nat) (put : EStateM MemoryError Cursor α) (written : Cursor → List Note)
    (take : EStateM MemoryError Cursor β) (read : Cursor → List Note) : Prop :=
  ∀ ⦃encoder decoder : Cursor⦄, Aligned view encoder decoder →
    (∀ address, view.start + encoder.position ≤ address → address < view.start + (left (put encoder)).position →
      decoder.store.byteAt address = (left (put encoder)).store.byteAt address) →
    InStep view (encoder.position + width) decoder (written encoder) (read decoder) (put encoder) (take decoder)

end Cursor

open Cursor

/-- Bytes go through memory: what is looked up where an action has left its bytes is what the action was given. -/
def Transfers {α : Type} (view : View) (item : Encoder.Item) (shape : Decoder.Item)
    (action : View → Nat → EStateM MemoryError Store Unit) (look : View → Nat → EStateM MemoryError Store α)
    (taken : α → Decoder.Taken) : Prop :=
  ∀ position before, position + item.width ≤ view.size → ∃ after, action view position before = .ok () after ∧
    ∀ later : Store,
      later.read (view.start + position) item.width = after.read (view.start + position) item.width →
      ∃ result last, look view position later = .ok result last ∧
        shape.content ⟨last, view, position + item.width⟩ (taken result) = item.content before .done ∧
        ∀ address, view.Covers address → last.byteAt address = later.byteAt address

section Leaves

variable {view : View}

private theorem transfers_scalar (readable : view.readable = true) (writable : view.writable = true) (type : ScalarType)
    (bits : type.Pattern) (order : ByteOrder) :
    Transfers view (.scalar type bits order) (.scalar type order) (fun view start => view.set type start bits order)
      (fun view start => Store.observe (view.get type start order)) (.scalar type) := by
  intro position before room
  have room : position + type.width ≤ view.size := room
  have width : (type.encode order bits).length = type.width := ScalarType.length_encode type order bits
  refine ⟨before.write (view.start + position) (type.encode order bits), ?_, ?_⟩
  · dsimp only
    rw [View.set_eq_writeBytes]
    exact View.writeBytes_eq_ok writable (width ▸ room) before
  · intro later same
    have held : later.read (view.start + position) type.width = type.encode order bits := by
      refine same.trans ?_
      have written := before.read_write (view.start + position) (type.encode order bits)
      rwa [width] at written
    have got : view.get type position order later = .ok bits := by
      rw [View.get_eq_readBytes, View.readBytes_eq_ok readable room, held]
      exact congrArg Except.ok (ScalarType.decode_encode type order bits)
    refine ⟨bits, later, ?_, rfl, fun _ _ => rfl⟩
    simp only [Store.observe, got]

private theorem transfers_bytes (readable : view.readable = true) (writable : view.writable = true)
    (bytes : List UInt8) :
    Transfers view (.bytes bytes) (.bytes bytes.length) (fun view start => view.writeBytes start bytes)
      (fun view start => Store.observe (view.readBytes start bytes.length)) .bytes := by
  intro position before room
  have room : position + bytes.length ≤ view.size := room
  refine ⟨before.write (view.start + position) bytes, View.writeBytes_eq_ok writable room before, ?_⟩
  intro later same
  have held : later.read (view.start + position) bytes.length = bytes := same.trans (before.read_write _ bytes)
  have got : view.readBytes position bytes.length later = .ok bytes := by
    rw [View.readBytes_eq_ok readable room, held]
  refine ⟨bytes, later, ?_, rfl, fun _ _ => rfl⟩
  simp only [Store.observe, got]

private theorem transfers_skip (count : Nat) :
    Transfers view (.skip count) (.skip count) (fun _ _ => pure ()) (fun _ _ => pure ()) fun _ : Unit => .done :=
  fun _ before _ => ⟨before, rfl, fun later _ => ⟨(), later, rfl, rfl, fun _ _ => rfl⟩⟩

private theorem transfers_view (readable : view.readable = true) (writable : view.writable = true)
    {source target : View}
    (obtained : source.Obtained) (allowed : target.writable = true) (size : target.size = source.size)
    (separate : ∀ address, target.Covers address → ¬ view.Covers address) :
    Transfers view (.view source) (.view target)
      (fun view start => do
        let place ← Store.observe fun _ => view.slice start source.size
        place.copyFrom source)
      (fun view start => do
        let place ← Store.observe fun _ => view.slice start target.size
        target.copyFrom place)
      fun _ => .done := by
  -- A view is copied twice: what it showed before the first copy is what the destination shows after the second.
  intro position before room
  have room : position + source.size ≤ view.size := room
  refine ⟨before.copy source.start (view.start + position) source.size, ?_, ?_⟩
  · dsimp only
    rw [Store.observe_bind, View.slice_eq_ok room]
    exact @View.copyFrom_eq_ok { view with start := view.start + position, size := source.size } source writable
      obtained.readable (Nat.le_refl _) before
  · intro later same
    have held : later.read (view.start + position) source.size = before.read source.start source.size :=
      same.trans (before.read_copy source.start (view.start + position) source.size)
    refine ⟨(), later.copy (view.start + position) target.start target.size, ?_, ?_, ?_⟩
    · dsimp only
      rw [Store.observe_bind, View.slice_eq_ok (size ▸ room)]
      exact @View.copyFrom_eq_ok target { view with start := view.start + position, size := target.size } allowed
        readable (Nat.le_refl _) later
    · have shown := later.read_copy (view.start + position) target.start target.size
      rw [size] at shown
      simp only [Decoder.Item.content, Encoder.Item.content, size, shown, held]
    · intro address covered
      refine Store.byteAt_write_of_outside _ _ _ ?_
      have absent : ¬ target.Covers address := fun inside => separate address inside covered
      unfold View.Covers at absent
      rw [Store.length_read]
      omega

end Leaves

private theorem Encoder.Item.adds_content_done (item : Encoder.Item) (before : Store) :
    (item.content before .done).Adds := by
  cases item <;> trivial

structure SingleStep {α : Type} (view : View) (item : Encoder.Item) (shape : Decoder.Item)
    (action : View → Nat → EStateM MemoryError Store Unit) (look : View → Nat → EStateM MemoryError Store α)
    (taken : α → Decoder.Taken) : Prop where
  puts : item.put = (do Encoder.step item.width action; return .done)
  takes : shape.take = (do let result ← Decoder.step item.width look; return taken result)
  written : ∀ cursor, item.notes cursor =
    completion (fun report _ => item.content cursor.store report) (item.put cursor) ++ refusal (item.put cursor)
  read : ∀ cursor, shape.notes cursor =
    completion (fun taken after => shape.content after taken) (shape.take cursor) ++ refusal (shape.take cursor)
  transfers : Transfers view item shape action look taken

namespace SingleStep

variable {α : Type} {view : View} {item : Encoder.Item} {shape : Decoder.Item}
  {action : View → Nat → EStateM MemoryError Store Unit} {look : View → Nat → EStateM MemoryError Store α}
  {taken : α → Decoder.Taken} (single : SingleStep view item shape action look taken) {encoder decoder : Cursor}
  (aligned : Aligned view encoder decoder)

include single aligned

private theorem inStep_of_room (room : encoder.position + item.width ≤ view.size)
    (held : ∀ address, view.start + encoder.position ≤ address →
      address < view.start + (left (item.put encoder)).position →
      decoder.store.byteAt address = (left (item.put encoder)).store.byteAt address) :
    InStep view (encoder.position + item.width) decoder (item.notes encoder) (shape.notes decoder) (item.put encoder)
      (shape.take decoder) := by
  have encoding := aligned.encoding
  have decoding := aligned.decoding
  have same := aligned.position
  obtain ⟨after, acted, transferred⟩ := single.transfers encoder.position encoder.store room
  have put : item.put encoder = .ok .done ⟨after, view, encoder.position + item.width⟩ := by
    have fits : item.width ≤ encoder.remaining := by unfold remaining; rw [encoding]; omega
    rw [← encoding] at acted
    rw [single.puts, ← encoding]
    exact run_bind_of_ok (step_of_ok fits acted)
  have bytes : decoder.store.read (view.start + encoder.position) item.width =
      after.read (view.start + encoder.position) item.width := by
    rw [put] at held
    refine Store.read_congr fun address above below => held address above ?_
    rwa [Nat.add_assoc] at below
  obtain ⟨result, last, looked, shown, kept⟩ := transferred decoder.store bytes
  have took : shape.take decoder = .ok (taken result) ⟨last, view, encoder.position + item.width⟩ := by
    have fits : item.width ≤ decoder.remaining := by unfold remaining; rw [decoding]; omega
    rw [← decoding, ← same] at looked
    rw [single.takes, ← decoding, ← same]
    exact run_bind_of_ok (step_of_ok fits looked)
  constructor
  · rw [single.read, single.written, put, took]
    simp only [completion, refusal, shown]
  · intro note member
    rw [single.written, put] at member
    simp only [completion, refusal, List.append_nil, List.mem_singleton] at member
    rw [member]
    exact item.adds_content_done encoder.store
  · rw [put, took]
    exact .done room ⟨rfl, rfl⟩ ⟨rfl, rfl⟩
  · rw [took]
    exact kept

private theorem inStep_of_full (full : view.size < encoder.position + item.width) :
    InStep view (encoder.position + item.width) decoder (item.notes encoder) (shape.notes decoder) (item.put encoder)
      (shape.take decoder) := by
  have encoding := aligned.encoding
  have decoding := aligned.decoding
  have within := aligned.within
  have same := aligned.position
  have put : item.put encoder = .error (.overflow encoder.position item.width view.size) encoder := by
    have short : encoder.remaining < item.width := by unfold remaining; rw [encoding]; omega
    rw [single.puts, ← encoding]
    exact run_bind_of_error (step_of_full short)
  have took : shape.take decoder = .error (.underflow encoder.position item.width view.size) decoder := by
    have short : decoder.remaining < item.width := by unfold remaining; rw [decoding]; omega
    rw [single.takes, ← decoding, ← same]
    exact run_bind_of_error (step_of_full short)
  constructor
  · rw [single.read, single.written, put, took]
    simp only [completion, refusal, same]
  · intro note member
    rw [single.written, put] at member
    simp only [completion, refusal, List.nil_append, List.mem_singleton] at member
    rw [member]
    trivial
  · rw [put, took]
    exact .refused full ⟨rfl, same⟩
  · rw [took]
    exact fun _ _ => rfl

omit aligned

private theorem stayInStep : StayInStep view item.width item.put item.notes shape.take shape.notes := by
  intro encoder decoder aligned held
  by_cases room : encoder.position + item.width ≤ view.size
  · exact single.inStep_of_room aligned room held
  · exact single.inStep_of_full aligned (Nat.lt_of_not_le room)

end SingleStep

private theorem stayInStep_nil (view : View) :
    StayInStep view (Encoder.widthOf []) (Encoder.putItems []) (Encoder.notesOf []) (Decoder.takeItems [])
      (Decoder.notesOf []) := by
  intro encoder decoder aligned _
  constructor
  · rfl
  · intro note member
    cases member
  · exact .done aligned.within ⟨aligned.encoding, aligned.decoding⟩ ⟨rfl, aligned.position⟩
  · exact fun _ _ => rfl

private theorem Cursor.Ends.relabel {α β γ δ : Type} {view : View} {reach : Nat}
    {put : EStateM.Result MemoryError Cursor α}
    {taken : EStateM.Result MemoryError Cursor β} (ends : Ends view reach put taken) (name : α → Cursor → γ)
    (other : β → Cursor → δ) : Ends view reach (Outcome.relabel name put) (Outcome.relabel other taken) := by
  cases ends with
  | done room views positions => exact .done room views positions
  | refused full positions => exact .refused full positions

section Sequence

variable {view : View} {item : Encoder.Item} {shape : Decoder.Item} {items : List Encoder.Item}
  {shapes : List Decoder.Item}

private theorem stayInStep_cons (first : StayInStep view item.width item.put item.notes shape.take shape.notes)
    (others : StayInStep view (Encoder.widthOf items) (Encoder.putItems items) (Encoder.notesOf items)
      (Decoder.takeItems shapes) (Decoder.notesOf shapes)) :
    StayInStep view (Encoder.widthOf (item :: items)) (Encoder.putItems (item :: items))
      (Encoder.notesOf (item :: items)) (Decoder.takeItems (shape :: shapes)) (Decoder.notesOf (shape :: shapes)) := by
  -- The rest of a sequence finds both cursors where the first item has left them, and the bytes of that item stay.
  intro encoder decoder aligned held
  have before := item.put_follows encoder
  rw [Encoder.putItems_cons] at held ⊢
  rw [Decoder.takeItems_cons, Encoder.notesOf, Decoder.notesOf, Encoder.widthOf, ← Nat.add_assoc]
  cases put : item.put encoder with
  | error reason after =>
    rw [put] at held
    obtain ⟨notes, sums, ends, kept⟩ := first aligned (by rwa [put])
    rw [put] at ends
    cases took : shape.take decoder <;> rw [took] at ends kept <;> cases ends
    next full positions =>
      refine ⟨?_, ?_, .refused (Nat.lt_of_lt_of_le full (Nat.le_add_right _ _)) positions, kept⟩
      · rw [notes]
      · simpa only [List.append_nil] using sums
  | ok report after =>
    rw [put] at held before
    dsimp only at held ⊢
    rw [left_relabel] at held
    have follows := Encoder.putItems_follows items after
    have moved : after.view = view := before.view.trans aligned.encoding
    have forward := before.forward
    -- What the first item has put stays while the others are put, so the decoder finds it.
    obtain ⟨notes, sums, ends, kept⟩ := first aligned (by
      rw [put]
      intro address above below
      have below : address < view.start + after.position := below
      rw [held address above (Nat.lt_of_lt_of_le below (Nat.add_le_add_left follows.forward _))]
      exact follows.kept address (.inl (by rwa [moved])))
    rw [put] at ends
    cases took : shape.take decoder <;> rw [took] at ends kept <;> cases ends
    next later room views positions =>
      have next : Aligned view after later :=
        ⟨moved, views.2, positions.2.trans positions.1.symm, by rwa [positions.1]⟩
      -- The first take has left the encoded bytes alone, so the others are still there as well.
      obtain ⟨restNotes, restSums, restEnds, restKept⟩ := others next (by
        intro address above below
        have inside := follows.inside (by rw [moved]; exact next.within)
        have covered : view.Covers address := by
          rw [moved] at inside
          unfold View.Covers
          omega
        exact (kept address covered).trans (held address (Nat.le_trans (Nat.add_le_add_left forward _) above) below))
      refine ⟨?_, List.forall_mem_append.mpr ⟨sums, restSums⟩, ?_, ?_⟩
      · dsimp only
        rw [notes, restNotes]
      · rw [positions.1] at restEnds
        exact restEnds.relabel _ _
      · intro address covered
        dsimp only
        rw [left_relabel]
        exact (restKept address covered).trans (kept address covered)

private theorem stayInStep_block (inside : StayInStep view (Encoder.widthOf items) (Encoder.putItems items)
      (Encoder.notesOf items) (Decoder.takeItems shapes) (Decoder.notesOf shapes))
    (widths : Decoder.widthOf shapes = Encoder.widthOf items) :
    StayInStep view (Encoder.Item.block items).width (Encoder.Item.block items).put (Encoder.Item.block items).notes
      (Decoder.Item.block shapes).take (Decoder.Item.block shapes).notes := by
  intro encoder decoder aligned held
  rw [Encoder.put_block, left_relabel] at held
  obtain ⟨notes, sums, ends, kept⟩ := inside aligned held
  rw [Encoder.Item.notes, Decoder.Item.notes, Encoder.put_block, Decoder.take_block, Encoder.Item.width, notes]
  cases put : Encoder.putItems items encoder <;> cases took : Decoder.takeItems shapes decoder <;>
    rw [put, took] at ends <;> rw [took] at kept <;> cases ends
  next reports after taken later room views positions =>
    have moved : after.position - encoder.position = Encoder.widthOf items := by omega
    refine ⟨?_, List.forall_mem_append.mpr ⟨sums, ?_⟩, .done room views positions, kept⟩
    · simp only [relabel, completion, Encoder.Item.content, Decoder.Item.content, Encoder.Item.width,
        Decoder.Item.width, widths, positions, aligned.position]
    · intro note member
      simp only [relabel, completion, List.mem_singleton] at member
      rw [member]
      exact moved
  next full positions =>
    refine ⟨?_, List.forall_mem_append.mpr ⟨sums, ?_⟩, .refused full positions, kept⟩
    · rfl
    · intro note member
      cases member

end Sequence

private theorem Mirrors.widthOf_eq {view : View} {items : List Encoder.Item} {shapes : List Decoder.Item}
    (same : Mirrors view items shapes) : Decoder.widthOf shapes = Encoder.widthOf items := by
  induction same with
  | nil => rfl
  | scalar type bits order _ ih | bytes bytes _ ih | skip count _ ih =>
    rw [Decoder.widthOf, Encoder.widthOf, ih]
    rfl
  | view _ _ size _ _ ih =>
    rw [Decoder.widthOf, Encoder.widthOf, ih]
    exact congrArg (· + _) size
  | block _ _ insideIh ih =>
    rw [Decoder.widthOf, Encoder.widthOf, ih]
    exact congrArg (· + _) insideIh

private theorem Mirrors.stayInStep {view : View} (readable : view.readable = true) (writable : view.writable = true)
    {items : List Encoder.Item} {shapes : List Decoder.Item} (same : Mirrors view items shapes) :
    StayInStep view (Encoder.widthOf items) (Encoder.putItems items) (Encoder.notesOf items)
      (Decoder.takeItems shapes) (Decoder.notesOf shapes) := by
  induction same with
  | nil => exact stayInStep_nil view
  | scalar type bits order _ ih =>
    have transfers := transfers_scalar readable writable type bits order
    exact stayInStep_cons (SingleStep.stayInStep ⟨rfl, rfl, fun _ => rfl, fun _ => rfl, transfers⟩) ih
  | bytes bytes _ ih =>
    have transfers := transfers_bytes readable writable bytes
    exact stayInStep_cons (SingleStep.stayInStep ⟨rfl, rfl, fun _ => rfl, fun _ => rfl, transfers⟩) ih
  | skip count _ ih =>
    exact stayInStep_cons (SingleStep.stayInStep ⟨rfl, rfl, fun _ => rfl, fun _ => rfl, transfers_skip count⟩) ih
  | @view _ _ source target obtained allowed size separate _ ih =>
    have transfers := transfers_view readable writable obtained allowed size separate
    have takes : (Decoder.Item.view target).take = (do
        Decoder.step (Encoder.Item.view source).width fun view start => do
          let place ← Store.observe fun _ => view.slice start target.size
          target.copyFrom place
        return .done) := by
      rw [Encoder.Item.width, ← size]
      rfl
    exact stayInStep_cons (SingleStep.stayInStep ⟨rfl, takes, fun _ => rfl, fun _ => rfl, transfers⟩) ih
  | block inside _ insideIh ih => exact stayInStep_cons (stayInStep_block insideIh inside.widthOf_eq) ih

/-- Whatever an encoder has put from the start of a view, a decoder takes from there: the same bits at the same
positions, with the same counts of bytes, up to the end of the items or to the first claim that both are refused. -/
theorem decoder_lockstep {view : View} (obtained : view.Obtained) {store : Store} {first : Cursor}
    (started : view.encoder store = .ok first) {items : List Encoder.Item} {shapes : List Decoder.Item}
    (same : Mirrors view items shapes) :
    ∃ second, view.decoder (left (Encoder.putItems items first)).store = .ok second ∧
      Decoder.notesOf shapes second = Encoder.notesOf items first ∧
      (∀ note ∈ Encoder.notesOf items first, note.content.Adds) ∧
      Ends view (Encoder.widthOf items) (Encoder.putItems items first) (Decoder.takeItems shapes second) := by
  have readable := obtained.readable
  obtain ⟨_, allowed, begun⟩ := bind_eq_ok.mp started
  cases begun
  have stays := same.stayInStep readable (View.requireWritable_eq_ok_iff.mp allowed)
  refine ⟨⟨(left (Encoder.putItems items ⟨store, view, 0⟩)).store, view, 0⟩, ?_, ?_⟩
  · unfold View.decoder
    rw [View.requireReadable_eq_ok_iff.mpr readable]
    rfl
  · have aligned : Aligned view ⟨store, view, 0⟩ ⟨(left (Encoder.putItems items ⟨store, view, 0⟩)).store, view, 0⟩ :=
      ⟨rfl, rfl, rfl, Nat.zero_le _⟩
    have inStep := stays aligned fun _ _ _ => rfl
    refine ⟨inStep.notes, inStep.sums, ?_⟩
    have ends := inStep.ends
    rwa [Nat.zero_add] at ends

namespace Specimen

def puts : List Encoder.Item :=
  [.scalar .u16 0x0102 .big, .block [.view (.heap 0 4 false), .skip 1], .bytes [7, 8]]

def takes : List Decoder.Item :=
  [.scalar .u16 .big, .block [.view (.heap 100 4 true), .skip 1], .bytes 2]

end Specimen

/-- In a view of eight bytes the last of the nine is refused on both sides. -/
theorem decoder_lockstep_refused : ∃ first second,
    (View.heap 0 8 true).encoder Store.initial = .ok first ∧
      (View.heap 0 8 true).decoder (left (Encoder.putItems Specimen.puts first)).store = .ok second ∧
      Encoder.notesOf Specimen.puts first =
        [⟨2, .scalar .u16 0x0102⟩, ⟨6, .bytes [1, 2, 0, 0]⟩, ⟨7, .skipped⟩, ⟨7, .block 5 5⟩, ⟨7, .refused 7 2 8⟩] ∧
      Decoder.notesOf Specimen.takes second = Encoder.notesOf Specimen.puts first ∧
      Ends (.heap 0 8 true) 9 (Encoder.putItems Specimen.puts first) (Decoder.takeItems Specimen.takes second) := by
  have started : (View.heap 0 8 true).encoder Store.initial = .ok ⟨Store.initial, .heap 0 8 true, 0⟩ := rfl
  have separate : ∀ address, (View.heap 100 4 true).Covers address → ¬ (View.heap 0 8 true).Covers address := by
    intro address there here
    simp only [View.Covers, View.heap] at there here
    omega
  have same : Mirrors (.heap 0 8 true) Specimen.puts Specimen.takes :=
    .scalar .u16 0x0102 .big (.block (.view (.heap 0 4 false) rfl rfl separate (.skip 1 .nil)) (.bytes [7, 8] .nil))
  obtain ⟨second, begun, notes, _, ends⟩ := decoder_lockstep (.heap 0 8 true) started same
  exact ⟨_, second, started, begun, rfl, notes, ends⟩

end Interop
