import Interop.Proofs.CType.CLayout

/-! The layout of a struct in numbers without bound, and when words are enough for it.
Main statement: `layout_eq_ite`. -/
namespace Interop
open Interop.Alignment Outcome

private theorem Alignment.Natural.max {a b : Nat} (first : Natural a) (second : Natural b) :
    Natural (Max.max a b) := by
  rcases Nat.le_total a b with below | above
  · rwa [Nat.max_eq_right below]
  · rwa [Nat.max_eq_left above]

private theorem Alignment.forward?_eq_ite {alignment : Nat} (natural : Natural alignment) (value : Nat) :
    forward? value alignment =
      if roundUp value alignment < wordBound then some (roundUp value alignment) else none := by
  split
  next word => exact (forward?_eq_some_iff natural.power natural.word).mpr ⟨rfl, word⟩
  next large =>
    apply Option.eq_none_iff_forall_ne_some.mpr
    intro result found
    obtain ⟨rfl, word⟩ := (forward?_eq_some_iff natural.power natural.word).mp found
    exact large word

namespace StructSchema

def Progress.advance (progress : Progress) (type : AbiType) : Progress :=
  ⟨roundUp progress.size type.alignment + type.width, max progress.alignment type.alignment⟩

def exactFields (platform : Platform) (progress : Progress) : List SchemaField → List LayoutField × Progress
  | [] => ([], progress)
  | field :: rest =>
    let type : AbiType := ⟨field.type, platform⟩
    let later := exactFields platform (progress.advance type) rest
    (⟨field.name, roundUp progress.size type.alignment, field.type⟩ :: later.1, later.2)

/-- The layout that C prescribes, whose size may be no word. -/
def exactLayout (schema : StructSchema) (platform : Platform) : StructLayout :=
  let placed := exactFields platform ⟨0, 1⟩ schema.sorted
  ⟨schema.name, roundUp placed.2.size placed.2.alignment, placed.2.alignment, platform, placed.1⟩

variable {platform : Platform} {fields : List SchemaField}

private theorem le_advance {progress : Progress} {type : AbiType} (natural : Natural type.alignment) :
    progress.size ≤ (progress.advance type).size :=
  (isLeast_roundUp natural.pos progress.size).1.2.trans (Nat.le_add_right _ _)

private theorem le_exactFields (natural : ∀ field ∈ fields, Natural (AbiType.mk field.type platform).alignment)
    (progress : Progress) : progress.size ≤ (exactFields platform progress fields).2.size := by
  induction fields generalizing progress with
  | nil => exact Nat.le_refl _
  | cons field rest ih =>
    obtain ⟨first, others⟩ := List.forall_mem_cons.mp natural
    exact (le_advance first).trans (ih others _)

theorem exactFields_natural (natural : ∀ field ∈ fields, Natural (AbiType.mk field.type platform).alignment)
    {progress : Progress} (start : Natural progress.alignment) :
    Natural (exactFields platform progress fields).2.alignment := by
  induction fields generalizing progress with
  | nil => exact start
  | cons field rest ih =>
    obtain ⟨first, others⟩ := List.forall_mem_cons.mp natural
    exact ih others (start.max first)

theorem placeField_eq_ite {progress : Progress} {type : AbiType} (natural : Natural type.alignment)
    (struct : String) :
    placeField struct progress type =
      if (progress.advance type).size < wordBound then
        .ok (roundUp progress.size type.alignment, progress.advance type)
      else .error (.sizeOverflow struct) := by
  unfold placeField
  rw [forward?_eq_ite natural]
  by_cases word : (progress.advance type).size < wordBound
  · have start : roundUp progress.size type.alignment < wordBound := (Nat.le_add_right _ _).trans_lt word
    rw [if_pos start, if_pos word]
    dsimp only
    rw [addWords?, if_pos (show roundUp progress.size type.alignment + type.width < wordBound from word)]
    rfl
  · rw [if_neg word]
    split
    next => rfl
    next offset rounded =>
      obtain ⟨_, rfl⟩ := by simpa using rounded
      rw [addWords?, if_neg (show ¬ roundUp progress.size type.alignment + type.width < wordBound from word)]

theorem placeFields_eq_ite (struct : String)
    (natural : ∀ field ∈ fields, Natural (AbiType.mk field.type platform).alignment)
    (embeds : ∀ field ∈ fields, Embeds platform field.type) {progress : Progress}
    (word : progress.size < wordBound) :
    placeFields struct platform progress fields =
      if (exactFields platform progress fields).2.size < wordBound then
        .ok (exactFields platform progress fields)
      else .error (.sizeOverflow struct) := by
  -- Offsets only grow, so some step fails exactly when the last one does.
  induction fields generalizing progress with
  | nil => exact (if_pos word).symm
  | cons field rest ih =>
    obtain ⟨first, others⟩ := List.forall_mem_cons.mp natural
    obtain ⟨embedded, around⟩ := List.forall_mem_cons.mp embeds
    have final := le_exactFields others (progress.advance ⟨field.type, platform⟩)
    have last : (exactFields platform progress (field :: rest)).2 =
        (exactFields platform (progress.advance ⟨field.type, platform⟩) rest).2 := rfl
    rw [placeFields, resolveField_eq_ok_iff.mpr ⟨rfl, embedded⟩, ok_bind, placeField_eq_ite first, last]
    by_cases next : (progress.advance ⟨field.type, platform⟩).size < wordBound
    · rw [if_pos next, ok_bind]
      dsimp only
      rw [ih others around next]
      by_cases reached : (exactFields platform (progress.advance ⟨field.type, platform⟩) rest).2.size < wordBound
      · rw [if_pos reached, if_pos reached]
        rfl
      · rw [if_neg reached, if_neg reached]
        rfl
    · rw [if_neg next, if_neg fun below => next (final.trans_lt below)]
      rfl

/-- A declaration that passes every check but that of its size fails exactly when the size is no word. -/
theorem layout_eq_ite {schema : StructSchema}
    (slots : schema.sorted.map (·.slot) = List.range schema.sorted.length)
    (names : (schema.sorted.map (·.name)).Nodup)
    (natural : ∀ field ∈ schema.sorted, Natural (AbiType.mk field.type platform).alignment)
    (embeds : ∀ field ∈ schema.sorted, Embeds platform field.type) :
    schema.layout platform =
      if (schema.exactLayout platform).size < wordBound then .ok (schema.exactLayout platform)
      else .error (.sizeOverflow schema.name) := by
  have checked : checkFields schema.name 0 none [] schema.sorted = .ok () := by
    refine (checkFields_eq_ok_iff (by simp)).mpr ⟨?_, names, by simp⟩
    rw [slots, List.range_eq_range']
  have power : Natural (exactFields platform ⟨0, 1⟩ schema.sorted).2.alignment := exactFields_natural natural .one
  simp only [layout, checked, ok_bind]
  rw [placeFields_eq_ite schema.name natural embeds (by decide)]
  by_cases word : (schema.exactLayout platform).size < wordBound
  · have reached : (exactFields platform ⟨0, 1⟩ schema.sorted).2.size < wordBound :=
      (isLeast_roundUp power.pos _).1.2.trans_lt word
    rw [if_pos reached, if_pos word, ok_bind, forward?_eq_ite power]
    rw [show roundUp _ _ = (schema.exactLayout platform).size from rfl, if_pos word]
    rfl
  · rw [if_neg word]
    split
    next =>
      rw [ok_bind, forward?_eq_ite power]
      rw [show roundUp _ _ = (schema.exactLayout platform).size from rfl, if_neg word]
    next => rfl

/-! ## Fields declared one after the other -/

def declare (schema : StructSchema) (fields : List (String × NativeType)) : StructSchema :=
  fields.foldl (fun schema field => schema.field field.1 field.2) schema

/-- All slots so far are taken, in the order of declaration. -/
structure InOrder (schema : StructSchema) : Prop where
  slots : schema.fields.map (·.slot) = List.range schema.fields.length
  next : schema.nextSlot = schema.fields.length

theorem InOrder.empty (name : String) : InOrder (.empty name) := ⟨rfl, rfl⟩

private theorem InOrder.field {schema : StructSchema} (order : schema.InOrder)
    (room : schema.fields.length + 1 < wordBound) (name : String) (type : NativeType) :
    (schema.field name type).InOrder := by
  have next := order.next
  constructor
  · simp only [StructSchema.field, fieldAt, List.map_append, List.map_cons, List.map_nil, order.slots, next,
      List.length_append, List.length_cons, List.length_nil, List.range_succ]
  · simp only [StructSchema.field, fieldAt, List.length_append, List.length_cons, List.length_nil]
    omega

theorem InOrder.declare {schema : StructSchema} (order : schema.InOrder) {fields : List (String × NativeType)}
    (room : schema.fields.length + fields.length < wordBound) : (schema.declare fields).InOrder := by
  induction fields generalizing schema with
  | nil => exact order
  | cons field rest ih =>
    rw [List.length_cons] at room
    refine ih (order.field (by omega) field.1 field.2) ?_
    simp only [StructSchema.field, fieldAt, List.length_append, List.length_cons, List.length_nil]
    omega

theorem InOrder.sorted_eq {schema : StructSchema} (order : schema.InOrder) : schema.sorted = schema.fields := by
  apply List.mergeSort_of_pairwise
  have increasing : (schema.fields.map (·.slot)).Pairwise (· ≤ ·) := by
    rw [order.slots]
    exact List.pairwise_le_range
  simpa [List.pairwise_map] using increasing

theorem fields_declare (schema : StructSchema) (fields : List (String × NativeType)) :
    (schema.declare fields).fields.map (fun field => (field.name, field.type)) =
      schema.fields.map (fun field => (field.name, field.type)) ++ fields := by
  induction fields generalizing schema with
  | nil => simp [declare]
  | cons field rest ih =>
    rw [declare, List.foldl_cons, ← declare, ih]
    simp [StructSchema.field, fieldAt]

theorem name_declare (schema : StructSchema) (fields : List (String × NativeType)) :
    (schema.declare fields).name = schema.name := by
  induction fields generalizing schema with
  | nil => rfl
  | cons field rest ih => exact ih _

end StructSchema
end Interop
