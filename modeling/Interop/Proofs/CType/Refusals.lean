import Interop.Proofs.CType.ExactLayout
import Interop.Proofs.CType.SlotOrder
import Mathlib.Order.Bounds.Basic

/-! When a declaration has no layout, and which of its faults is the one that is reported.
Main statement: `layout_decided`. -/
namespace Interop
open Interop.Alignment Outcome

namespace StructSchema

def reach (platform : Platform) (fields : List SchemaField) : Nat := (exactFields platform ⟨0, 1⟩ fields).2.size

/-- All fields have types to embed and end where a word can say; ends only grow from field to field. -/
structure Fitting (platform : Platform) (fields : List SchemaField) : Prop where
  embeds : ∀ field ∈ fields, Embeds platform field.type
  word : reach platform fields < wordBound

/-- What a declaration needs so that C can lay it out in words. -/
structure Layable (schema : StructSchema) (platform : Platform) : Prop where
  slots : (schema.fields.map (·.slot)).Perm (List.range schema.fields.length)
  names : (schema.fields.map (·.name)).Nodup
  embeds : ∀ field ∈ schema.fields, Embeds platform field.type
  size : (schema.exactLayout platform).size < wordBound

/-- The fault that decides: one of slots and names before one of types, and of each the first in the order of slots. -/
inductive Fails (schema : StructSchema) (platform : Platform) : LayoutError → Prop
  | collision {before after others : List SchemaField} {prior field first second : SchemaField}
    (order : schema.sorted = before ++ prior :: field :: after) (sound : Sound (before ++ [prior]))
    (repeated : field.slot = prior.slot)
    (claimants : schema.fields.filter (·.slot = field.slot) = first :: second :: others) :
    Fails schema platform (.slotCollision schema.name field.slot first.name second.name)
  | missing {before after : List SchemaField} {field : SchemaField} {slot : Nat}
    (order : schema.sorted = before ++ field :: after) (sound : Sound before)
    (new : ∀ prior, before.getLast? = some prior → field.slot ≠ prior.slot) (displaced : field.slot ≠ before.length)
    (least : IsLeast {slot | ∀ claimant ∈ schema.fields, claimant.slot ≠ slot} slot) :
    Fails schema platform (.missingSlot schema.name slot)
  | duplicate {before after : List SchemaField} {field : SchemaField}
    (order : schema.sorted = before ++ field :: after) (sound : Sound before) (here : field.slot = before.length)
    (known : field.name ∈ before.map (·.name)) :
    Fails schema platform (.duplicateField schema.name field.name)
  | empty {before after : List SchemaField} {field : SchemaField} {nested : StructLayout}
    (sound : Sound schema.sorted) (order : schema.sorted = before ++ field :: after)
    (fitting : Fitting platform before) (type : field.type = .struct nested) (empty : nested.size = 0) :
    Fails schema platform (.emptyStruct nested.name)
  | foreign {before after : List SchemaField} {field : SchemaField} {nested : StructLayout}
    (sound : Sound schema.sorted) (order : schema.sorted = before ++ field :: after)
    (fitting : Fitting platform before) (type : field.type = .struct nested) (filled : nested.size ≠ 0)
    (foreign : nested.platform ≠ platform) :
    Fails schema platform (.platformMismatch nested.name nested.platform platform)
  | far {before after : List SchemaField} {field : SchemaField}
    (sound : Sound schema.sorted) (order : schema.sorted = before ++ field :: after)
    (fitting : Fitting platform before) (embeds : Embeds platform field.type)
    (large : wordBound ≤ reach platform (before ++ [field])) : Fails schema platform (.sizeOverflow schema.name)
  | padded (sound : Sound schema.sorted) (fitting : Fitting platform schema.sorted)
    (large : wordBound ≤ (schema.exactLayout platform).size) : Fails schema platform (.sizeOverflow schema.name)

variable {schema : StructSchema} {platform : Platform} {error : LayoutError}

/-! ## Slots and names -/

section Slots

variable {before after : List SchemaField} {field : SchemaField}

theorem layout_of_checkFields (failed : checkFields schema.name 0 none [] schema.sorted = .error error) :
    schema.layout platform = .error error := by
  simp only [layout, failed, error_bind]

private theorem claimants_eq {prior : SchemaField} (order : schema.sorted = before ++ prior :: field :: after)
    (sound : Sound (before ++ [prior])) (repeated : field.slot = prior.slot) :
    schema.fields.filter (·.slot = field.slot) =
      prior :: field :: after.filter (·.slot = field.slot) := by
  obtain ⟨earlier, here, _⟩ := Sound.append_singleton_iff.mp sound
  have others : before.filter (·.slot = field.slot) = [] := by
    apply List.filter_eq_nil_iff.mpr
    intro other member
    have below := earlier.slot_lt member
    simp only [decide_eq_true_eq]
    omega
  rw [← schema.inSlotOrder_sorted.stable, order, List.filter_append, others]
  simp [repeated]

theorem checkFields_of_repeated {prior : SchemaField} (order : schema.sorted = before ++ prior :: field :: after)
    (sound : Sound (before ++ [prior])) (repeated : field.slot = prior.slot) :
    checkFields schema.name 0 none [] schema.sorted =
      .error (.slotCollision schema.name field.slot prior.name field.name) := by
  have split : before ++ prior :: field :: after = (before ++ [prior]) ++ field :: after := by simp
  have found : (some prior).filter (fun earlier => earlier.slot == field.slot) = some prior := by
    simp [Option.filter, repeated]
  rw [order, split, checkFields_append schema.name sound, List.getLast?_concat, checkFields, found]

theorem lt_slot_of_displaced (order : schema.sorted = before ++ field :: after) (sound : Sound before)
    (new : ∀ prior, before.getLast? = some prior → field.slot ≠ prior.slot) (displaced : field.slot ≠ before.length) :
    ∀ later ∈ field :: after, before.length < later.slot := by
  -- A field out of place and all fields behind it claim slots beyond its position, because the order is by slot.
  have sorted := schema.inSlotOrder_sorted.sorted
  rw [order, List.pairwise_append, List.pairwise_cons] at sorted
  obtain ⟨_, ⟨behind, _⟩, around⟩ := sorted
  have beyond : before.length < field.slot := by
    cases found : before.getLast? with
    | none =>
      have none : before = [] := List.getLast?_eq_none_iff.mp found
      subst none
      exact Nat.pos_of_ne_zero displaced
    | some prior =>
      obtain ⟨init, same⟩ := List.getLast?_eq_some_iff.mp found
      subst same
      obtain ⟨_, here, _⟩ := Sound.append_singleton_iff.mp sound
      have above := around prior (by simp) field List.mem_cons_self
      have different := new prior found
      simp only [List.length_append, List.length_singleton] at displaced ⊢
      omega
  intro later member
  rcases List.mem_cons.mp member with rfl | later
  · exact beyond
  · exact beyond.trans_le (behind _ later)

theorem isLeast_unclaimed (order : schema.sorted = before ++ field :: after) (sound : Sound before)
    (new : ∀ prior, before.getLast? = some prior → field.slot ≠ prior.slot) (displaced : field.slot ≠ before.length) :
    IsLeast {slot | ∀ claimant ∈ schema.fields, claimant.slot ≠ slot} before.length := by
  constructor
  · intro claimant member
    have inside : claimant ∈ before ++ field :: after := order ▸ schema.sorted_perm.mem_iff.mpr member
    rcases List.mem_append.mp inside with earlier | later
    · exact Nat.ne_of_lt (sound.slot_lt earlier)
    · exact Nat.ne_of_gt (lt_slot_of_displaced order sound new displaced claimant later)
  · intro slot unclaimed
    apply Nat.le_of_not_lt
    intro below
    obtain ⟨claimant, member, claims⟩ := sound.exists_of_slot below
    have inside : claimant ∈ schema.sorted := order ▸ List.mem_append_left _ member
    exact unclaimed claimant (schema.sorted_perm.mem_iff.mp inside) claims

theorem checkFields_of_displaced (order : schema.sorted = before ++ field :: after) (sound : Sound before)
    (new : ∀ prior, before.getLast? = some prior → field.slot ≠ prior.slot) (displaced : field.slot ≠ before.length) :
    checkFields schema.name 0 none [] schema.sorted = .error (.missingSlot schema.name before.length) := by
  rw [order, checkFields_append schema.name sound, checkFields, filter_getLast?_eq_none new]
  simp [displaced]

theorem checkFields_of_known (order : schema.sorted = before ++ field :: after) (sound : Sound before)
    (here : field.slot = before.length) (known : field.name ∈ before.map (·.name)) :
    checkFields schema.name 0 none [] schema.sorted = .error (.duplicateField schema.name field.name) := by
  rw [order, checkFields_append schema.name sound, checkFields, filter_getLast?_eq_none (sound.new here)]
  simp only [here, ne_eq, not_true_eq_false, if_false, List.mem_reverse, known, if_true]

end Slots

/-! ## Types -/

section Types

variable {before after : List SchemaField} {field : SchemaField}

private theorem exactFields_append_singleton (progress : Progress) :
    (exactFields platform progress (before ++ [field])).2 =
      (exactFields platform progress before).2.advance ⟨field.type, platform⟩ := by
  induction before generalizing progress with
  | nil => rfl
  | cons first rest ih => exact ih _

private theorem Fitting.nil (platform : Platform) : Fitting platform [] := ⟨nofun, Nat.two_pow_pos 64⟩

private theorem placeFields_append {struct : String} {progress reached : Progress} {placed : List LayoutField}
    (earlier : placeFields struct platform progress before = .ok (placed, reached)) {rest : List SchemaField}
    (failed : placeFields struct platform reached rest = .error error) :
    placeFields struct platform progress (before ++ rest) = .error error := by
  induction before generalizing progress placed with
  | nil =>
    cases earlier
    exact failed
  | cons first others ih =>
    obtain ⟨type, resolved, placing⟩ := bind_eq_ok.mp earlier
    obtain ⟨⟨offset, next⟩, positioned, remaining⟩ := bind_eq_ok.mp placing
    obtain ⟨⟨tail, last⟩, behind, done⟩ := bind_eq_ok.mp remaining
    cases done
    rw [List.cons_append, placeFields, resolved, ok_bind, positioned, ok_bind]
    dsimp only
    rw [ih behind, error_bind]

variable (natural : ∀ field ∈ schema.fields, Natural (AbiType.mk field.type platform).alignment)

include natural in
theorem natural_sorted : ∀ field ∈ schema.sorted, Natural (AbiType.mk field.type platform).alignment :=
  fun field member => natural field (schema.sorted_perm.mem_iff.mp member)

include natural in
private theorem layout_of_placeFields (sound : Sound schema.sorted) (order : schema.sorted = before ++ field :: after)
    (fitting : Fitting platform before)
    (failed : placeFields schema.name platform (exactFields platform ⟨0, 1⟩ before).2 (field :: after) =
      .error error) :
    schema.layout platform = .error error := by
  have earlier : ∀ field ∈ before, Natural (AbiType.mk field.type platform).alignment := by
    intro field member
    exact natural_sorted natural field (order ▸ List.mem_append_left _ member)
  have start : (Progress.mk 0 1).size < wordBound := Nat.two_pow_pos 64
  have placed := placeFields_eq_ite schema.name earlier fitting.embeds start
  have word : (exactFields platform ⟨0, 1⟩ before).2.size < wordBound := fitting.word
  rw [if_pos word] at placed
  simp only [layout, checkFields_of_sound schema.name sound, ok_bind]
  rw [order, placeFields_append placed failed, error_bind]

private theorem resolveField_of_empty {nested : StructLayout} (empty : nested.size = 0) :
    resolveField platform (.struct nested) = .error (.emptyStruct nested.name) := if_pos empty

private theorem resolveField_of_foreign {nested : StructLayout} (filled : nested.size ≠ 0)
    (foreign : nested.platform ≠ platform) :
    resolveField platform (.struct nested) = .error (.platformMismatch nested.name nested.platform platform) := by
  rw [resolveField, if_neg filled, NativeType.resolve, if_neg foreign]

include natural in
private theorem layout_of_far (sound : Sound schema.sorted) (order : schema.sorted = before ++ field :: after)
    (fitting : Fitting platform before) (embeds : Embeds platform field.type)
    (large : wordBound ≤ reach platform (before ++ [field])) :
    schema.layout platform = .error (.sizeOverflow schema.name) := by
  have member : field ∈ schema.sorted := order ▸ List.mem_append_right _ List.mem_cons_self
  have first := natural_sorted natural field member
  rw [reach, exactFields_append_singleton] at large
  refine layout_of_placeFields natural sound order fitting ?_
  rw [placeFields, resolveField_eq_ok_iff.mpr ⟨rfl, embeds⟩, ok_bind, placeField_eq_ite first,
    if_neg (Nat.not_lt.mpr large), error_bind]

include natural in
private theorem layout_of_fitting (sound : Sound schema.sorted) (fitting : Fitting platform schema.sorted) :
    schema.layout platform =
      if (schema.exactLayout platform).size < wordBound then .ok (schema.exactLayout platform)
      else .error (.sizeOverflow schema.name) :=
  layout_eq_ite sound.slots sound.names (natural_sorted natural) fitting.embeds

end Types

/-! ## The decision -/

section Decision

variable (natural : ∀ field ∈ schema.fields, Natural (AbiType.mk field.type platform).alignment)

include natural in
theorem layout_of_fails (fails : schema.Fails platform error) : schema.layout platform = .error error := by
  cases fails with
  | collision order sound repeated claimants =>
    rw [claimants_eq order sound repeated] at claimants
    cases claimants
    exact layout_of_checkFields (checkFields_of_repeated order sound repeated)
  | missing order sound new displaced least =>
    rw [least.unique (isLeast_unclaimed order sound new displaced)]
    exact layout_of_checkFields (checkFields_of_displaced order sound new displaced)
  | duplicate order sound here known => exact layout_of_checkFields (checkFields_of_known order sound here known)
  | empty sound order fitting type empty =>
    refine layout_of_placeFields natural sound order fitting ?_
    rw [placeFields, type, resolveField_of_empty empty, error_bind]
  | foreign sound order fitting type filled foreign =>
    refine layout_of_placeFields natural sound order fitting ?_
    rw [placeFields, type, resolveField_of_foreign filled foreign, error_bind]
  | far sound order fitting embeds large => exact layout_of_far natural sound order fitting embeds large
  | padded sound fitting large => rw [layout_of_fitting natural sound fitting, if_neg (Nat.not_lt.mpr large)]

private theorem Layable.sound (layable : schema.Layable platform) : Sound schema.sorted :=
  sound_sorted_iff.mpr ⟨layable.slots, layable.names⟩

include natural in
private theorem Layable.fitting (layable : schema.Layable platform) : Fitting platform schema.sorted := by
  have power : Natural (exactFields platform ⟨0, 1⟩ schema.sorted).2.alignment :=
    exactFields_natural (natural_sorted natural) .one
  constructor
  · intro field member
    exact layable.embeds field (schema.sorted_perm.mem_iff.mp member)
  · -- The padding at the end only adds to the end of the last field.
    exact (isLeast_roundUp power.pos _).1.2.trans_lt layable.size

theorem fails_of_unsound {before after : List SchemaField} {field : SchemaField}
    (order : schema.sorted = before ++ field :: after) (sound : Sound before) (broken : ¬ Sound (before ++ [field])) :
    ∃ error, schema.Fails platform error := by
  by_cases repeated : ∃ prior, before.getLast? = some prior ∧ field.slot = prior.slot
  · obtain ⟨prior, found, repeated⟩ := repeated
    obtain ⟨init, same⟩ := List.getLast?_eq_some_iff.mp found
    subst same
    have order : schema.sorted = init ++ prior :: field :: after := by
      rw [order, List.append_assoc, List.singleton_append]
    exact ⟨_, .collision order sound repeated (claimants_eq order sound repeated)⟩
  have new : ∀ prior, before.getLast? = some prior → field.slot ≠ prior.slot :=
    fun prior found same => repeated ⟨prior, found, same⟩
  by_cases here : field.slot = before.length
  · have known : field.name ∈ before.map (·.name) := by
      apply Classical.byContradiction
      intro fresh
      exact broken (Sound.append_singleton_iff.mpr ⟨sound, here, fresh⟩)
    exact ⟨_, .duplicate order sound here known⟩
  · exact ⟨_, .missing order sound new here (isLeast_unclaimed order sound new here)⟩

private theorem fails_of_unfitting (sound : Sound schema.sorted) {before after : List SchemaField} {field : SchemaField}
    (order : schema.sorted = before ++ field :: after) (fitting : Fitting platform before)
    (broken : ¬ Fitting platform (before ++ [field])) : ∃ error, schema.Fails platform error := by
  by_cases embeds : Embeds platform field.type
  · have large : wordBound ≤ reach platform (before ++ [field]) := by
      apply Nat.le_of_not_lt
      intro word
      refine broken ⟨?_, word⟩
      intro other member
      rcases List.mem_append.mp member with earlier | last
      · exact fitting.embeds other earlier
      · exact List.mem_singleton.mp last ▸ embeds
    exact ⟨_, .far sound order fitting embeds large⟩
  cases type : field.type with
  | scalar own =>
    rw [type] at embeds
    exact absurd trivial embeds
  | struct nested =>
    rw [type] at embeds
    by_cases filled : nested.size = 0
    · exact ⟨_, .empty sound order fitting type filled⟩
    · exact ⟨_, .foreign sound order fitting type filled fun same => embeds ⟨filled, same⟩⟩

theorem layable_or_fails (schema : StructSchema) (platform : Platform) :
    schema.Layable platform ∨ ∃ error, schema.Fails platform error := by
  obtain sound | ⟨before, field, after, order, sound, broken⟩ := holds_or_broken Sound.nil schema.sorted
  · obtain fitting | ⟨before, field, after, order, fitting, broken⟩ :=
      holds_or_broken (Fitting.nil platform) schema.sorted
    · by_cases word : (schema.exactLayout platform).size < wordBound
      · obtain ⟨slots, names⟩ := sound_sorted_iff.mp sound
        refine .inl ⟨slots, names, ?_, word⟩
        intro field member
        exact fitting.embeds field (schema.sorted_perm.mem_iff.mpr member)
      · exact .inr ⟨_, .padded sound fitting (Nat.le_of_not_lt word)⟩
    · exact .inr (fails_of_unfitting sound order fitting broken)
  · exact .inr (fails_of_unsound order sound broken)

include natural in
theorem layout_of_layable (layable : schema.Layable platform) :
    schema.layout platform = .ok (schema.exactLayout platform) := by
  rw [layout_of_fitting natural layable.sound (layable.fitting natural), if_pos layable.size]

include natural in
private theorem fails_of_layout (failed : schema.layout platform = .error error) : schema.Fails platform error := by
  obtain layable | ⟨reason, fails⟩ := layable_or_fails schema platform
  · cases failed.symm.trans (layout_of_layable natural layable)
  · cases failed.symm.trans (layout_of_fails natural fails)
    exact fails

private theorem InOrder.slot_eq (order : schema.InOrder) {before after : List SchemaField} {field : SchemaField}
    (split : schema.sorted = before ++ field :: after) : field.slot = before.length := by
  have slots := order.slots
  rw [← order.sorted_eq, split] at slots
  have here := congrArg (·[before.length]?) slots
  simpa using here

include natural in
/-- Fields that take their slots one after the other, of types from one platform, leave three reasons to fail. -/
theorem InOrder.error_of_layout (order : schema.InOrder)
    (home : ∀ field ∈ schema.fields, ∀ nested, field.type = .struct nested → nested.platform = platform)
    (failed : schema.layout platform = .error error) :
    (∃ field, error = .duplicateField schema.name field) ∨ (∃ nested, error = .emptyStruct nested) ∨
      error = .sizeOverflow schema.name := by
  cases fails_of_layout natural failed with
  | @collision before after others prior field first second split sound repeated claimants =>
    have here : field.slot = (before ++ [prior]).length := order.slot_eq (by simpa using split)
    have there := order.slot_eq split
    rw [repeated, there] at here
    simp at here
  | missing split sound new displaced least => exact absurd (order.slot_eq split) displaced
  | duplicate => exact .inl ⟨_, rfl⟩
  | empty => exact .inr (.inl ⟨_, rfl⟩)
  | @foreign before after field nested sound split fitting type filled foreign =>
    have member : field ∈ schema.sorted := split ▸ List.mem_append_right _ List.mem_cons_self
    exact absurd (home field (schema.sorted_perm.mem_iff.mp member) nested type) foreign
  | far => exact .inr (.inr rfl)
  | padded => exact .inr (.inr rfl)

end Decision

/-- A declaration of types that were themselves laid out has a layout exactly when C has one in words for it, and the
error it has otherwise is that of the fault that decides. -/
theorem layout_decided {schema : StructSchema} {platform : Platform}
    (nested : ∀ field ∈ schema.fields, field.type.Computed) :
    InSlotOrder schema.fields schema.sorted ∧
      ((∃ layout, schema.layout platform = .ok layout) ↔ schema.Layable platform) ∧
      ∀ error, schema.layout platform = .error error ↔ schema.Fails platform error := by
  have natural : ∀ field ∈ schema.fields, Natural (AbiType.mk field.type platform).alignment :=
    fun field member => (nested field member).alignment_natural platform
  have decided := layable_or_fails schema platform
  refine ⟨schema.inSlotOrder_sorted, ⟨?_, ?_⟩, ?_⟩
  · intro ⟨layout, computed⟩
    obtain layable | ⟨error, fails⟩ := decided
    · exact layable
    · cases computed.symm.trans (layout_of_fails natural fails)
  · intro layable
    exact ⟨_, layout_of_layable natural layable⟩
  · intro error
    exact ⟨fails_of_layout natural, layout_of_fails natural⟩

/-- Two fields claim slot one, and the second of them repeats a name as well. -/
def Specimen.clashing : StructSchema :=
  (((StructSchema.empty "pair").fieldAt 1 "b" (.scalar .u8)).fieldAt 0 "a" (.scalar .u16)).fieldAt 1 "a" (.scalar .f64)

theorem layout_decided_collision :
    (∀ field ∈ Specimen.clashing.fields, field.type.Computed) ∧
      Specimen.clashing.layout .lp64 = .error (.slotCollision "pair" 1 "b" "a") ∧
      Specimen.clashing.Fails .lp64 (.slotCollision "pair" 1 "b" "a") ∧ ¬ Specimen.clashing.Layable .lp64 := by
  have nested : ∀ field ∈ Specimen.clashing.fields, field.type.Computed := by
    simp [Specimen.clashing, fieldAt, empty, NativeType.Computed]
  have failed : Specimen.clashing.layout .lp64 = .error (.slotCollision "pair" 1 "b" "a") := by cbv
  obtain ⟨_, layable, fails⟩ := @layout_decided Specimen.clashing .lp64 nested
  refine ⟨nested, failed, (fails _).mp failed, ?_⟩
  intro holds
  obtain ⟨layout, computed⟩ := layable.mpr holds
  cases failed.symm.trans computed

end StructSchema
end Interop
