import Interop.Proofs.CType.Refusals

/-! Structs whose fields are declared in explicit slots, in one order of the calls or another. Sorting by slot undoes
the order, except among fields that claim one slot.
Main statement: `layout_of_perm`. -/
namespace Interop

namespace StructSchema

def declareAt (schema : StructSchema) (fields : List SchemaField) : StructSchema :=
  fields.foldl (fun schema field => schema.fieldAt field.slot field.name field.type) schema

theorem fields_declareAt (schema : StructSchema) (fields : List SchemaField) :
    (schema.declareAt fields).fields = schema.fields ++ fields := by
  induction fields generalizing schema with
  | nil => exact (List.append_nil _).symm
  | cons field rest ih =>
    rw [declareAt, List.foldl_cons, ← declareAt, ih]
    simp [fieldAt]

private theorem name_declareAt (schema : StructSchema) (fields : List SchemaField) :
    (schema.declareAt fields).name = schema.name := by
  induction fields generalizing schema with
  | nil => rfl
  | cons field rest ih => exact ih _

section Permuted

variable {a b : StructSchema} (perm : a.fields.Perm b.fields)
include perm

private theorem sorted_perm_sorted : a.sorted.Perm b.sorted :=
  a.sorted_perm.trans (perm.trans b.sorted_perm.symm)

private theorem slots_eq_of_perm : a.sorted.map (·.slot) = b.sorted.map (·.slot) := by
  apply List.Perm.eq_of_pairwise
  · intro _ _ _ _
    exact Nat.le_antisymm
  · exact List.pairwise_map.mpr a.inSlotOrder_sorted.sorted
  · exact List.pairwise_map.mpr b.inSlotOrder_sorted.sorted
  · exact (sorted_perm_sorted perm).map _

private theorem sorted_eq_of_perm (distinct : (a.fields.map (·.slot)).Nodup) : a.sorted = b.sorted := by
  apply List.Perm.eq_of_pairwise _ a.inSlotOrder_sorted.sorted b.inSlotOrder_sorted.sorted (sorted_perm_sorted perm)
  intro first second here there below above
  have among : second ∈ a.fields := perm.mem_iff.mpr (b.sorted_perm.mem_iff.mp there)
  exact List.inj_on_of_nodup_map distinct (a.sorted_perm.mem_iff.mp here) among (Nat.le_antisymm below above)

private theorem layout_eq_of_perm (name : a.name = b.name) (distinct : (a.fields.map (·.slot)).Nodup)
    (platform : Platform) :
    a.layout platform = b.layout platform := by
  simp only [layout, name, sorted_eq_of_perm perm distinct]

end Permuted

private theorem slots_nodup_of_sound {schema : StructSchema} (sound : Sound schema.sorted) :
    (schema.fields.map (·.slot)).Nodup := by
  apply (schema.sorted_perm.map _).nodup_iff.mp
  rw [sound.slots]
  exact List.nodup_range

private theorem slots_nodup_of_layout {schema : StructSchema} {platform : Platform} {layout : StructLayout}
    (laid : schema.layout platform = .ok layout) : (schema.fields.map (·.slot)).Nodup := by
  obtain ⟨slots, names, _⟩ := layout_eq_ok_iff.mp laid
  exact slots_nodup_of_sound ⟨slots, names⟩

/-! ## A gap in the slots -/

/-- Fields in the order of their slots that are sound up to a field with a slot further on. -/
structure Gap (schema : StructSchema) (before : List SchemaField) (field : SchemaField) (after : List SchemaField) :
    Prop where
  order : schema.sorted = before ++ field :: after
  sound : Sound before
  beyond : ∀ later ∈ field :: after, before.length < later.slot

namespace Gap

variable {schema : StructSchema} {before after : List SchemaField} {field : SchemaField}

private theorem layout_eq (gap : schema.Gap before field after) (platform : Platform) :
    schema.layout platform = .error (.missingSlot schema.name before.length) := by
  have far := gap.beyond field List.mem_cons_self
  have new : ∀ prior, before.getLast? = some prior → field.slot ≠ prior.slot := by
    intro prior found
    have below := gap.sound.slot_lt (List.mem_of_getLast? found)
    omega
  exact layout_of_checkFields (checkFields_of_displaced gap.order gap.sound new (Nat.ne_of_gt far))

private theorem below_perm {rest : List SchemaField} (order : schema.sorted = before ++ rest)
    (slots : before.map (·.slot) = List.range before.length) (beyond : ∀ later ∈ rest, before.length < later.slot) :
    (schema.fields.filter (·.slot < before.length)).Perm before := by
  have inside : before.filter (·.slot < before.length) = before := by
    apply List.filter_eq_self.mpr
    intro field member
    have claimed : field.slot ∈ before.map (·.slot) := List.mem_map_of_mem member
    rw [slots, List.mem_range] at claimed
    exact decide_eq_true claimed
  have outside : rest.filter (·.slot < before.length) = [] := by
    apply List.filter_eq_nil_iff.mpr
    intro later member
    have above := beyond later member
    simp only [decide_eq_true_eq]
    omega
  have kept := (schema.sorted_perm.filter (·.slot < before.length)).symm
  rwa [order, List.filter_append, inside, outside, List.append_nil] at kept

private theorem of_perm {a b : StructSchema} (perm : a.fields.Perm b.fields) (gap : a.Gap before field after) :
    ∃ others next later, others.length = before.length ∧ b.Gap others next later := by
  have slots : b.sorted.map (·.slot) = before.map (·.slot) ++ field.slot :: after.map (·.slot) := by
    rw [← slots_eq_of_perm perm, gap.order, List.map_append, List.map_cons]
  obtain ⟨others, rest, order, same, behind⟩ := List.map_eq_append_iff.mp slots
  obtain ⟨next, later, rfl, _, _⟩ := List.map_eq_cons_iff.mp behind
  have length : others.length = before.length := by
    rw [← List.length_map (·.slot), same, List.length_map]
  have claimed : others.map (·.slot) = List.range others.length := by rw [same, gap.sound.slots, length]
  have beyond : ∀ other ∈ next :: later, others.length < other.slot := by
    intro other member
    have slot : other.slot ∈ (field :: after).map (·.slot) := by
      rw [List.map_cons, ← behind]
      exact List.mem_map_of_mem member
    obtain ⟨source, inside, same⟩ := List.mem_map.mp slot
    rw [length, ← same]
    exact gap.beyond source inside
  have moved : others.Perm before := by
    have first := below_perm gap.order gap.sound.slots gap.beyond
    have second := below_perm order claimed beyond
    rw [length] at second
    exact second.symm.trans ((perm.symm.filter _).trans first)
  exact ⟨others, next, later, length, order, ⟨claimed, (moved.map _).nodup_iff.mpr gap.sound.names⟩, beyond⟩

private theorem of_missing {platform : Platform} (repeated : ¬ (schema.fields.map (·.slot)).Nodup) {struct : String}
    {slot : Nat} (failed : schema.layout platform = .error (.missingSlot struct slot)) :
    ∃ before field after, schema.Gap before field after ∧ struct = schema.name ∧ slot = before.length := by
  -- A declaration that repeats a slot is refused for its slots or names, and a slot is missing only at a gap.
  have unsound : ¬ Sound schema.sorted := fun sound => repeated (slots_nodup_of_sound sound)
  obtain sound | ⟨_, _, _, order, sound, broken⟩ := holds_or_broken Sound.nil schema.sorted
  · exact absurd sound unsound
  obtain ⟨reason, fails⟩ : ∃ reason, schema.Fails platform reason := fails_of_unsound order sound broken
  cases fails with
  | collision order sound repeated _ =>
    cases failed.symm.trans (layout_of_checkFields (checkFields_of_repeated order sound repeated))
  | missing order sound new displaced least =>
    obtain rfl := least.unique (isLeast_unclaimed order sound new displaced)
    cases failed.symm.trans (layout_of_checkFields (checkFields_of_displaced order sound new displaced))
    exact ⟨_, _, _, ⟨order, sound, lt_slot_of_displaced order sound new displaced⟩, rfl, rfl⟩
  | duplicate order sound here known =>
    cases failed.symm.trans (layout_of_checkFields (checkFields_of_known order sound here known))
  | empty sound => exact absurd sound unsound
  | foreign sound => exact absurd sound unsound
  | far sound => exact absurd sound unsound
  | padded sound => exact absurd sound unsound

end Gap

/-- Fields that are declared in their slots have one layout, in whichever order they are declared. Where they have none,
the error is the same as well, unless two of them claim one slot and that slot is not behind a gap. -/
theorem layout_of_perm (name : String) (platform : Platform) {fields order : List SchemaField}
    (perm : order.Perm fields) :
    (∀ layout, ((empty name).declareAt fields).layout platform = .ok layout →
      ((empty name).declareAt order).layout platform = .ok layout) ∧
    ∀ error, ((empty name).declareAt fields).layout platform = .error error →
      ∃ other, ((empty name).declareAt order).layout platform = .error other ∧
        ((fields.map (·.slot)).Nodup → other = error) ∧
        ∀ struct slot, error = .missingSlot struct slot → other = error := by
  have declared : ((empty name).declareAt fields).fields = fields := fields_declareAt _ _
  have reordered : ((empty name).declareAt order).fields = order := fields_declareAt _ _
  have same : ((empty name).declareAt fields).fields.Perm ((empty name).declareAt order).fields := by
    rw [declared, reordered]
    exact perm.symm
  have names : ((empty name).declareAt fields).name = ((empty name).declareAt order).name := by
    rw [name_declareAt, name_declareAt]
  by_cases distinct : (fields.map (·.slot)).Nodup
  · have equal := layout_eq_of_perm same names (declared.symm ▸ distinct) platform
    rw [equal]
    exact ⟨fun _ => id, fun error failed => ⟨error, failed, fun _ => rfl, fun _ _ _ => rfl⟩⟩
  · have repeated : ¬ (((empty name).declareAt fields).fields.map (·.slot)).Nodup := declared.symm ▸ distinct
    constructor
    · intro layout laid
      exact absurd (slots_nodup_of_layout laid) repeated
    · intro error failed
      cases outcome : ((empty name).declareAt order).layout platform with
      | ok layout => exact absurd ((same.map _).nodup_iff.mpr (slots_nodup_of_layout outcome)) repeated
      | error other =>
        refine ⟨other, rfl, fun distinct' => absurd distinct' distinct, ?_⟩
        rintro struct slot rfl
        obtain ⟨before, field, after, gap, rfl, rfl⟩ := Gap.of_missing repeated failed
        obtain ⟨others, _, _, length, moved⟩ := gap.of_perm same
        have reported := moved.layout_eq platform
        rw [outcome, length, ← names] at reported
        exact Except.error.inj reported

/-- Slot one is missing before two fields in slot three, which have one name as well. -/
def Specimen.gapped : List SchemaField :=
  [⟨3, "a", .scalar .u8⟩, ⟨0, "b", .struct Specimen.record⟩, ⟨3, "a", .scalar .f64⟩]

/-- Declared from the last field to the first, the record is the same record and the gap is the same gap. -/
theorem layout_of_perm_reverse :
    (Specimen.recordSchema.fields.reverse.Perm Specimen.recordSchema.fields ∧
      ((empty "record").declareAt Specimen.recordSchema.fields.reverse).layout .llp64 = .ok Specimen.record) ∧
    Specimen.gapped.reverse.Perm Specimen.gapped ∧
      ((empty "gapped").declareAt Specimen.gapped).layout .lp64 = .error (.missingSlot "gapped" 1) ∧
      ((empty "gapped").declareAt Specimen.gapped.reverse).layout .lp64 = .error (.missingSlot "gapped" 1) := by
  have whole := List.reverse_perm Specimen.recordSchema.fields
  have laid : ((empty "record").declareAt Specimen.recordSchema.fields).layout .llp64 = .ok Specimen.record := by cbv
  have perm := List.reverse_perm Specimen.gapped
  have missing : ((empty "gapped").declareAt Specimen.gapped).layout .lp64 = .error (.missingSlot "gapped" 1) := by cbv
  obtain ⟨other, failed, _, gap⟩ := (layout_of_perm "gapped" .lp64 perm).2 _ missing
  exact ⟨⟨whole, (layout_of_perm "record" .llp64 whole).1 _ laid⟩, perm, missing, gap _ _ rfl ▸ failed⟩

end StructSchema
end Interop
