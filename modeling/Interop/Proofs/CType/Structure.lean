import Interop.CType.Basic

/-! Types by their structure, where a struct stands above the types of its fields.
Main statements: `NativeType.nesting`, the induction over it, and `StructLayout.same_iff`. -/
namespace Interop

/-- What holds of all scalars, and of a struct if of the types of its fields, holds of every type. -/
theorem NativeType.nesting {motive : NativeType → Prop} (scalar : ∀ own, motive (.scalar own))
    (struct : ∀ layout : StructLayout, (∀ field ∈ layout.fields, motive field.type) → motive (.struct layout))
    (type : NativeType) : motive type := by
  refine @NativeType.rec motive (fun field => motive field.type)
    (fun layout => ∀ field ∈ layout.fields, motive field.type) (fun fields => ∀ field ∈ fields, motive field.type)
    scalar struct ?_ ?_ ?_ ?_ type
  · intro _ _ _ holds
    exact holds
  · intro _ _ _ _ _ each
    exact each
  · exact nofun
  · intro _ _ first others
    exact List.forall_mem_cons.mpr ⟨first, others⟩

/-! ## Equality -/

private theorem sameFields_iff {fields : List LayoutField}
    (each : ∀ field ∈ fields, ∀ type, field.type.same type = true ↔ field.type = type) (others : List LayoutField) :
    sameFields fields others = true ↔ fields = others := by
  induction fields generalizing others with
  | nil => cases others <;> simp [sameFields]
  | cons field rest ih =>
    obtain ⟨here, later⟩ := List.forall_mem_cons.mp each
    cases others with
    | nil => simp [sameFields]
    | cons other others =>
      obtain ⟨_, _, _⟩ := field
      obtain ⟨_, _, _⟩ := other
      simp [sameFields, LayoutField.same, here, ih later, and_assoc]

private theorem NativeType.same_iff (type other : NativeType) : type.same other = true ↔ type = other := by
  induction type using NativeType.nesting generalizing other with
  | scalar own => cases other <;> simp [NativeType.same]
  | struct layout each =>
    cases other with
    | scalar own => simp [NativeType.same]
    | struct other =>
      obtain ⟨_, _, _, _, _⟩ := layout
      obtain ⟨_, _, _, _, _⟩ := other
      simp [NativeType.same, StructLayout.same, sameFields_iff each, and_assoc]

theorem StructLayout.same_iff (layout other : StructLayout) : layout.same other = true ↔ layout = other := by
  have types := NativeType.same_iff (.struct layout) (.struct other)
  rwa [NativeType.same, NativeType.struct.injEq] at types

end Interop
