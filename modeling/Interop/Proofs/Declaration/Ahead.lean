import Interop.Proofs.CType.Fields
import Interop.Proofs.Declaration.FunctionLine
import Interop.Proofs.Declaration.StructLine

/-! What has been read of a declaration file, against the entries that are still to come.
`Ahead` relates the two, and each entry preserves it: `push_struct` and `push_function`. -/
namespace Interop.Declarations
open Interop.Alignment Outcome StructSchema

/-- The structs that were read are told apart by their names and fit into others. -/
structure Known (platform : Platform) (structs : List StructLayout) : Prop where
  samePlatform : ∀ layout ∈ structs, layout.platform = platform
  natural : ∀ layout ∈ structs, Natural layout.alignment
  names : ∀ layout ∈ structs, isIdentifier layout.name.toList = true
  distinct : (structs.map (·.name)).Nodup

namespace Known

variable {platform : Platform} {structs : List StructLayout} (known : Known platform structs)
  {type : NativeType} (declared : Declared structs type)
include known declared

private theorem readable (functions : List FunctionDecl) : TypeReadable ⟨platform, structs, functions⟩ type := by
  cases type with
  | scalar own => exact ⟨trivial, fun layout same => nomatch same⟩
  | struct layout =>
    refine ⟨known.names layout declared, ?_⟩
    intro other same
    cases same
    exact find?_of_distinct known.distinct declared

private theorem alignment_natural : Natural (AbiType.mk type platform).alignment := by
  cases type with
  | scalar own => exact own.width_natural platform
  | struct layout => exact known.natural layout declared

private theorem embeds (filled : ∀ layout, type = .struct layout → layout.size ≠ 0) : Embeds platform type := by
  cases type with
  | scalar own => trivial
  | struct layout => exact ⟨filled layout rfl, known.samePlatform layout declared⟩

end Known

namespace StructEntry

private theorem pairs_schema (entry : StructEntry) :
    entry.schema.fields.map (fun field => (field.name, field.type)) =
      entry.fields.map fun field => (field.name, field.type) :=
  fields_declare _ _

private theorem exists_of_mem_schema {entry : StructEntry} {field : SchemaField}
    (member : field ∈ entry.schema.fields) :
    ∃ written ∈ entry.fields, written.type = field.type := by
  have pair : (field.name, field.type) ∈ entry.fields.map fun field => (field.name, field.type) := by
    rw [← pairs_schema]
    exact List.mem_map.mpr ⟨field, member, rfl⟩
  obtain ⟨written, inside, same⟩ := List.mem_map.mp pair
  exact ⟨written, inside, (Prod.mk.inj same).2⟩

private theorem name_schema (entry : StructEntry) : entry.schema.name = entry.name := name_declare _ _

variable {platform : Platform} {entry : StructEntry}

private theorem exactLayout_natural
    (natural : ∀ field ∈ entry.fields, Natural (AbiType.mk field.type platform).alignment) :
    Natural (entry.exactLayout platform).alignment := by
  refine exactFields_natural ?_ .one
  intro field member
  obtain ⟨written, inside, same⟩ := exists_of_mem_schema ((sorted_perm _).mem_iff.mp member)
  exact same ▸ natural written inside

private theorem layout_eq_ite (named : entry.WellNamed) (room : entry.fields.length < wordBound)
    (natural : ∀ field ∈ entry.fields, Natural (AbiType.mk field.type platform).alignment)
    (embeds : ∀ field ∈ entry.fields, Embeds platform field.type) :
    entry.schema.layout platform =
      if (entry.exactLayout platform).size < wordBound then .ok (entry.exactLayout platform)
      else .error (.sizeOverflow entry.name) := by
  have order : entry.schema.InOrder :=
    (InOrder.empty entry.name).declare (by simpa [StructSchema.empty] using room)
  have names : entry.schema.fields.map (·.name) = entry.fields.map (·.name) := by
    have firsts := congrArg (List.map Prod.fst) entry.pairs_schema
    rwa [List.map_map, List.map_map] at firsts
  rw [← entry.name_schema]
  refine StructSchema.layout_eq_ite ?_ ?_ ?_ ?_ <;> rw [order.sorted_eq]
  · exact order.slots
  · rw [names]
    exact named.distinct
  · intro field member
    obtain ⟨written, inside, same⟩ := exists_of_mem_schema member
    exact same ▸ natural written inside
  · intro field member
    obtain ⟨written, inside, same⟩ := exists_of_mem_schema member
    exact same ▸ embeds written inside

end StructEntry

theorem find?_eq_none_of_distinct {α : Type} {key : α → String} {items : List α} {name : String}
    {later : List String} (distinct : (items.map key ++ name :: later).Nodup) :
    (items.find? fun item => key item == name) = none := by
  rw [List.find?_eq_none]
  intro item member same
  have apart := (List.nodup_append.mp distinct).2.2
  exact apart (key item) (List.mem_map_of_mem member) name List.mem_cons_self (beq_iff_eq.mp same)

/-- What has been read is in order, and so are the entries that are still to come after it. -/
structure Ahead (platform : Platform) (declarations : Declarations) (entries : List Entry) : Prop where
  samePlatform : declarations.platform = platform
  known : Known platform declarations.structs
  structs : ∀ entry ∈ structsOf entries, entry.WellNamed
  room : ∀ entry ∈ structsOf entries, entry.fields.length < wordBound
  structsDistinct : (declarations.structs.map (·.name) ++ (structsOf entries).map (·.name)).Nodup
  functions : ∀ decl ∈ functionsOf entries, isIdentifier decl.name.toList = true
  functionsDistinct : (declarations.functions.map (·.name) ++ (functionsOf entries).map (·.name)).Nodup
  inScope : Scoped platform declarations.structs entries

namespace Ahead

variable {platform : Platform} {declarations : Declarations} {rest : List Entry}

section Struct

variable {entry : StructEntry} (ahead : Ahead platform declarations (.struct entry :: rest))
include ahead

private theorem named : entry.WellNamed := ahead.structs entry List.mem_cons_self

private theorem field_natural : ∀ field ∈ entry.fields, Natural (AbiType.mk field.type platform).alignment :=
  fun field member => ahead.known.alignment_natural (ahead.inScope.1 field member).1

theorem readable_struct : entry.Readable declarations := by
  obtain ⟨types, _⟩ := ahead.inScope
  refine ⟨ahead.named.name, fun field member => ⟨ahead.named.fields field member, ?_⟩⟩
  have readable := ahead.known.readable (types field member).1 declarations.functions
  rwa [← ahead.samePlatform] at readable

theorem layout_eq_ite : entry.schema.layout platform =
    if (entry.exactLayout platform).size < wordBound then .ok (entry.exactLayout platform)
    else .error (.sizeOverflow entry.name) := by
  obtain ⟨types, _⟩ := ahead.inScope
  refine StructEntry.layout_eq_ite ahead.named (ahead.room entry List.mem_cons_self) ahead.field_natural ?_
  exact fun field member => ahead.known.embeds (types field member).1 (types field member).2

private theorem structsDistinct_push :
    ((declarations.structs ++ [entry.exactLayout platform]).map (·.name) ++ (structsOf rest).map (·.name)).Nodup := by
  have name : (entry.exactLayout platform).name = entry.name := entry.name_schema
  rw [List.map_append, List.map_singleton, name, List.append_assoc]
  exact ahead.structsDistinct

private theorem known_push : Known platform (declarations.structs ++ [entry.exactLayout platform]) := by
  have natural := StructEntry.exactLayout_natural ahead.field_natural
  refine ⟨forall_mem_snoc ahead.known.samePlatform rfl, forall_mem_snoc ahead.known.natural natural,
    forall_mem_snoc ahead.known.names ?_, ?_⟩
  · rw [show (entry.exactLayout platform).name = entry.name from entry.name_schema]
    exact ahead.named.name
  · exact (List.nodup_append.mp ahead.structsDistinct_push).1

theorem push_struct :
    Ahead platform { declarations with structs := declarations.structs ++ [entry.exactLayout platform] } rest where
  samePlatform := ahead.samePlatform
  known := ahead.known_push
  structs := fun other member => ahead.structs other (List.mem_cons_of_mem _ member)
  room := fun other member => ahead.room other (List.mem_cons_of_mem _ member)
  structsDistinct := ahead.structsDistinct_push
  functions := ahead.functions
  functionsDistinct := ahead.functionsDistinct
  inScope := ahead.inScope.2

end Struct

section Function

variable {decl : FunctionDecl} (ahead : Ahead platform declarations (.function decl :: rest))
include ahead

theorem readable_function : FunctionReadable declarations decl := by
  obtain ⟨params, result, _⟩ := ahead.inScope
  have readable : ∀ type, Declared declarations.structs type → TypeReadable declarations type := by
    intro type declared
    have readable := ahead.known.readable declared declarations.functions
    rwa [← ahead.samePlatform] at readable
  exact ⟨ahead.functions decl List.mem_cons_self, fun type member => readable type (params type member),
    fun type same => readable type (result type same)⟩

theorem push_function :
    Ahead platform { declarations with functions := declarations.functions ++ [decl] } rest where
  samePlatform := ahead.samePlatform
  known := ahead.known
  structs := ahead.structs
  room := ahead.room
  structsDistinct := ahead.structsDistinct
  functions := fun other member => ahead.functions other (List.mem_cons_of_mem _ member)
  functionsDistinct := by
    rw [List.map_append, List.map_singleton, List.append_assoc]
    exact ahead.functionsDistinct
  inScope := ahead.inScope.2.2

end Function

end Ahead
end Interop.Declarations
