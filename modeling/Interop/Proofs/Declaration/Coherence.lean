import Interop.Proofs.CType.Fields
import Interop.Proofs.CType.Refusals
import Interop.Proofs.Declaration.Ahead
import Interop.Proofs.Declaration.LineOutcomes
import Interop.Proofs.Text.LeadingLines

/-! What holds of all declarations that can be read from a text, and the errors that a text can lead to.
Each line keeps `Gathered`, and `parse_coherent` says what it comes to at the end. -/
namespace Interop.Declarations
open Interop.Alignment Outcome StructSchema

/-- What a caller may rely on in declarations for a platform. -/
structure Coherent (platform : Platform) (declarations : Declarations) : Prop where
  samePlatform : declarations.platform = platform
  structNames : ∀ layout ∈ declarations.structs, isIdentifier layout.name.toList = true
  structsDistinct : (declarations.structs.map (·.name)).Nodup
  structFound : ∀ layout ∈ declarations.structs, declarations.struct? layout.name = some layout
  structPlatform : ∀ layout ∈ declarations.structs, layout.platform = platform
  fieldNames : ∀ layout ∈ declarations.structs, ∀ field ∈ layout.fields, isIdentifier field.name.toList = true
  fieldsDistinct : ∀ layout ∈ declarations.structs, (layout.fields.map (·.name)).Nodup
  /-- At any depth, a struct holds only earlier ones, and those have bytes. -/
  embedded : ∀ (index : Nat) layout inner, declarations.structs[index]? = some layout → layout.Encloses inner →
    inner.platform = platform ∧ inner.size ≠ 0 ∧ ∃ earlier < index, declarations.structs[earlier]? = some inner
  functionNames : ∀ function ∈ declarations.functions, isIdentifier function.name.toList = true
  functionsDistinct : (declarations.functions.map (·.name)).Nodup
  functionFound : ∀ function ∈ declarations.functions, declarations.function? function.name = some function
  params : ∀ function ∈ declarations.functions, ∀ type ∈ function.params, Declared declarations.structs type
  results : ∀ function ∈ declarations.functions, ∀ type, function.result = some type →
    Declared declarations.structs type

inductive Documented : BindError → Prop
  | parse (line : Nat) (fault : SyntaxFault) : Documented (.parse line fault)
  | voidNotAllowed (place : String) : Documented (.layout (.voidNotAllowed place))
  | duplicateField (struct field : String) : Documented (.layout (.duplicateField struct field))
  | emptyStruct (name : String) : Documented (.layout (.emptyStruct name))
  | sizeOverflow (name : String) : Documented (.layout (.sizeOverflow name))

/-! ## Structs in the order of declaration -/

/-- A struct with good field names that holds no struct but the given ones. -/
structure Built (earlier : List StructLayout) (layout : StructLayout) : Prop where
  computed : layout.Computed
  fieldNames : ∀ field ∈ layout.fields, isIdentifier field.name.toList = true
  fields : ∀ field ∈ layout.fields, Declared earlier field.type

inductive BuiltUp : List StructLayout → Prop
  | nil : BuiltUp []
  | snoc {earlier : List StructLayout} {layout : StructLayout} (before : BuiltUp earlier)
    (last : Built earlier layout) : BuiltUp (earlier ++ [layout])

namespace BuiltUp

variable {structs : List StructLayout}

private theorem built (builtUp : BuiltUp structs) {layout : StructLayout} (member : layout ∈ structs) :
    layout.Computed ∧ ∀ field ∈ layout.fields, isIdentifier field.name.toList = true := by
  induction builtUp with
  | nil => cases member
  | snoc _ last ih =>
    rcases List.mem_append.mp member with inside | final
    · exact ih inside
    · rw [List.mem_singleton.mp final]
      exact ⟨last.computed, last.fieldNames⟩

private theorem enclosed (builtUp : BuiltUp structs) {index : Nat} {layout inner : StructLayout}
    (found : structs[index]? = some layout) (encloses : layout.Encloses inner) :
    ∃ earlier < index, structs[earlier]? = some inner := by
  induction builtUp generalizing index layout with
  | nil => cases found
  | @snoc before added _ last ih =>
    have widen : ∀ {position struct}, before[position]? = some struct →
        position < before.length ∧ (before ++ [added])[position]? = some struct := by
      intro position struct here
      have inside := (List.getElem?_eq_some_iff.mp here).1
      exact ⟨inside, by rwa [List.getElem?_append_left inside]⟩
    by_cases inside : index < before.length
    · rw [List.getElem?_append_left inside] at found
      obtain ⟨earlier, below, here⟩ := ih found encloses
      exact ⟨earlier, below, (widen here).2⟩
    · obtain ⟨outside, rfl⟩ : index = before.length ∧ added = layout := by
        have bound := (List.getElem?_eq_some_iff.mp found).1
        rw [List.length_append, List.length_singleton] at bound
        have last : index = before.length := by omega
        subst last
        simpa using found
      -- The added struct holds earlier ones, and whatever those hold is earlier still.
      cases encloses with
      | field member type =>
        have declared := last.fields _ member
        rw [type] at declared
        obtain ⟨earlier, here⟩ := List.mem_iff_getElem?.mp declared
        exact ⟨earlier, outside ▸ (widen here).1, (widen here).2⟩
      | deeper member type rest =>
        have declared := last.fields _ member
        rw [type] at declared
        obtain ⟨middle, here⟩ := List.mem_iff_getElem?.mp declared
        obtain ⟨earlier, below, there⟩ := ih here rest
        exact ⟨earlier, outside ▸ (widen there).1, (widen there).2⟩

end BuiltUp

/-! ## Entries -/

private theorem distinct_push {α : Type} {key : α → String} {items : List α} (distinct : (items.map key).Nodup)
    {item : α} (new : (items.find? fun other => key other == key item) = none) : ((items ++ [item]).map key).Nodup := by
  rw [List.map_append, List.map_singleton, List.nodup_append]
  refine ⟨distinct, List.nodup_singleton _, ?_⟩
  intro name member other single same
  obtain ⟨earlier, inside, rfl⟩ := List.mem_map.mp member
  rw [List.mem_singleton.mp single] at same
  exact List.find?_eq_none.mp new earlier inside (beq_iff_eq.mpr same)

private theorem Declared.mono {known more : List StructLayout} {type : NativeType} (declared : Declared known type)
    (wider : known ⊆ more) : Declared more type := by
  cases type with
  | scalar own => trivial
  | struct layout => exact wider declared

structure Gathered (platform : Platform) (declarations : Declarations) : Prop where
  samePlatform : declarations.platform = platform
  known : Known platform declarations.structs
  builtUp : BuiltUp declarations.structs
  functionNames : ∀ function ∈ declarations.functions, isIdentifier function.name.toList = true
  functionsDistinct : (declarations.functions.map (·.name)).Nodup
  params : ∀ function ∈ declarations.functions, ∀ type ∈ function.params, Declared declarations.structs type
  results : ∀ function ∈ declarations.functions, ∀ type, function.result = some type →
    Declared declarations.structs type

namespace StructRead

variable {declarations : Declarations} {length : Nat} {name : String} {fields : List (String × NativeType)}
  (read : StructRead declarations length name fields)
include read

private theorem field_of_mem {field : SchemaField}
    (member : field ∈ ((StructSchema.empty name).declare fields).fields) :
    FieldRead declarations (field.name, field.type) := by
  apply read.read
  have pairs := fields_declare (StructSchema.empty name) fields
  rw [show (StructSchema.empty name).fields = [] from rfl, List.map_nil, List.nil_append] at pairs
  rw [← pairs]
  exact List.mem_map.mpr ⟨field, member, rfl⟩

private theorem inOrder (room : length ≤ wordBound) : ((StructSchema.empty name).declare fields).InOrder := by
  have few := read.few
  refine (InOrder.empty name).declare ?_
  simp only [StructSchema.empty, List.length_nil]
  omega

end StructRead

namespace Gathered

variable {platform : Platform} {declarations : Declarations} (gathered : Gathered platform declarations)
include gathered

private theorem computed {type : NativeType} (declared : Declared declarations.structs type) : type.Computed := by
  cases type with
  | scalar own => trivial
  | struct layout => exact (gathered.builtUp.built declared).1

section Struct

variable {length : Nat} {name : String} {fields : List (String × NativeType)} {layout : StructLayout}
  (read : StructRead declarations length name fields)
include read

private theorem built (laid : ((StructSchema.empty name).declare fields).layout declarations.platform = .ok layout) :
    layout.name = name ∧ layout.platform = platform ∧ Built declarations.structs layout := by
  obtain ⟨_, _, last, placed, _, same⟩ := layout_eq_ok_iff.mp laid
  have each : ∀ field ∈ layout.fields, FieldRead declarations (field.name, field.type) := by
    intro field member
    obtain ⟨source, listed, sameName, sameType⟩ := placed.declared member
    rw [← sameName, ← sameType]
    exact read.field_of_mem ((sorted_perm _).mem_iff.mp listed)
  refine ⟨?_, ?_, ?_, fun field member => (each field member).name, fun field member => (each field member).type⟩
  · rw [same]
    exact name_declare _ _
  · rw [same]
    exact gathered.samePlatform
  · refine .intro _ declarations.platform layout ?_ laid
    intro field member inner type
    have computed := gathered.computed (read.field_of_mem member).type
    dsimp only at computed
    rwa [type] at computed

private theorem push_struct
    (laid : ((StructSchema.empty name).declare fields).layout declarations.platform = .ok layout) :
    Gathered platform (declarations.withStruct layout) := by
  obtain ⟨sameName, home, built⟩ := gathered.built read laid
  have known : Known platform (declarations.structs ++ [layout]) := by
    refine ⟨forall_mem_snoc gathered.known.samePlatform home,
      forall_mem_snoc gathered.known.natural built.computed.alignment_natural,
      forall_mem_snoc gathered.known.names ?_, ?_⟩
    · rw [sameName]
      exact read.identifier
    · apply distinct_push gathered.known.distinct
      rw [sameName]
      exact read.new
  have wider : declarations.structs ⊆ declarations.structs ++ [layout] := List.subset_append_left _ _
  exact {
    samePlatform := gathered.samePlatform
    known := known
    builtUp := .snoc gathered.builtUp built
    functionNames := gathered.functionNames
    functionsDistinct := gathered.functionsDistinct
    params := fun function member type among => (gathered.params function member type among).mono wider
    results := fun function member type same => (gathered.results function member type same).mono wider }

private theorem documented_of_layout (room : length ≤ wordBound) {reason : LayoutError}
    (failed : ((StructSchema.empty name).declare fields).layout declarations.platform = .error reason) :
    Documented (.layout reason) := by
  -- The fields have slots of their own and structs for the one platform, so three reasons are left.
  have natural : ∀ field ∈ ((StructSchema.empty name).declare fields).fields,
      Natural (AbiType.mk field.type declarations.platform).alignment := by
    intro field member
    exact (gathered.computed (read.field_of_mem member).type).alignment_natural _
  have home : ∀ field ∈ ((StructSchema.empty name).declare fields).fields, ∀ nested, field.type = .struct nested →
      nested.platform = declarations.platform := by
    intro field member nested type
    have declared := (read.field_of_mem member).type
    dsimp only at declared
    rw [type] at declared
    exact (gathered.known.samePlatform nested declared).trans gathered.samePlatform.symm
  obtain ⟨field, rfl⟩ | ⟨nested, rfl⟩ | rfl := (read.inOrder room).error_of_layout natural home failed
  · exact .duplicateField _ _
  · exact .emptyStruct _
  · exact .sizeOverflow _

end Struct

private theorem push_function {function : FunctionDecl} (read : FunctionRead declarations function) :
    Gathered platform (declarations.withFunction function) where
  samePlatform := gathered.samePlatform
  known := gathered.known
  builtUp := gathered.builtUp
  functionNames := forall_mem_snoc gathered.functionNames read.name
  functionsDistinct := distinct_push gathered.functionsDistinct read.new
  params := forall_mem_snoc gathered.params read.params
  results := forall_mem_snoc gathered.results read.result

private theorem coherent : Coherent platform declarations where
  samePlatform := gathered.samePlatform
  structNames := gathered.known.names
  structsDistinct := gathered.known.distinct
  structFound := fun _ member => find?_of_distinct gathered.known.distinct member
  structPlatform := gathered.known.samePlatform
  fieldNames := fun _ member => (gathered.builtUp.built member).2
  fieldsDistinct := fun _ member => (gathered.builtUp.built member).1.names_nodup
  embedded := by
    intro index layout inner found encloses
    obtain ⟨earlier, below, here⟩ := gathered.builtUp.enclosed found encloses
    have computed := (gathered.builtUp.built (List.mem_of_getElem? found)).1
    exact ⟨gathered.known.samePlatform inner (List.mem_of_getElem? here), (encloses.embedded computed).1,
      earlier, below, here⟩
  functionNames := gathered.functionNames
  functionsDistinct := gathered.functionsDistinct
  functionFound := fun _ member => find?_of_distinct gathered.functionsDistinct member
  params := gathered.params
  results := gathered.results

end Gathered

private theorem Gathered.empty (platform : Platform) : Gathered platform (.empty platform) where
  samePlatform := rfl
  known := ⟨by simp [Declarations.empty], by simp [Declarations.empty], by simp [Declarations.empty], .nil⟩
  builtUp := .nil
  functionNames := by simp [Declarations.empty]
  functionsDistinct := .nil
  params := by simp [Declarations.empty]
  results := by simp [Declarations.empty]

/-! ## Lines -/

private theorem InText.documented {line : Nat} {error : BindError} (inText : InText line error) : Documented error := by
  cases inText with
  | fault fault => exact .parse line fault
  | void place => exact .voidNotAllowed place

private theorem length_codeOf_le (line : List Char) : (codeOf line).length ≤ line.length := by
  have trimmed : ∀ text : List Char, (Text.trim text).length ≤ text.length := by
    intro text
    have front := (List.dropWhile_suffix Text.isBlank (l := text)).length_le
    have back := (List.dropWhile_suffix Text.isBlank (l := (Text.trimStart text).reverse)).length_le
    rw [List.length_reverse] at back
    rw [Text.trim, Text.trimEnd, List.length_reverse]
    exact back.trans front
  unfold codeOf
  split
  next code comment cut =>
    have whole := length_of_splitOnce? cut
    have shorter := trimmed code
    omega
  next => exact trimmed line

def Progress.held (progress : Progress) : Nat := progress.pending.elim 0 fun pending => pending.code.length

private theorem StructCode.length_le {progress : Progress} {line : Nat} {text : List Char} {pending : Pending}
    (code : StructCode progress line text pending) : pending.code.length ≤ progress.held + text.length + 1 := by
  have short := length_codeOf_le text
  cases code with
  | first idle starts =>
    dsimp only
    omega
  | further waiting =>
    simp only [Progress.held, waiting, Option.elim_some, List.length_append, List.length_cons]
    omega

/-- A line keeps what has been gathered, however long it is, and adds no more than its length to what is held. In a text
that fits into memory it is refused only in the documented ways. -/
private theorem Reads.keeps {platform : Platform} {progress : Progress} {line : Nat} {text : List Char}
    {outcome : Except BindError Progress} (reads : Reads progress line text outcome)
    (gathered : Gathered platform progress.declarations) :
    Yields (fun next => Gathered platform next.declarations ∧ next.held ≤ progress.held + (text.length + 1))
      (fun error => progress.held + (text.length + 1) ≤ wordBound → Documented error) outcome := by
  cases reads with
  | blank empty => exact ⟨gathered, Nat.le_add_right _ _⟩
  | waits code unclosed => exact ⟨gathered, code.length_le⟩
  | struct code read laid => exact ⟨gathered.push_struct read laid, Nat.zero_le _⟩
  | structFails code fails =>
    -- The room bounds the code of a struct, and so the number of its fields: their slots are words.
    intro room
    have length := code.length_le
    cases fails with
    | text inText => exact inText.documented
    | layout read failed => exact gathered.documented_of_layout read (by omega) failed
  | function idle read => exact ⟨gathered.push_function read, Nat.zero_le _⟩
  | functionFails idle fails => exact fun _ => fails.documented

private theorem parseLines_keeps {platform : Platform} {progress : Progress} {line : Nat} {lines : List (List Char)}
    (gathered : Gathered platform progress.declarations) :
    Yields (fun last => Gathered platform last.declarations)
      (fun error => progress.held + Text.weight lines ≤ wordBound → Documented error)
      (parseLines progress line lines) := by
  induction lines generalizing progress line with
  | nil => exact gathered
  | cons text rest ih =>
    have first := (step_reads progress line text).keeps gathered
    simp only [Text.weight]
    refine (first.mono (fun _ kept => kept) ?_).bind ?_
    · intro error documented room
      exact documented (by omega)
    · rintro next ⟨gathered, grown⟩
      refine (ih gathered).mono (fun _ kept => kept) ?_
      intro error documented room
      exact documented (by omega)

theorem gathered_of_parse {text : List Char} {platform : Platform} {declared : Declarations}
    (read : parse text platform = .ok declared) : Gathered platform declared := by
  obtain ⟨last, lines, closed⟩ := bind_eq_ok.mp read
  have gathered := (parseLines_keeps (.empty platform)).of_ok lines
  split at closed
  · cases closed
    exact gathered
  · cases closed

/-- Whatever a text that fits into memory declares is coherent, and it is refused only in the documented ways. -/
theorem parse_coherent {text : List Char} (platform : Platform) (fits : text.length < wordBound) :
    (∀ declared, parse text platform = .ok declared → Coherent platform declared) ∧
      ∀ error, parse text platform = .error error → Documented error := by
  have weight := Text.weight_lines_le text
  have room : (Progress.mk (empty platform) none).held + Text.weight (Text.lines text) ≤ wordBound := by
    simp only [Progress.held, Option.elim_none]
    omega
  have yields : Yields (Coherent platform) Documented (parse text platform) := by
    have lines := @parseLines_keeps platform ⟨empty platform, none⟩ 1 (Text.lines text) (.empty platform)
    refine (lines.mono (fun _ kept => kept) fun _ documented => documented room).bind ?_
    intro last gathered
    cases last.pending with
    | none => exact gathered.coherent
    | some pending => exact .parse _ _
  constructor
  · intro declared read
    exact yields.of_ok read
  · intro error failed
    exact yields.of_error failed

/-- A struct that holds an earlier one and goes on over a comment and an empty line, and a function over both. -/
def Sample.spread : List Char :=
  "struct a \x7b p: t* \x7d\nstruct b \x7b # of one\n\n x: struct a \x7d\r\njoin: (struct b, t*) -> struct a\n".toList

theorem parse_coherent_spread : Sample.spread.length < wordBound ∧
    ∃ declared, parse Sample.spread .lp64 = .ok declared ∧ declared.structs.map (·.name) = ["a", "b"] ∧
      declared.functions.map (·.name) = ["join"] ∧ Coherent .lp64 declared := by
  have fits : Sample.spread.length < wordBound := by decide
  have names : (parse Sample.spread .lp64).map (fun declared => (declared.structs.map (·.name),
      declared.functions.map (·.name))) = .ok (["a", "b"], ["join"]) := by
    decide +kernel
  cases read : parse Sample.spread .lp64 with
  | error error =>
    rw [read] at names
    cases names
  | ok declared =>
    rw [read] at names
    obtain ⟨structs, functions⟩ := Prod.mk.inj (Except.ok.inj names)
    exact ⟨fits, declared, rfl, structs, functions, (parse_coherent .lp64 fits).1 declared read⟩

end Interop.Declarations
