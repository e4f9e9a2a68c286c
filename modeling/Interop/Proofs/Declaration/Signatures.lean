import Interop.Proofs.Declaration.Coherence
import Interop.Proofs.Marshal.Resolution

/-! The signatures of declared functions, on the platform of their text and on the others.
Main statement: `signature_fails_for_structs`, that nothing but a struct by value can stand in the way of one. -/
namespace Interop
open Outcome

def NativeType.emptyStruct? : NativeType → Option LayoutError
  | .struct layout => if layout.fields.isEmpty then some (.emptyStruct layout.name) else none
  | .scalar _ => none

def NativeType.struct? : NativeType → Option StructLayout
  | .struct layout => some layout
  | .scalar _ => none

def StructLayout.refusal? (layout : StructLayout) (platform : Platform) : Option LayoutError :=
  if layout.fields.isEmpty then some (.emptyStruct layout.name)
  else if layout.platform = platform then none else some (.platformMismatch layout.name layout.platform platform)

namespace Signature

variable {platform : Platform}

private theorem failure?_resolveType (platform : Platform) (type : NativeType) :
    failure? (resolveType platform type) = type.struct?.bind (·.refusal? platform) := by
  cases type with
  | scalar own => rfl
  | struct layout =>
    simp only [resolveType, NativeType.resolve, NativeType.struct?, Option.bind_some, StructLayout.refusal?]
    split
    next => rfl
    next => split <;> rfl

private theorem failure?_resolveType_of_samePlatform {type : NativeType}
    (home : ∀ layout, type = .struct layout → layout.platform = platform) :
    failure? (resolveType platform type) = type.emptyStruct? := by
  rw [failure?_resolveType]
  cases type with
  | scalar own => rfl
  | struct layout => simp [NativeType.struct?, NativeType.emptyStruct?, StructLayout.refusal?, home layout rfl]

end Signature

namespace FunctionDecl

def types (function : FunctionDecl) : List NativeType := function.params ++ function.result.toList

def structs (function : FunctionDecl) : List StructLayout := function.types.filterMap NativeType.struct?

def emptyStruct? (function : FunctionDecl) : Option LayoutError :=
  function.types.findSome? NativeType.emptyStruct?

variable {function : FunctionDecl} {platform : Platform}

private theorem mem_structs {layout : StructLayout} : layout ∈ function.structs ↔ .struct layout ∈ function.types := by
  rw [structs, List.mem_filterMap]
  constructor
  · intro found
    obtain ⟨type, passed, same⟩ := found
    cases type with
    | scalar own => cases same
    | struct other =>
      cases same
      exact passed
  · intro passed
    exact ⟨_, passed, rfl⟩

theorem emptyStruct?_eq_none_iff :
    function.emptyStruct? = none ↔ ∀ layout, .struct layout ∈ function.types → layout.fields ≠ [] := by
  rw [emptyStruct?, List.findSome?_eq_none_iff]
  constructor
  · intro passable layout member
    simpa [NativeType.emptyStruct?] using passable _ member
  · intro filled type member
    cases type with
    | scalar own => rfl
    | struct layout => simpa [NativeType.emptyStruct?] using filled layout member

private theorem failure?_signature (function : FunctionDecl) (platform : Platform) :
    failure? (function.signature platform) = function.structs.findSome? (·.refusal? platform) := by
  rw [signature, Signature.failure?_resolve, ← List.head?_filterMap, ← List.head?_filterMap, structs, types,
    List.filterMap_filterMap]
  simp only [Signature.failure?_resolveType]

/-- A signature with the declared types, as they are on a platform. -/
structure Resolved (function : FunctionDecl) (platform : Platform) (signature : Signature) : Prop where
  params : List.Forall₂ (fun type abi => type.resolve platform = .ok abi) function.params signature.params
  arity : signature.arity = function.params.length
  result : function.result.mapM (·.resolve platform) = .ok signature.result
  platform : signature.platform = platform

private theorem resolved_of_signature {signature : Signature}
    (described : function.signature platform = .ok signature) :
    function.Resolved platform signature := by
  obtain ⟨each, last, same⟩ := Signature.resolve_eq_ok described
  have params := (forall₂_of_mapM each).imp fun _ _ => Signature.resolve_of_resolveType
  refine ⟨params, params.length_eq.symm, ?_, same⟩
  cases declared : function.result with
  | none => rwa [declared] at last
  | some type =>
    rw [declared] at last
    obtain ⟨abi, here, returned⟩ := bind_eq_ok.mp last
    rw [← returned]
    simp only [Option.mapM_some, Signature.resolve_of_resolveType here]
    rfl

private theorem resolved_of_passable (passable : function.structs.findSome? (·.refusal? platform) = none) :
    ∃ signature, function.signature platform = .ok signature ∧ function.Resolved platform signature := by
  rw [← failure?_signature, failure?_eq_none_iff] at passable
  obtain ⟨signature, described⟩ := passable
  exact ⟨signature, described, resolved_of_signature described⟩

end FunctionDecl

namespace Declarations

variable {text : List Char} {platform : Platform} {declared : Declarations} {function : FunctionDecl}

private theorem Gathered.platform_of_passed (gathered : declared.Gathered platform)
    (member : function ∈ declared.functions)
    {layout : StructLayout} (passed : .struct layout ∈ function.types) : layout.platform = platform := by
  have known : Declared declared.structs (.struct layout) := by
    rcases List.mem_append.mp passed with param | result
    · exact gathered.params function member _ param
    · exact gathered.results function member _ (Option.mem_toList.mp result)
  exact gathered.known.samePlatform layout known

theorem Gathered.failure?_signature (gathered : declared.Gathered platform) (member : function ∈ declared.functions) :
    failure? (function.signature declared.platform) = function.emptyStruct? := by
  rw [FunctionDecl.signature, Signature.failure?_resolve, FunctionDecl.emptyStruct?]
  refine findSome?_of_forall₂ (List.forall₂_same.mpr ?_)
  intro type passed
  apply Signature.failure?_resolveType_of_samePlatform
  intro layout same
  rw [same] at passed
  exact (gathered.platform_of_passed member passed).trans gathered.samePlatform.symm

/-- A declared function has a signature on the platform of its text unless it takes or returns a struct without fields,
and the first one of those is the reason. A struct by value has no place on any other platform, and there the reason is
the first struct of all. -/
theorem signature_fails_for_structs (read : parse text platform = .ok declared)
    (member : function ∈ declared.functions) :
    ((∀ layout ∈ function.structs, layout.fields ≠ []) →
      ∃ signature, function.signature platform = .ok signature ∧ function.Resolved platform signature) ∧
    (∀ before layout after, function.structs = before ++ layout :: after →
      (∀ earlier ∈ before, earlier.fields ≠ []) → layout.fields = [] →
      function.signature platform = .error (.emptyStruct layout.name)) ∧
    ∀ other, other ≠ platform →
      (function.structs = [] →
        ∃ signature, function.signature other = .ok signature ∧ function.Resolved other signature) ∧
      ∀ layout rest, function.structs = layout :: rest →
        (layout.fields = [] → function.signature other = .error (.emptyStruct layout.name)) ∧
        (layout.fields ≠ [] →
          function.signature other = .error (.platformMismatch layout.name platform other)) := by
  have gathered := gathered_of_parse read
  have home : ∀ layout ∈ function.structs, layout.platform = platform := by
    intro layout passed
    exact gathered.platform_of_passed member (FunctionDecl.mem_structs.mp passed)
  have accepted : ∀ layout ∈ function.structs, layout.fields ≠ [] → layout.refusal? platform = none := by
    intro layout passed filled
    simp [StructLayout.refusal?, filled, home layout passed]
  refine ⟨?_, ?_, ?_⟩
  · intro filled
    apply FunctionDecl.resolved_of_passable
    rw [List.findSome?_eq_none_iff]
    intro layout passed
    exact accepted layout passed (filled layout passed)
  · intro before layout after split filled bare
    have passed : ∀ earlier ∈ before, earlier ∈ function.structs := by
      intro earlier among
      rw [split]
      exact List.mem_append_left _ among
    have none : before.findSome? (·.refusal? platform) = none := by
      rw [List.findSome?_eq_none_iff]
      intro earlier among
      exact accepted earlier (passed earlier among) (filled earlier among)
    rw [← failure?_eq_some_iff, FunctionDecl.failure?_signature, split, List.findSome?_append, none]
    simp [StructLayout.refusal?, bare]
  · intro other different
    constructor
    · intro none
      apply FunctionDecl.resolved_of_passable
      rw [none, List.findSome?_nil]
    · intro layout rest first
      have away : layout.platform = platform := home layout (by simp [first])
      rw [← failure?_eq_some_iff, ← failure?_eq_some_iff, FunctionDecl.failure?_signature, first]
      constructor
      · intro bare
        simp [StructLayout.refusal?, bare]
      · intro filled
        simp [StructLayout.refusal?, filled, away, Ne.symm different]

/-- The second function takes a struct with a field and returns one without. -/
def Sample.byValue : List Char :=
  "struct p \x7b x: int \x7d\nstruct e \x7b \x7d\nf: (long) -> t*\ng: (struct p, long) -> struct e".toList

def Sample.structs (declared : Declarations) : List (List (String × Bool)) :=
  declared.functions.map fun function => function.structs.map fun layout => (layout.name, layout.fields.isEmpty)

theorem signature_fails_for_structs_byValue :
    ∃ declared f g, parse Sample.byValue .lp64 = .ok declared ∧ declared.functions = [f, g] ∧
      (∃ signature, f.signature .llp64 = .ok signature ∧ f.Resolved .llp64 signature) ∧
      g.signature .lp64 = .error (.emptyStruct "e") ∧
      g.signature .llp64 = .error (.platformMismatch "p" .lp64 .llp64) := by
  have summary : (parse Sample.byValue .lp64).map Sample.structs = .ok [[], [("p", false), ("e", true)]] := by
    decide +kernel
  obtain ⟨declared, read, summary⟩ := map_eq_ok.mp summary
  obtain ⟨f, _, functions, free, summary⟩ := List.map_eq_cons_iff.mp summary
  obtain ⟨g, rest, rfl, structs, none⟩ := List.map_eq_cons_iff.mp summary
  obtain rfl := List.map_eq_nil_iff.mp none
  have first : f ∈ declared.functions := by simp [functions]
  have second : g ∈ declared.functions := by simp [functions]
  obtain ⟨_, _, elsewhere⟩ := signature_fails_for_structs read first
  obtain ⟨_, here, mismatch⟩ := signature_fails_for_structs read second
  obtain ⟨p, _, split, filled, structs⟩ := List.map_eq_cons_iff.mp structs
  obtain ⟨e, _, rfl, bare, _⟩ := List.map_eq_cons_iff.mp structs
  obtain ⟨pName, pFields⟩ := Prod.mk.inj filled
  obtain ⟨eName, eFields⟩ := Prod.mk.inj bare
  have full : p.fields ≠ [] := by simpa using pFields
  refine ⟨declared, f, g, read, functions, (elsewhere .llp64 (by decide)).1 (List.map_eq_nil_iff.mp free), ?_, ?_⟩
  · rw [← eName]
    exact here [p] e _ split (List.forall_mem_singleton.mpr full) (by simpa using eFields)
  · rw [← pName]
    exact ((mismatch .llp64 (by decide)).2 p _ split).2 full

end Declarations
end Interop
