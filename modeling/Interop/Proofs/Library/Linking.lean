import Interop.Library.CRoutines
import Interop.Library.Linking
import Interop.Proofs.Declaration.Signatures

/-! Linking: which lists of functions a library binds, and what stops it at the others.
Main statement: `links_all_or_none`, for lists of signatures and for the declarations of any text. -/
namespace Interop
open Outcome

def Declarations.emptyStruct? (declared : Declarations) : Option LayoutError :=
  declared.functions.findSome? FunctionDecl.emptyStruct?

/-! ## Lists of functions -/

namespace NativeLibrary

variable {World : Type} (library : NativeLibrary World)

/-- The library has the symbol; none has a zero character in its name. -/
def Resolves (name : String) : Prop := '\x00' ∉ name.toList ∧ (library.code? name).isSome

instance (name : String) : Decidable (library.Resolves name) := inferInstanceAs (Decidable (_ ∧ _))

/-- The error against binding a name on a platform, where a missing symbol comes before a foreign platform. -/
def refusal? (name : String) (platform : Platform) : Option BindError :=
  if library.Resolves name then
    if platform = .host then none else some (.layout (.foreignPlatform platform))
  else some (.symbolNotFound library.displayName name)

structure Binds (pair : String × Signature) (function : Downcall World) : Prop where
  name : function.name = pair.1
  signature : function.signature = pair.2
  code : library.code? pair.1 = some function.code

variable {library}

private theorem refusal?_eq_none_iff {name : String} {platform : Platform} :
    library.refusal? name platform = none ↔ library.Resolves name ∧ platform = .host := by
  unfold refusal?
  by_cases resolves : library.Resolves name <;> by_cases host : platform = .host <;> simp [resolves, host]

private theorem symbol_cases (library : NativeLibrary World) (name : String) :
    (library.Resolves name ∧ ∃ code, library.code? name = some code ∧ library.symbol name = .ok code) ∨
    ¬ library.Resolves name ∧ library.symbol name = .error (.symbolNotFound library.displayName name) := by
  by_cases marked : '\x00' ∈ name.toList
  · exact .inr ⟨fun resolves => resolves.1 marked, if_pos (List.contains_iff_mem.mpr marked)⟩
  · rw [symbol, if_neg (mt List.contains_iff_mem.mp marked)]
    unfold Resolves
    cases library.code? name with
    | some code => exact .inl ⟨⟨marked, rfl⟩, code, rfl, rfl⟩
    | none => exact .inr ⟨fun resolves => Bool.false_ne_true resolves.2, rfl⟩

private theorem failure?_bind (name : String) (signature : Signature) :
    failure? (library.bind name signature) = library.refusal? name signature.platform := by
  rw [bind, refusal?]
  obtain ⟨resolves, code, _, found⟩ | ⟨absent, missing⟩ := library.symbol_cases name
  · rw [found, ok_bind, Downcall.new, Signature.requireHost, Platform.isHost, if_pos resolves]
    by_cases host : signature.platform = .host
    · rw [host]
      rfl
    · rw [if_neg host, if_neg (mt beq_iff_eq.mp host)]
      rfl
  · rw [missing, if_neg absent]
    rfl

private theorem binds_of_bind {name : String} {signature : Signature} {function : Downcall World}
    (bound : library.bind name signature = .ok function) : library.Binds (name, signature) function := by
  obtain ⟨code, symbol, bound⟩ := bind_eq_ok.mp bound
  obtain ⟨_, _, same⟩ := bind_eq_ok.mp (mapError_eq_ok.mp bound)
  cases same
  obtain ⟨_, other, found, again⟩ | ⟨_, missing⟩ := library.symbol_cases name
  · cases again.symm.trans symbol
    exact ⟨rfl, rfl, found⟩
  · cases missing.symm.trans symbol

private theorem failure?_link (library : NativeLibrary World) (pairs : List (String × Signature)) :
    failure? (library.link pairs) = pairs.findSome? fun pair => library.refusal? pair.1 pair.2.platform := by
  rw [link]
  refine (failure?_bind_pure _ _).trans ?_
  rw [failure?_mapM]
  exact congrArg (pairs.findSome? ·) (funext fun pair => failure?_bind pair.1 pair.2)

private theorem binds_of_link {pairs : List (String × Signature)} {linked : LinkedLibrary World}
    (ok : library.link pairs = .ok linked) :
    linked.name = library.name ∧ List.Forall₂ library.Binds pairs linked.functions := by
  obtain ⟨functions, each, same⟩ := bind_eq_ok.mp ok
  cases same
  exact ⟨rfl, (forall₂_of_mapM each).imp fun _ _ => binds_of_bind⟩

/-! ## Declarations -/

def described (platform : Platform) (function : FunctionDecl) : Except BindError (String × Signature) :=
  match function.signature platform with
  | .ok signature => .ok (function.name, signature)
  | .error error => .error (.layout error)

private theorem linkDeclarations_eq (library : NativeLibrary World) (declared : Declarations) :
    library.linkDeclarations declared = declared.functions.mapM (described declared.platform) >>= library.link := rfl

private theorem failure?_described (platform : Platform) (function : FunctionDecl) :
    failure? (described platform function) = (failure? (function.signature platform)).map .layout := by
  rw [described]
  cases function.signature platform <;> rfl

private theorem described_eq_ok {platform : Platform} {function : FunctionDecl} {pair : String × Signature}
    (ok : described platform function = .ok pair) :
    pair.1 = function.name ∧ function.signature platform = .ok pair.2 := by
  unfold described at ok
  split at ok
  next signature resolved =>
    cases ok
    exact ⟨rfl, resolved⟩
  next => cases ok

/-- A declared function is bound by its name and signature to the code of its symbol. -/
structure Implements (library : NativeLibrary World) (platform : Platform) (function : FunctionDecl)
    (bound : Downcall World) : Prop where
  name : bound.name = function.name
  signature : function.signature platform = .ok bound.signature
  code : library.code? function.name = some bound.code

private theorem implements_of_linkDeclarations {declared : Declarations} {linked : LinkedLibrary World}
    (ok : library.linkDeclarations declared = .ok linked) :
    List.Forall₂ (library.Implements declared.platform) declared.functions linked.functions := by
  rw [linkDeclarations_eq] at ok
  obtain ⟨pairs, each, ok⟩ := bind_eq_ok.mp ok
  refine forall₂_compose ?_ (forall₂_of_mapM each) (binds_of_link ok).2
  intro function pair bound here binds
  obtain ⟨name, signature⟩ := described_eq_ok here
  exact ⟨binds.name.trans name, binds.signature ▸ signature, name ▸ binds.code⟩

private theorem names_of_implements {library : NativeLibrary World} {platform : Platform}
    {functions : List FunctionDecl}
    {bound : List (Downcall World)} (implements : List.Forall₂ (library.Implements platform) functions bound) :
    functions.map (·.name) = bound.map (·.name) := by
  have names : List.Forall₂ (· = ·) (functions.map (·.name)) (bound.map (·.name)) := by
    rw [List.forall₂_map_left_iff, List.forall₂_map_right_iff]
    exact implements.imp fun _ _ implement => implement.name.symm
  rwa [List.forall₂_eq_eq_eq] at names

section Declarations

variable {declared : Declarations} {platform : Platform} (gathered : declared.Gathered platform)
include gathered

private theorem failure?_linkDeclarations (library : NativeLibrary World) :
    failure? (library.linkDeclarations declared) = (declared.emptyStruct?.map .layout).or
      (declared.functions.findSome? fun function => library.refusal? function.name declared.platform) := by
  have descriptions : failure? (declared.functions.mapM (described declared.platform)) =
      declared.emptyStruct?.map .layout := by
    rw [failure?_mapM, Declarations.emptyStruct?, List.map_findSome?]
    refine findSome?_of_forall₂ (List.forall₂_same.mpr ?_)
    intro function member
    rw [failure?_described, gathered.failure?_signature member]
    rfl
  rw [linkDeclarations_eq, ← descriptions]
  cases each : declared.functions.mapM (described declared.platform) with
  | error reason => rfl
  | ok pairs =>
    rw [ok_bind, failure?_link]
    refine (findSome?_of_forall₂ ((forall₂_of_mapM each).imp ?_)).symm
    intro function pair here
    obtain ⟨name, signature⟩ := described_eq_ok here
    rw [name, Signature.samePlatform_of_resolve signature]

private theorem linkDeclarations_iff (library : NativeLibrary World) :
    (∃ linked, library.linkDeclarations declared = .ok linked) ↔
      (∀ function ∈ declared.functions, ∀ layout, .struct layout ∈ function.types → layout.fields ≠ []) ∧
      (∀ function ∈ declared.functions, library.Resolves function.name) ∧
      (declared.functions ≠ [] → declared.platform = .host) := by
  rw [← failure?_eq_none_iff, failure?_linkDeclarations gathered, Option.or_eq_none_iff, Option.map_eq_none_iff,
    Declarations.emptyStruct?, List.findSome?_eq_none_iff, List.findSome?_eq_none_iff]
  simp only [FunctionDecl.emptyStruct?_eq_none_iff, refusal?_eq_none_iff]
  refine and_congr_right fun _ => ⟨?_, ?_⟩
  · intro bindable
    refine ⟨fun function member => (bindable function member).1, ?_⟩
    intro filled
    obtain ⟨function, member⟩ := List.exists_mem_of_ne_nil _ filled
    exact (bindable function member).2
  · rintro ⟨resolve, host⟩ function member
    exact ⟨resolve function member, host (List.ne_nil_of_mem member)⟩

end Declarations

end NativeLibrary

namespace LinkedLibrary

variable {World : Type}

private theorem invoke_cases (library : LinkedLibrary World) (name : String) (args : List Value)
    (machine : Machine World) :
    (name ∉ library.functions.map (·.name) ∧
      library.invoke name args machine = .error (.bind (.unknownFunction name)) machine) ∨
    name ∈ library.functions.map (·.name) ∧ ∀ failure after, library.invoke name args machine = .error failure after →
      failure.isCall = true := by
  unfold invoke
  cases found : library.function? name with
  | none =>
    refine .inl ⟨?_, rfl⟩
    intro member
    obtain ⟨function, inside, same⟩ := List.mem_map.mp member
    exact List.find?_eq_none.mp found function inside (beq_iff_eq.mpr same)
  | some function =>
    unfold function? at found
    have same := List.find?_some found
    refine .inr ⟨List.mem_map.mpr ⟨function, List.mem_of_find?_eq_some found, beq_iff_eq.mp same⟩, ?_⟩
    intro failure after failed
    obtain ⟨error, rfl⟩ := error_of_adaptExcept failed
    rfl

private theorem invoke_decided (library : LinkedLibrary World) (name : String) (args : List Value)
    (machine : Machine World) :
    ((∃ error after, library.invoke name args machine = .error (.bind error) after) ↔
      name ∉ library.functions.map (·.name)) ∧
    (∀ error after, library.invoke name args machine = .error (.bind error) after →
      error = .unknownFunction name ∧ after = machine) ∧
    ∀ error after, library.invoke name args machine ≠ .error (.layout error) after := by
  obtain ⟨unknown, refused⟩ | ⟨known, calls⟩ := library.invoke_cases name args machine
  · refine ⟨iff_of_true ⟨_, _, refused⟩ unknown, ?_, ?_⟩
    · intro error after failed
      cases refused.symm.trans failed
      exact ⟨rfl, rfl⟩
    · intro error after failed
      cases refused.symm.trans failed
  · have noBind : ∀ error after, library.invoke name args machine ≠ .error (.bind error) after :=
      fun error after failed => Bool.false_ne_true (calls _ _ failed)
    refine ⟨iff_of_false ?_ (not_not.mpr known), ?_, ?_⟩
    · rintro ⟨error, after, failed⟩
      exact noBind error after failed
    · intro error after failed
      exact absurd failed (noBind error after)
    · intro error after failed
      exact Bool.false_ne_true (calls _ _ failed)

end LinkedLibrary

namespace NativeLibrary

variable {World : Type}

/-- A list of functions is bound as a whole, in its order, or refused for the first function that cannot be bound. The
declarations of a text are bound if no empty struct is passed by value, all their symbols are there and none of them
is for another platform; empty structs are found before a symbol is missed. After that, a call fails to bind only for a
name that was not declared. -/
theorem links_all_or_none (library : NativeLibrary World) :
    (∀ pairs : List (String × Signature),
      ((∃ linked, library.link pairs = .ok linked) ↔
        ∀ pair ∈ pairs, library.Resolves pair.1 ∧ pair.2.platform = .host) ∧
      (∀ linked, library.link pairs = .ok linked →
        linked.name = library.name ∧ List.Forall₂ library.Binds pairs linked.functions) ∧
      ∀ error, library.link pairs = .error error →
        (pairs.findSome? fun pair => library.refusal? pair.1 pair.2.platform) = some error) ∧
    ∀ text platform declared, Declarations.parse text platform = .ok declared →
      ((∃ linked, library.linkDeclarations declared = .ok linked) ↔
        (∀ function ∈ declared.functions, ∀ layout, .struct layout ∈ function.types → layout.fields ≠ []) ∧
        (∀ function ∈ declared.functions, library.Resolves function.name) ∧
        (declared.functions ≠ [] → declared.platform = .host)) ∧
      (∀ error, library.linkDeclarations declared = .error error →
        (declared.emptyStruct?.map .layout).or (declared.functions.findSome? fun function =>
          library.refusal? function.name declared.platform) = some error) ∧
      ∀ linked, library.linkDeclarations declared = .ok linked →
        List.Forall₂ (library.Implements declared.platform) declared.functions linked.functions ∧
        ∀ name args machine,
          ((∃ error after, linked.invoke name args machine = .error (.bind error) after) ↔
            name ∉ declared.functions.map (·.name)) ∧
          (∀ error after, linked.invoke name args machine = .error (.bind error) after →
            error = .unknownFunction name ∧ after = machine) ∧
          ∀ error after, linked.invoke name args machine ≠ .error (.layout error) after := by
  refine ⟨?_, ?_⟩
  · intro pairs
    have failures := library.failure?_link pairs
    refine ⟨?_, fun linked => binds_of_link, ?_⟩
    · rw [← failure?_eq_none_iff, failures, List.findSome?_eq_none_iff]
      exact forall₂_congr fun pair _ => refusal?_eq_none_iff
    · intro error failed
      rw [← failures]
      exact failure?_eq_some_iff.mpr failed
  · intro text platform declared read
    have gathered := Declarations.gathered_of_parse read
    refine ⟨linkDeclarations_iff gathered library, ?_, ?_⟩
    · intro error failed
      rw [← failure?_linkDeclarations gathered]
      exact failure?_eq_some_iff.mpr failed
    · intro linked ok
      have implements := implements_of_linkDeclarations ok
      refine ⟨implements, ?_⟩
      intro name args machine
      rw [names_of_implements implements]
      exact linked.invoke_decided name args machine

def Sample.absolute : List Char := "abs: (int) -> int\nlabs: (long) -> long".toList

/-- A symbol that is not in the process, and after it an empty struct by value. -/
def Sample.empty : List Char := "struct e \x7b \x7d\nmissing: (int) -> int\ntake: (struct e) -> void".toList

def Sample.process : NativeLibrary Unit := ⟨"", CRoutines.process⟩

def Sample.summary (declared : Declarations) : List String × Option LayoutError :=
  (declared.functions.map (·.name), declared.emptyStruct?)

private theorem Sample.read_of_summary {text : List Char} {platform : Platform} {names : List String}
    {empty : Option LayoutError}
    (summary : (Declarations.parse text platform).map Sample.summary = .ok (names, empty)) :
    ∃ declared, Declarations.parse text platform = .ok declared ∧ declared.functions.map (·.name) = names ∧
      declared.emptyStruct? = empty := by
  obtain ⟨declared, read, summary⟩ := map_eq_ok.mp summary
  exact ⟨declared, read, Prod.mk.inj summary⟩

/-- The process has the functions of one text, and no others can be called. It has not all of the other, whose empty
struct is what is found. -/
theorem links_all_or_none_process :
    (∃ declared linked, Declarations.parse Sample.absolute .host = .ok declared ∧
      Sample.process.linkDeclarations declared = .ok linked ∧
      ∀ machine, linked.invoke "strlen" [] machine = .error (.bind (.unknownFunction "strlen")) machine) ∧
    ∃ declared, Declarations.parse Sample.empty .host = .ok declared ∧
      Sample.process.linkDeclarations declared = .error (.layout (.emptyStruct "e")) := by
  obtain ⟨_, linking⟩ := links_all_or_none Sample.process
  constructor
  · have summary : (Declarations.parse Sample.absolute .host).map Sample.summary = .ok (["abs", "labs"], none) := by
      decide +kernel
    obtain ⟨declared, read, names, passable⟩ := Sample.read_of_summary summary
    obtain ⟨accepted, _, calls⟩ := linking _ _ _ read
    have resolve : ∀ name ∈ declared.functions.map (·.name), Sample.process.Resolves name := by
      rw [names]
      decide
    have filled := fun function member =>
      FunctionDecl.emptyStruct?_eq_none_iff.mp (List.findSome?_eq_none_iff.mp passable function member)
    have host : declared.platform = .host := (Declarations.gathered_of_parse read).samePlatform
    obtain ⟨linked, ok⟩ := accepted.mpr
      ⟨filled, fun function member => resolve _ (List.mem_map_of_mem member), fun _ => host⟩
    refine ⟨declared, linked, read, ok, ?_⟩
    intro machine
    obtain ⟨unknown, unchanged, _⟩ := (calls linked ok).2 "strlen" [] machine
    rw [names] at unknown
    obtain ⟨error, after, failed⟩ := unknown.mpr (by decide)
    obtain ⟨rfl, rfl⟩ := unchanged error after failed
    exact failed
  · have summary : (Declarations.parse Sample.empty .host).map Sample.summary =
        .ok (["missing", "take"], some (.emptyStruct "e")) := by decide +kernel
    obtain ⟨declared, read, names, empty⟩ := Sample.read_of_summary summary
    obtain ⟨accepted, refused, _⟩ := linking _ _ _ read
    refine ⟨declared, read, ?_⟩
    cases tried : Sample.process.linkDeclarations declared with
    | ok linked =>
      have resolve := (accepted.mp ⟨linked, tried⟩).2.1
      have listed : "missing" ∈ declared.functions.map (·.name) := by simp [names]
      obtain ⟨function, member, same⟩ := List.mem_map.mp listed
      exact absurd (same ▸ resolve function member) (by decide)
    | error error =>
      have reason := refused error tried
      rw [empty] at reason
      cases reason
      rfl

end NativeLibrary
end Interop
