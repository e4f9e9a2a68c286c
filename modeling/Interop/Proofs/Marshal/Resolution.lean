import Interop.Marshal.Signature
import Interop.Proofs.Outcome

/-! Types that are passed by value, and the signatures that they resolve to.
Main statements: `failure?_resolve`, that a signature is refused for the first of its types that is, and
`exists_of_resolve`, that otherwise each of them was resolved. -/
namespace Interop
open Outcome

namespace NativeType

variable {type : NativeType} {platform : Platform}

theorem resolve_eq_ok_iff {abi : AbiType} : type.resolve platform = .ok abi ↔
    abi = ⟨type, platform⟩ ∧ ∀ layout, type = .struct layout → layout.platform = platform := by
  cases type with
  | scalar own => simp [resolve, eq_comm]
  | struct layout =>
    simp only [resolve]
    split
    next same => simp [same, eq_comm]
    next foreign => simp [foreign]

theorem resolve_eq_error_iff {reason : LayoutError} : type.resolve platform = .error reason ↔
    ∃ layout, type = .struct layout ∧ layout.platform ≠ platform ∧
      reason = .platformMismatch layout.name layout.platform platform := by
  cases type with
  | scalar own => simp [resolve]
  | struct layout =>
    simp only [resolve]
    split
    next same => simp [same]
    next foreign => simp [foreign, eq_comm (a := reason)]

theorem platform_of_resolve {abi : AbiType} (resolved : type.resolve platform = .ok abi) :
    abi.platform = platform := by
  obtain ⟨rfl, _⟩ := resolve_eq_ok_iff.mp resolved
  rfl

end NativeType

namespace Signature

variable {platform : Platform} {params : List NativeType} {result : Option NativeType} {signature : Signature}

theorem resolve_of_resolveType {type : NativeType} {abi : AbiType} (resolved : resolveType platform type = .ok abi) :
    type.resolve platform = .ok abi := by
  cases type with
  | scalar own => exact resolved
  | struct layout =>
    simp only [resolveType] at resolved
    split at resolved
    next => cases resolved
    next => exact resolved

private theorem platform_of_resolveType {type : NativeType} {abi : AbiType}
    (resolved : resolveType platform type = .ok abi) :
    abi.platform = platform :=
  NativeType.platform_of_resolve (resolve_of_resolveType resolved)

theorem failure?_resolve (params : List NativeType) (result : Option NativeType) (platform : Platform) :
    failure? (resolve params result platform) =
      (params ++ result.toList).findSome? fun type => failure? (resolveType platform type) := by
  rw [List.findSome?_append, ← failure?_mapM, resolve]
  cases params.mapM (resolveType platform) with
  | error reason => rfl
  | ok types =>
    cases result with
    | none => rfl
    | some type =>
      simp only [ok_bind, Option.mapM_some, Option.toList_some, List.findSome?_singleton]
      cases resolveType platform type <;> rfl

theorem resolve_eq_ok (resolved : resolve params result platform = .ok signature) :
    params.mapM (resolveType platform) = .ok signature.params ∧
      result.mapM (resolveType platform) = .ok signature.result ∧ signature.platform = platform := by
  obtain ⟨types, each, resolved⟩ := bind_eq_ok.mp resolved
  obtain ⟨returned, last, resolved⟩ := bind_eq_ok.mp resolved
  cases resolved
  exact ⟨each, last, rfl⟩

theorem exists_of_resolve (resolved : resolve params result platform = .ok signature) {abi : AbiType}
    (member : abi ∈ signature.params ++ signature.result.toList) :
    ∃ type ∈ params ++ result.toList, resolveType platform type = .ok abi := by
  obtain ⟨each, last, _⟩ := resolve_eq_ok resolved
  rcases List.mem_append.mp member with param | returned
  · obtain ⟨type, among, here⟩ := exists_of_mapM each param
    exact ⟨type, List.mem_append_left _ among, here⟩
  · have declared := Option.mem_toList.mp returned
    rw [declared] at last
    cases result with
    | none => cases last
    | some type =>
      obtain ⟨_, here, same⟩ := bind_eq_ok.mp last
      cases same
      exact ⟨type, List.mem_append_right _ (Option.mem_toList.mpr rfl), here⟩

theorem samePlatform_of_resolve (resolved : resolve params result platform = .ok signature) :
    signature.platform = platform := (resolve_eq_ok resolved).2.2

theorem platform_of_resolve (resolved : resolve params result platform = .ok signature) :
    (∀ type ∈ signature.params, type.platform = platform) ∧
      ∀ type, signature.result = some type → type.platform = platform := by
  have each : ∀ type ∈ signature.params ++ signature.result.toList, type.platform = platform := by
    intro type member
    obtain ⟨_, _, here⟩ := exists_of_resolve resolved member
    exact platform_of_resolveType here
  constructor
  · intro type param
    exact each type (List.mem_append_left _ param)
  · intro type declared
    exact each type (List.mem_append_right _ (Option.mem_toList.mpr declared))

end Signature
end Interop
