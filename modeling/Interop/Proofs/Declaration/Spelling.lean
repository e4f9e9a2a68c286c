import Interop.Proofs.Declaration.Source

/-! The characters of names and types, and that a type is read back from its own text.
Main statement: `typeOf_text`. -/
namespace Interop.Declarations
open Outcome

def isNameChar (c : Char) : Bool := c.isAlphanum || c == '_'

def isTypeChar (c : Char) : Bool := isNameChar c || c == ' ' || c == '*'

private theorem range_of_isNameChar {c : Char} (nameChar : isNameChar c = true) : 48 ≤ c.toNat ∧ c.toNat ≤ 122 := by
  rcases Bool.or_eq_true_iff.mp nameChar with alphanumeric | underscore
  · rcases Bool.or_eq_true_iff.mp alphanumeric with letter | digit
    · rcases Bool.or_eq_true_iff.mp letter with upper | lower
      · obtain ⟨low, high⟩ : 'A'.val ≤ c.val ∧ c.val ≤ 'Z'.val := of_decide_eq_true upper
        exact ⟨Nat.le_trans (by decide) (UInt32.le_iff_toNat_le.mp low),
          Nat.le_trans (UInt32.le_iff_toNat_le.mp high) (by decide)⟩
      · obtain ⟨low, high⟩ := Bool.and_eq_true_iff.mp lower
        exact ⟨Nat.le_trans (by decide) (UInt32.le_iff_toNat_le.mp (of_decide_eq_true low)),
          Nat.le_trans (UInt32.le_iff_toNat_le.mp (of_decide_eq_true high)) (by decide)⟩
    · obtain ⟨low, high⟩ := Char.isDigit_iff_toNat.mp digit
      exact ⟨low, Nat.le_trans high (by decide)⟩
  · obtain rfl := eq_of_beq underscore
    decide

private theorem isBlank_of_isNameChar {c : Char} (nameChar : isNameChar c = true) : Text.isBlank c = false := by
  obtain ⟨low, high⟩ := range_of_isNameChar nameChar
  simp only [Text.isBlank, Bool.or_eq_false_iff, Bool.and_eq_false_iff, decide_eq_false_iff_not,
    beq_eq_false_iff_ne]
  omega

theorem codeOf_of_bare {line : List Char} (bare : Text.Bare line) (absent : '#' ∉ line) : codeOf line = line := by
  rw [codeOf, Text.splitOnce?_of_absent absent]
  exact Text.trim_of_bare bare

section Identifier

variable {name : List Char} (identifier : isIdentifier name = true)
include identifier

theorem nameChar_of_mem : ∀ c ∈ name, isNameChar c = true := by
  cases name with
  | nil => simp
  | cons c rest =>
    simp only [isIdentifier, Bool.and_eq_true, List.all_eq_true] at identifier
    obtain ⟨first, others⟩ := identifier
    refine List.forall_mem_cons.mpr ⟨?_, others⟩
    refine Bool.or_eq_true_iff.mpr ((Bool.or_eq_true_iff.mp first).imp_left fun letter => ?_)
    exact Bool.or_eq_true_iff.mpr (.inl letter)

theorem blank_of_mem : ∀ c ∈ name, Text.isBlank c = false :=
  fun c member => isBlank_of_isNameChar (nameChar_of_mem identifier c member)

theorem bare_of_isIdentifier : Text.Bare name := .of_forall (blank_of_mem identifier)

theorem trim_of_isIdentifier : Text.trim name = name := Text.trim_of_bare (bare_of_isIdentifier identifier)

theorem ne_nil_of_isIdentifier : name ≠ [] := by
  intro empty
  rw [empty] at identifier
  cases identifier

end Identifier

def Named : NativeType → Prop
  | .scalar _ => True
  | .struct layout => isIdentifier layout.name.toList = true

private theorem toList_text_struct (layout : StructLayout) :
    (NativeType.struct layout).text.toList = "struct".toList ++ ' ' :: layout.name.toList := by
  rw [NativeType.text, String.toList_append]
  rfl

private theorem getLast?_text_struct {layout : StructLayout} (identifier : isIdentifier layout.name.toList = true) :
    (NativeType.struct layout).text.toList.getLast? = layout.name.toList.getLast? := by
  rw [toList_text_struct, List.getLast?_append_of_ne_nil _ (List.cons_ne_nil _ _),
    List.getLast?_cons_of_ne_nil (ne_nil_of_isIdentifier identifier)]

section Named

variable {type : NativeType} (named : Named type)
include named

theorem typeChar_of_mem : ∀ c ∈ type.text.toList, isTypeChar c = true := by
  cases type with
  | scalar own => exact List.all_eq_true.mp (by cases own <;> decide)
  | struct layout =>
    intro c member
    rw [toList_text_struct, List.mem_append, List.mem_cons] at member
    rcases member with keyword | rfl | inside
    · exact List.all_eq_true.mp (by decide) c keyword
    · rfl
    · simp only [isTypeChar, nameChar_of_mem named c inside, Bool.true_or]

theorem text_ne_nil : type.text.toList ≠ [] := by
  cases type with
  | scalar own => cases own <;> decide
  | struct layout =>
    rw [toList_text_struct]
    exact List.append_ne_nil_of_left_ne_nil (by decide) _

theorem bare_text : Text.Bare type.text.toList := by
  cases type with
  | scalar own => exact .of_ends (by cases own <;> decide)
  | struct layout =>
    constructor
    · intro c first
      rw [toList_text_struct] at first
      cases first
      decide
    · intro c last
      rw [getLast?_text_struct named] at last
      exact blank_of_mem named c (List.mem_of_getLast? last)

private theorem normalize_text : Text.normalize type.text.toList = type.text.toList := by
  cases type with
  | scalar own => cases own <;> rfl
  | struct layout =>
    rw [toList_text_struct]
    have keyword : isIdentifier "struct".toList = true := by decide
    exact Text.normalize_two (blank_of_mem keyword) (ne_nil_of_isIdentifier keyword) (blank_of_mem named)
      (ne_nil_of_isIdentifier named)

theorem text_ne_void : type.text.toList ≠ "void".toList := by
  cases type with
  | scalar own => cases own <;> decide
  | struct layout =>
    rw [toList_text_struct]
    intro same
    cases congrArg List.head? same

end Named

/-- What is needed of a type to read it back: a struct must be the one that goes by its name. -/
structure TypeReadable (declarations : Declarations) (type : NativeType) : Prop where
  named : Named type
  found : ∀ layout, type = .struct layout → declarations.struct? layout.name = some layout

namespace TypeReadable

variable {declarations : Declarations} {type : NativeType} (readable : TypeReadable declarations type)
include readable

theorem trim_text : Text.trim type.text.toList = type.text.toList :=
  Text.trim_of_bare (bare_text readable.named)

theorem typeOf_text : typeOf declarations type.text.toList = .ok (some type) := by
  obtain ⟨named, found⟩ := readable
  cases type with
  | scalar own => cases own <;> rfl
  | struct layout =>
    have last : (NativeType.struct layout).text.toList.getLast? ≠ some '*' := by
      rw [getLast?_text_struct named]
      intro star
      exact Text.not_mem_of_forall (nameChar_of_mem named) (by decide) (List.mem_of_getLast? star)
    have rest : Text.stripStart? "struct ".toList (NativeType.struct layout).text.toList =
        some layout.name.toList := by
      rw [toList_text_struct]
      exact Text.stripStart?_append "struct ".toList _
    rw [typeOf, normalize_text named]
    dsimp only
    rw [if_neg (text_ne_void named), if_neg last, rest]
    dsimp only
    rw [trim_of_isIdentifier named, String.ofList_toList, found layout rfl]

end TypeReadable
end Interop.Declarations
