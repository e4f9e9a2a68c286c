import Interop.Settings.Basic
import Interop.Toml.Document

/-! Settings from a TOML document: a section is a table, or an array of its values in order.
Keys without a meaning are passed over, and all but the platform's have defaults. -/
namespace Interop.Settings

open Toml

mutual

/-- Numbers without a value, or out of every range, are refused even under keys without a meaning. -/
def isReadable : Item → Bool
  | .integer value => value.any fun value => decide (-2 ^ 127 ≤ value ∧ value < 2 ^ 128)
  | .float overflows => !overflows
  | .array items => areReadable items
  | .tables tables => tablesAreReadable tables
  | .table _ entries => entriesAreReadable entries
  | .string _ | .boolean _ | .dateTime => true

def areReadable : List Item → Bool
  | [] => true
  | item :: rest => isReadable item && areReadable rest

def entriesAreReadable : List (String × Item) → Bool
  | [] => true
  | (_, item) :: rest => isReadable item && entriesAreReadable rest

def tablesAreReadable : List (List (String × Item)) → Bool
  | [] => true
  | entries :: rest => entriesAreReadable entries && tablesAreReadable rest

end

/-- The values of a section's keys; a date in its place sets none of them. -/
def valuesOf (name : String) (keys : List String) : Item → Except Fault (List (Option Item))
  | .table _ entries =>
    if entriesAreReadable (entries.filter fun entry => !keys.contains entry.1) then
      .ok (keys.map (lookup? entries))
    else .error .numberOverflow
  | .array items => .ok ((List.range keys.length).map fun i => items[i]?)
  | .tables tables => .ok ((List.range keys.length).map fun i => tables[i]?.map (.table .header))
  | .dateTime => .ok (keys.map fun _ => none)
  | _ => .error (.wrongType name)

/-- A value that is not negative and fits a word. -/
def toWord (key : String) : Item → Except Fault Nat
  | .integer (some value) =>
    if 0 ≤ value ∧ value < 2 ^ 64 then .ok value.toNat else .error (.wrongType key)
  | _ => .error (.wrongType key)

def narrowingOf? : String → Option Narrowing
  | "checked" => some .checked
  | "wrap" => some .wrap
  | _ => none

/-- A name, or a table with nothing in it under that name alone. -/
def toNarrowing (key : String) (item : Item) : Except Fault Narrowing :=
  let name? := match item with
    | .string name => some name
    | .table _ [(name, .table _ [])] | .table _ [(name, .array [])] => some name
    | _ => none
  match name?.bind narrowingOf? with
  | some narrowing => .ok narrowing
  | none => .error (.wrongType key)

def orDefault {α : Type} (standard : α) (read : Item → Except Fault α) : Option Item → Except Fault α
  | some item => read item
  | none => .ok standard

def required {α : Type} (key : String) (read : Item → Except Fault α) : Option Item → Except Fault α
  | some item => read item
  | none => .error (.missingKey key)

def readNarrowing (item : Item) : Except Fault Narrowing := do
  match ← valuesOf "marshal" ["narrowing"] item with
  | [narrowing] => orDefault standard.narrowing (toNarrowing "narrowing") narrowing
  | _ => .error (.wrongType "marshal")

def readStack (item : Item) : Except Fault (Nat × Nat) := do
  match ← valuesOf "memory_stack" ["size", "alignment"] item with
  | [size, alignment] =>
    let size ← orDefault standard.stackSize (toWord "size") size
    let alignment ← orDefault standard.stackAlignment (toWord "alignment") alignment
    .ok (size, alignment)
  | _ => .error (.wrongType "memory_stack")

def readWidths (item : Item) : Except Fault WidthOverride := do
  match ← valuesOf "platform" ["pointer_width", "long_width"] item with
  | [pointer, long] =>
    let pointer ← required "pointer_width" (toWord "pointer_width") pointer
    let long ← required "long_width" (toWord "long_width") long
    .ok ⟨pointer, long⟩
  | _ => .error (.wrongType "platform")

def ofEntries (entries : Entries) : Except Fault Settings := do
  match ← valuesOf "" ["marshal", "memory_stack", "platform"] (.table .header entries) with
  | [marshal, stack, platform] =>
    let narrowing ← orDefault standard.narrowing readNarrowing marshal
    let (size, alignment) ← orDefault (standard.stackSize, standard.stackAlignment) readStack stack
    let widths ← platform.mapM readWidths
    .ok ⟨narrowing, size, alignment, widths⟩
  | _ => .error (.wrongType "")

def ofText (text : List Char) : Except SettingsError Settings := do
  let entries ← (Toml.parse text).mapError .malformed
  let settings ← (ofEntries entries).mapError .malformed
  let _ ← settings.platform
  .ok settings

def ofFile (path : String) (contents : Except String (List Char)) : Except SettingsError Settings :=
  match contents with
  | .ok text => ofText text
  | .error reason => .error (.unreadable path reason)

end Interop.Settings
