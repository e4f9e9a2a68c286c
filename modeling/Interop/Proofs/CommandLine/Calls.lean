import Interop.CommandLine.Run
import Interop.Proofs.Call.Objections
import Interop.Proofs.Marshal.Host
import Interop.Proofs.Marshal.Narrowing
import Interop.Proofs.Marshal.Resolution

/-! Calls from the command line: the arguments that it reads can all be passed to native code of the host.
Main statement: `arguments_marshal`, for every declared function and under every policy. -/
namespace Interop
open Outcome

namespace AbiType

private theorem nativeBytes_wrap_of_checked {type : AbiType} {value : Value} {bytes : List UInt8}
    (converted : type.nativeBytes .checked value = .ok bytes) : type.nativeBytes .wrap value = .ok bytes := by
  obtain ⟨native, platform⟩ := type
  cases native with
  | struct layout => cases value <;> exact converted
  | scalar own =>
    obtain ⟨bits, lowered, rfl⟩ := bytes_of_scalar converted
    rw [nativeBytes_of_kind (kind_of_lowerBits lowered), lowerBits_wrap_of_checked lowered]
    rfl

/-- In a writable view with room a value is lowered to the same bytes under every policy. -/
def LowersAlike (type : AbiType) (value : Value) : Prop :=
  ∃ bytes, bytes.length = type.width ∧ ∀ (policy : Narrowing) (view : View) (offset : Nat) (store : Store),
    view.writable = true → offset + type.width ≤ view.size →
    type.lower policy view offset value store = .ok () (store.write (view.start + offset) bytes)

private theorem lowersAlike_on_host {type : AbiType} (host : type.platform = .host) {value : Value}
    (admitted : type.Admits value) : type.LowersAlike value := by
  obtain ⟨bytes, converted, _⟩ := exact_on_host host admitted .checked
  have length := (valueOf_nativeBytes converted).1
  have always : ∀ policy, type.nativeBytes policy value = .ok bytes := by
    intro policy
    cases policy with
    | checked => exact converted
    | wrap => exact nativeBytes_wrap_of_checked converted
  refine ⟨bytes, length, ?_⟩
  intro policy view offset store writable room
  exact lower_eq_ok writable (always policy) (length ▸ room) store

private theorem admits_of_kind {type : AbiType} {value : Value} (kind : value.kind = type.kind)
    (scalar : type.kind ≠ .struct) :
    type.Admits value := by
  obtain ⟨native, platform⟩ := type
  cases native with
  | struct layout => exact absurd rfl scalar
  | scalar own => exact admits_scalar.mpr kind

end AbiType

/-- No call with the values ends in the refusal of an argument, whatever code it enters and whatever frame it is given to
place them in. -/
def Signature.Passes (signature : Signature) (values : List Value) : Prop :=
  ∀ (World : Type) (downcall : Downcall World), downcall.signature = signature →
    ∀ (frame : Frame) (machine : Machine World) (name : String) (index : Nat) (source : MarshalError),
      answer (downcall.invokeIn frame values machine) ≠ .error (.argument name index source)

private theorem Signature.passes_of_admits {signature : Signature} {values : List Value}
    (hosted : ∀ type ∈ signature.params, type.platform = .host)
    (admitted : List.Forall₂ AbiType.Admits signature.params values) : signature.Passes values := by
  rintro World downcall rfl frame machine name index source failed
  have accepted := Downcall.objection_of_admits hosted admitted
  obtain ⟨prepared, ready, prepares, _⟩ | ⟨error, after, stopped, _, objected | ⟨⟨reason, rfl⟩, _⟩⟩ :=
    downcall.invokeIn_cases frame values machine
  · rw [Downcall.invokeIn_eq_finish prepares] at failed
    obtain ⟨result, other⟩ := Downcall.error_of_finish failed
    cases other
  · cases accepted.symm.trans objected
  · rw [stopped] at failed
    cases failed

private theorem Signature.exists_struct_of_resolve {params : List NativeType} {result : Option NativeType}
    {platform : Platform} {signature : Signature} (resolved : resolve params result platform = .ok signature)
    {layout : StructLayout} (member : .struct layout ∈ params) : ∃ type ∈ signature.params, type.kind = .struct := by
  obtain ⟨type, among, here⟩ := exists_of_mapM_left (resolve_eq_ok resolved).1 member
  have direct := resolve_of_resolveType here
  simp only [NativeType.resolve] at direct
  split at direct <;> cases direct
  exact ⟨_, among, rfl⟩

namespace CommandLine

private theorem kind_of_parseValue {text : List Char} {kind : ManagedKind} {value : Value}
    (parsed : parseValue text kind = .ok value) : kind ≠ .struct ∧ value.kind = kind := by
  cases kind with
  | struct => cases parsed
  | _ =>
    obtain ⟨number, _, rfl⟩ := map_eq_ok.mp parsed
    exact ⟨nofun, rfl⟩

private theorem kinds_of_parseValues {types : List AbiType} {args : List String} {values : List Value}
    (count : args.length = types.length) (parsed : parseValues (types.zip args) = .ok values) :
    List.Forall₂ (fun type value => type.kind ≠ .struct ∧ value.kind = type.kind) types values := by
  induction types generalizing args values with
  | nil =>
    cases parsed
    exact .nil
  | cons type types ih =>
    cases args with
    | nil => cases count
    | cons arg args =>
      rw [List.zip_cons_cons, parseValues] at parsed
      obtain ⟨value, first, parsed⟩ := bind_eq_ok.mp parsed
      obtain ⟨rest, others, parsed⟩ := bind_eq_ok.mp parsed
      cases parsed
      exact .cons (kind_of_parseValue (mapError_eq_ok.mp first)) (ih (Nat.succ.inj count) others)

/-- The report is about the first argument that is not read as a value of its type. -/
inductive FirstUnread : List (AbiType × String) → Report → Prop
  | here {type : AbiType} {arg : String} {rest : List (AbiType × String)} {error : ArgumentError}
    (refused : parseValue arg.toList type.kind = .error error) :
    FirstUnread ((type, arg) :: rest) ((Report.plain error.message).within s!"argument '{arg}' as {type.text}")
  | later {type : AbiType} {arg : String} {value : Value} {rest : List (AbiType × String)} {report : Report}
    (read : parseValue arg.toList type.kind = .ok value) (others : FirstUnread rest report) :
    FirstUnread ((type, arg) :: rest) report

private theorem parseValues_cases (pairs : List (AbiType × String)) :
    (∃ values, parseValues pairs = .ok values) ∨
      ∃ report, parseValues pairs = .error report ∧ FirstUnread pairs report := by
  induction pairs with
  | nil => exact .inl ⟨[], rfl⟩
  | cons pair rest ih =>
    obtain ⟨type, arg⟩ := pair
    rw [parseValues]
    cases read : parseValue arg.toList type.kind with
    | error error => exact .inr ⟨_, rfl, .here read⟩
    | ok value =>
      obtain ⟨values, others⟩ | ⟨report, failed, unread⟩ := ih
      · exact .inl ⟨value :: values, by rw [others]; rfl⟩
      · exact .inr ⟨report, by rw [failed]; rfl, .later read unread⟩

variable {files : Files} {settings : Settings} {path symbol : String} {args : List String}

def Declares (files : Files) (path symbol : String) (function : FunctionDecl) : Prop :=
  ∃ declarations, declarationsOf files path .host = .ok declarations ∧ declarations.function? symbol = some function

private theorem prepareCall_eq {function : FunctionDecl} {signature : Signature}
    (declares : Declares files path symbol function) (described : function.signature .host = .ok signature) :
    prepareCall files settings path symbol args =
      if args.length ≠ signature.arity then
        .error (.plain s!"{symbol} takes {signature.arity} argument(s), got {args.length}")
      else (parseValues (signature.params.zip args)).map (⟨signature.withNarrowing settings.narrowing, ·⟩) := by
  obtain ⟨declarations, declared, found⟩ := declares
  simp only [prepareCall, declared, ok_bind, found, described, mapError_ok]
  rfl

private theorem described_of_prepareCall {prepared : Prepared}
    (ok : prepareCall files settings path symbol args = .ok prepared) :
    ∃ function signature, Declares files path symbol function ∧ function.signature .host = .ok signature := by
  obtain ⟨declarations, declared, ok⟩ := bind_eq_ok.mp ok
  split at ok
  next function found =>
    obtain ⟨signature, described, _⟩ := bind_eq_ok.mp ok
    exact ⟨function, signature, ⟨declarations, declared, found⟩, mapError_eq_ok.mp described⟩
  next => cases ok

private theorem prepareCall_eq_ok {prepared : Prepared}
    (ok : prepareCall files settings path symbol args = .ok prepared) :
    ∃ function signature, Declares files path symbol function ∧ function.signature .host = .ok signature ∧
      args.length = signature.arity ∧ parseValues (signature.params.zip args) = .ok prepared.values ∧
      prepared.signature = signature.withNarrowing settings.narrowing := by
  obtain ⟨function, signature, declares, described⟩ := described_of_prepareCall ok
  rw [prepareCall_eq declares described] at ok
  split at ok
  next => cases ok
  next count =>
    obtain ⟨values, parsed, rfl⟩ := map_eq_ok.mp ok
    exact ⟨function, signature, declares, described, Classical.not_not.mp count, parsed, rfl⟩

private theorem runCall_of_prepareCall_error {report : Report}
    (refused : prepareCall files settings path symbol args = .error report) {World : Type}
    (load : String → Except BindError (NativeLibrary World)) (world : World) (library : String) :
    runCall load world files settings library path symbol args = .error report := by
  simp only [runCall, refused, error_bind]

private theorem refused_of_struct {function : FunctionDecl} {layout : StructLayout}
    (declares : Declares files path symbol function) (member : .struct layout ∈ function.params) :
    ∃ report, prepareCall files settings path symbol args = .error report ∧
      ∀ signature, function.signature .host = .ok signature → args.length = signature.arity →
        FirstUnread (signature.params.zip args) report := by
  cases described : function.signature .host with
  | error error =>
    obtain ⟨declarations, declared, found⟩ := declares
    refine ⟨.ofLayout error, ?_, nofun⟩
    simp only [prepareCall, declared, ok_bind, found, described]
    rfl
  | ok signature =>
    have prepared := @prepareCall_eq files settings path symbol args _ _ declares described
    by_cases count : args.length = signature.arity
    · rw [if_neg (not_not.mpr count)] at prepared
      obtain ⟨values, parsed⟩ | ⟨report, failed, unread⟩ := parseValues_cases (signature.params.zip args)
      · obtain ⟨scalars, _⟩ := (List.forall₂_and_left _ _).mp (kinds_of_parseValues count parsed)
        obtain ⟨type, among, struct⟩ := Signature.exists_struct_of_resolve described member
        exact absurd struct (scalars type among)
      · rw [failed] at prepared
        refine ⟨report, prepared, ?_⟩
        rintro _ ⟨⟩ _
        exact unread
    · refine ⟨_, prepared.trans (if_pos count), ?_⟩
      rintro _ ⟨⟩ same
      exact absurd same count

private theorem passes_of_prepareCall {prepared : Prepared}
    (ok : prepareCall files settings path symbol args = .ok prepared) (policy : Narrowing) :
    (prepared.signature.withNarrowing policy).Passes prepared.values := by
  obtain ⟨function, signature, _, described, count, parsed, same⟩ := prepareCall_eq_ok ok
  have hosted : ∀ type ∈ (prepared.signature.withNarrowing policy).params, type.platform = .host := by
    rw [same]
    exact (Signature.platform_of_resolve described).1
  refine Signature.passes_of_admits hosted ?_
  rw [same]
  refine (kinds_of_parseValues count parsed).imp ?_
  rintro type value ⟨scalar, kind⟩
  exact AbiType.admits_of_kind kind scalar

/-- What a call of a declared function comes to before a library is opened. Arguments that are read are of the kinds of
their parameters, and can be passed under every policy. A function that takes a struct is not called from any library,
whatever libraries there are, and if there is nothing else against the call then for an argument that is not read. -/
structure Screened (files : Files) (settings : Settings) (path symbol : String) (args : List String) : Prop where
  read : ∀ function signature values, Declares files path symbol function → function.signature .host = .ok signature →
    args.length = signature.arity → parseValues (signature.params.zip args) = .ok values →
    prepareCall files settings path symbol args = .ok ⟨signature.withNarrowing settings.narrowing, values⟩
  kinds : ∀ prepared, prepareCall files settings path symbol args = .ok prepared →
    List.Forall₂ (fun type value => value.kind = type.kind) prepared.signature.params prepared.values
  passes : ∀ prepared, prepareCall files settings path symbol args = .ok prepared →
    ∀ policy, (prepared.signature.withNarrowing policy).Passes prepared.values
  structs : ∀ function layout, Declares files path symbol function → .struct layout ∈ function.params →
    ∃ report, prepareCall files settings path symbol args = .error report ∧
      (∀ {World : Type} (load : String → Except BindError (NativeLibrary World)) world library,
        runCall load world files settings library path symbol args = .error report) ∧
      ∀ signature, function.signature .host = .ok signature → args.length = signature.arity →
        FirstUnread (signature.params.zip args) report

/-- No value of a type's form is out of range on the host, so that all arguments that are read from a command line can
be passed. -/
theorem arguments_marshal :
    (∀ (native : NativeType) (type : AbiType) (value : Value), native.resolve .host = .ok type → type.Admits value →
      type.LowersAlike value) ∧
    ∀ (files : Files) (settings : Settings) (path symbol : String) (args : List String),
      Screened files settings path symbol args := by
  constructor
  · intro native type value resolved admitted
    exact AbiType.lowersAlike_on_host (NativeType.platform_of_resolve resolved) admitted
  · intro files settings path symbol args
    constructor
    · intro function signature values declares described count parsed
      rw [prepareCall_eq declares described, if_neg (not_not.mpr count), parsed]
      rfl
    · intro prepared ok
      obtain ⟨function, signature, _, _, count, parsed, same⟩ := prepareCall_eq_ok ok
      rw [same]
      exact (kinds_of_parseValues count parsed).imp fun _ _ => And.right
    · exact fun prepared ok policy => passes_of_prepareCall ok policy
    · intro function layout declares member
      obtain ⟨report, refused, unread⟩ := @refused_of_struct files settings path symbol args _ _ declares member
      exact ⟨report, refused, runCall_of_prepareCall_error refused, unread⟩

def Sample.folder : Files := fun _ =>
  .ok "struct box \x7b value: long \x7d\nlabs: (long) -> long\nopen: (int, struct box) -> double".toList

private theorem Sample.exists_struct :
    ∃ function layout, Declares folder "calls" "open" function ∧ .struct layout ∈ function.params := by
  have summary : ((declarationsOf folder "calls" .host).map fun declarations =>
      (declarations.function? "open").any fun function => function.params.any (·.kind == .struct)) = .ok true := by
    decide +kernel
  obtain ⟨declarations, declared, takes⟩ := map_eq_ok.mp summary
  obtain ⟨function, found, takes⟩ := (Option.any_eq_true _ _).mp takes
  obtain ⟨type, member, struct⟩ := List.any_eq_true.mp takes
  cases type with
  | scalar own => cases own <;> cases struct
  | struct layout => exact ⟨function, layout, ⟨declarations, declared, found⟩, member⟩

/-- The least long is read and can be passed, and a box is refused whatever library is named. -/
theorem arguments_marshal_box :
    AbiType.LowersAlike ⟨.scalar .long, .host⟩ (.i64 (-9223372036854775808)) ∧
    (∃ prepared, prepareCall Sample.folder .standard "calls" "labs" ["-9223372036854775808"] = .ok prepared ∧
      prepared.values = [.i64 (-9223372036854775808)] ∧
      (prepared.signature.withNarrowing .wrap).Passes prepared.values) ∧
    ∀ (load : String → Except BindError (NativeLibrary Unit)) library,
      runCall load () Sample.folder .standard library "calls" "open" ["1", "2"] =
        .error ⟨"argument '2' as struct box", ["structs cannot be passed on the command line"]⟩ := by
  obtain ⟨lowers, screened⟩ := arguments_marshal
  refine ⟨lowers (.scalar .long) _ _ rfl (AbiType.admits_scalar.mpr rfl), ?_, ?_⟩
  · have summary : (prepareCall Sample.folder .standard "calls" "labs" ["-9223372036854775808"]).map (·.values) =
        .ok [.i64 (-9223372036854775808)] := by decide +kernel
    obtain ⟨prepared, ok, values⟩ := map_eq_ok.mp summary
    exact ⟨prepared, ok, values, (screened _ _ _ _ _).passes prepared ok .wrap⟩
  · obtain ⟨function, layout, declares, member⟩ := Sample.exists_struct
    obtain ⟨report, refused, same, _⟩ :=
      (screened Sample.folder .standard "calls" "open" ["1", "2"]).structs function layout declares member
    have summary : (prepareCall Sample.folder .standard "calls" "open" ["1", "2"]).map (·.values) =
        .error ⟨"argument '2' as struct box", ["structs cannot be passed on the command line"]⟩ := by decide +kernel
    cases refused.symm.trans (map_eq_error.mp summary)
    exact fun load => same load ()

end CommandLine
end Interop
