import Mathlib.Data.List.Forall2

/-! Computations that may fail, taken apart at their first step or along a list, and computations that do the same on
states of two kinds. -/
namespace Interop.Outcome

variable {ε α β : Type}

theorem bind_eq_ok {first : Except ε α} {next : α → Except ε β} {result : β} :
    (first >>= next) = .ok result ↔ ∃ value, first = .ok value ∧ next value = .ok result := by
  constructor
  · intro ok
    cases first with
    | error reason => cases ok
    | ok value => exact ⟨value, rfl, ok⟩
  · rintro ⟨value, rfl, ok⟩
    exact ok

@[simp] theorem ok_bind (value : α) (next : α → Except ε β) :
    ((Except.ok value : Except ε α) >>= next) = next value := rfl

@[simp] theorem error_bind (reason : ε) (next : α → Except ε β) :
    ((Except.error reason : Except ε α) >>= next) = .error reason := rfl

theorem mapError_eq_ok {ε' : Type} {result : Except ε α} {reason : ε → ε'} {value : α} :
    result.mapError reason = .ok value ↔ result = .ok value := by
  constructor
  · intro ok
    cases result with
    | error reason => cases ok
    | ok found => exact congrArg Except.ok (Except.ok.inj ok)
  · rintro rfl
    rfl

@[simp] theorem mapError_ok {ε' : Type} (reason : ε → ε') (value : α) :
    (Except.ok value : Except ε α).mapError reason = .ok value := rfl

theorem map_eq_ok {change : α → β} {result : Except ε α} {changed : β} :
    result.map change = .ok changed ↔ ∃ value, result = .ok value ∧ change value = changed := by
  constructor
  · intro ok
    cases result with
    | error reason => cases ok
    | ok value => exact ⟨value, rfl, Except.ok.inj ok⟩
  · rintro ⟨value, rfl, rfl⟩
    rfl

theorem map_eq_error {change : α → β} {result : Except ε α} {reason : ε} :
    result.map change = .error reason ↔ result = .error reason := by
  constructor
  · intro failed
    cases result with
    | error reason => exact congrArg Except.error (Except.error.inj failed)
    | ok value => cases failed
  · rintro rfl
    rfl

@[simp] theorem toOption_ok (value : α) : (Except.ok value : Except ε α).toOption = some value := rfl

theorem toOption_bind (first : Except ε α) (next : α → Except ε β) :
    (first >>= next).toOption = first.toOption.bind fun value => (next value).toOption := by
  cases first <;> rfl

/-- What holds of the result of a computation, and what of its error if it fails. -/
def Yields (good : α → Prop) (bad : ε → Prop) : Except ε α → Prop
  | .ok value => good value
  | .error reason => bad reason

namespace Yields

variable {good : α → Prop} {bad : ε → Prop} {result : Except ε α}

theorem bind (first : Yields good bad result) {next : α → Except ε β} {better : β → Prop}
    (rest : ∀ value, good value → Yields better bad (next value)) : Yields better bad (result >>= next) := by
  cases result with
  | ok value => exact rest value first
  | error reason => exact first

theorem mono {weak : α → Prop} {worse : ε → Prop} (strong : Yields good bad result)
    (value : ∀ value, good value → weak value) (reason : ∀ reason, bad reason → worse reason) :
    Yields weak worse result := by
  cases result with
  | ok found => exact value found strong
  | error failed => exact reason failed strong

theorem of_ok (yields : Yields good bad result) {value : α} (ok : result = .ok value) : good value := by
  rwa [ok] at yields

theorem of_error (yields : Yields good bad result) {reason : ε} (failed : result = .error reason) : bad reason := by
  rwa [failed] at yields

end Yields

theorem forall₂_of_mapM {each : α → Except ε β} {values : List α} {results : List β}
    (ok : values.mapM each = .ok results) :
    List.Forall₂ (fun value result => each value = .ok result) values results := by
  induction values generalizing results with
  | nil =>
    cases ok
    exact .nil
  | cons value values ih =>
    rw [List.mapM_cons] at ok
    obtain ⟨first, here, ok⟩ := bind_eq_ok.mp ok
    obtain ⟨rest, there, ok⟩ := bind_eq_ok.mp ok
    cases ok
    exact .cons here (ih there)

theorem exists_of_forall₂ {γ : Type} {related : α → γ → Prop} {values : List α} {others : List γ}
    (each : List.Forall₂ related values others) {value : α} (member : value ∈ values) :
    ∃ other ∈ others, related value other := by
  induction each with
  | nil => cases member
  | cons here _ ih =>
    rcases List.mem_cons.mp member with rfl | inside
    · exact ⟨_, List.mem_cons_self, here⟩
    · obtain ⟨other, among, there⟩ := ih inside
      exact ⟨other, List.mem_cons_of_mem _ among, there⟩

theorem exists_of_mapM {each : α → Except ε β} {values : List α} {results : List β}
    (ok : values.mapM each = .ok results) {result : β} (member : result ∈ results) :
    ∃ value ∈ values, each value = .ok result := exists_of_forall₂ (forall₂_of_mapM ok).flip member

theorem exists_of_mapM_left {each : α → Except ε β} {values : List α} {results : List β}
    (ok : values.mapM each = .ok results) {value : α} (member : value ∈ values) :
    ∃ result ∈ results, each value = .ok result := exists_of_forall₂ (forall₂_of_mapM ok) member

theorem mapM_map {γ : Type} {first : α → Except ε β} {second : α → Except ε γ} {change : β → γ} {values : List α}
    (each : ∀ value ∈ values, second value = (first value).map change) :
    values.mapM second = (values.mapM first).map (List.map change) := by
  induction values with
  | nil => rfl
  | cons value values ih =>
    obtain ⟨here, others⟩ := List.forall_mem_cons.mp each
    rw [List.mapM_cons, List.mapM_cons, here, ih others]
    cases first value with
    | error reason => rfl
    | ok result => cases values.mapM first <;> rfl

theorem forall₂_compose {γ : Type} {first : α → β → Prop} {second : β → γ → Prop} {both : α → γ → Prop}
    (compose : ∀ value middle last, first value middle → second middle last → both value last) {values : List α}
    {middles : List β} {lasts : List γ} (start : List.Forall₂ first values middles)
    (rest : List.Forall₂ second middles lasts) : List.Forall₂ both values lasts := by
  induction start generalizing lasts with
  | nil =>
    cases rest
    exact .nil
  | cons here _ ih =>
    cases rest with
    | cons there rest => exact .cons (compose _ _ _ here there) (ih rest)

def failure? : Except ε α → Option ε
  | .ok _ => none
  | .error reason => some reason

theorem failure?_eq_none_iff {result : Except ε α} : failure? result = none ↔ ∃ value, result = .ok value := by
  cases result <;> simp [failure?]

theorem failure?_eq_some_iff {result : Except ε α} {reason : ε} :
    failure? result = some reason ↔ result = .error reason := by
  cases result <;> simp [failure?]

theorem failure?_bind_pure (first : Except ε α) (change : α → β) :
    failure? (do let value ← first; pure (change value)) = failure? first := by
  cases first <;> rfl

theorem failure?_mapM (each : α → Except ε β) (values : List α) :
    failure? (values.mapM each) = values.findSome? fun value => failure? (each value) := by
  induction values with
  | nil => rfl
  | cons value values ih =>
    rw [List.mapM_cons, List.findSome?_cons]
    cases each value with
    | error reason => rfl
    | ok first => exact (failure?_bind_pure _ _).trans ih

theorem findSome?_of_forall₂ {γ : Type} {first : α → Option γ} {second : β → Option γ} {values : List α}
    {others : List β} (same : List.Forall₂ (fun value other => first value = second other) values others) :
    values.findSome? first = others.findSome? second := by
  induction same with
  | nil => rfl
  | cons here _ ih => rw [List.findSome?_cons, List.findSome?_cons, here, ih]

theorem any_of_forall₂ {first : α → Bool} {second : β → Bool} {values : List α} {others : List β}
    (same : List.Forall₂ (fun value other => first value = second other) values others) :
    values.any first = others.any second := by
  induction same with
  | nil => rfl
  | cons here _ ih => rw [List.any_cons, List.any_cons, here, ih]

variable {σ : Type}

theorem run_bind_of_ok {first : EStateM ε σ α} {next : α → EStateM ε σ β} {state after : σ} {value : α}
    (ok : first state = .ok value after) : (first >>= next) state = next value after := by
  simp only [bind, EStateM.bind, ok]

theorem run_bind_of_error {first : EStateM ε σ α} {next : α → EStateM ε σ β} {state after : σ} {reason : ε}
    (failed : first state = .error reason after) : (first >>= next) state = .error reason after := by
  simp only [bind, EStateM.bind, failed]

def left : EStateM.Result ε σ α → σ
  | .ok _ after => after
  | .error _ after => after

def answer : EStateM.Result ε σ α → Except ε α
  | .ok value _ => .ok value
  | .error reason _ => .error reason

def relabel (name : α → σ → β) : EStateM.Result ε σ α → EStateM.Result ε σ β
  | .ok value after => .ok (name value after) after
  | .error reason after => .error reason after

theorem left_relabel (name : α → σ → β) (result : EStateM.Result ε σ α) : left (relabel name result) = left result := by
  cases result <;> rfl

theorem run_bind_pure (first : EStateM ε σ α) (name : α → β) (state : σ) :
    (do let value ← first; return name value : EStateM ε σ β) state =
      relabel (fun value _ => name value) (first state) := by
  simp only [bind, EStateM.bind]
  cases first state <;> rfl

theorem adaptExcept_of_ok {ε' : Type} (reason : ε → ε') {action : EStateM ε σ α} {state after : σ} {value : α}
    (ok : action state = .ok value after) : action.adaptExcept reason state = .ok value after := by
  simp only [EStateM.adaptExcept, ok]

theorem ok_of_adaptExcept {ε' : Type} {reason : ε → ε'} {action : EStateM ε σ α} {state after : σ} {value : α}
    (ok : action.adaptExcept reason state = .ok value after) : action state = .ok value after := by
  unfold EStateM.adaptExcept at ok
  split at ok
  next => cases ok
  next ran =>
    cases ok
    exact ran

theorem error_of_adaptExcept {ε' : Type} {reason : ε → ε'} {action : EStateM ε σ α} {state after : σ} {error : ε'}
    (failed : action.adaptExcept reason state = .error error after) : ∃ cause, error = reason cause := by
  unfold EStateM.adaptExcept at failed
  split at failed
  next cause _ _ =>
    cases failed
    exact ⟨cause, rfl⟩
  next => cases failed

variable {τ : Type}

def onState (image : σ → τ) : EStateM.Result ε σ α → EStateM.Result ε τ α
  | .ok value after => .ok value (image after)
  | .error reason after => .error reason (image after)

/-- What one computation does with the image of a state is the image of what the other does with the state. -/
def Simulates (image : σ → τ) (first : EStateM ε σ α) (second : EStateM ε τ α) : Prop :=
  ∀ state, second (image state) = onState image (first state)

namespace Simulates

variable {image : σ → τ}

theorem pure (value : α) : Simulates image (pure value : EStateM ε σ α) (pure value) := fun _ => rfl

theorem throw (reason : ε) : Simulates image (throw reason : EStateM ε σ α) (throw reason) := fun _ => rfl

theorem bind {first : EStateM ε σ α} {second : EStateM ε τ α} {next : α → EStateM ε σ β} {other : α → EStateM ε τ β}
    (start : Simulates image first second) (rest : ∀ value, Simulates image (next value) (other value)) :
    Simulates image (first >>= next) (second >>= other) := by
  intro state
  have begun := start state
  cases run : first state with
  | ok value after =>
    rw [run] at begun
    rw [run_bind_of_ok run, run_bind_of_ok begun]
    exact rest value after
  | error reason after =>
    rw [run] at begun
    rw [run_bind_of_error run, run_bind_of_error begun]
    rfl

theorem adaptExcept {ε' : Type} {first : EStateM ε σ α} {second : EStateM ε τ α} (same : Simulates image first second)
    (reason : ε → ε') : Simulates image (first.adaptExcept reason) (second.adaptExcept reason) := by
  intro state
  simp only [EStateM.adaptExcept, same state]
  cases first state <;> rfl

end Simulates

end Interop.Outcome
