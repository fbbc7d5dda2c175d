import Mathlib

/-!
# Runs of a labelled step system

A component is driven by a list of labels: `step s l` is the state after the
call `l`. `run` is the state at the end, `AllStates P` says that `P` holds in
every state the run goes through (the first and the last included), and
`AllSteps ok` that every step is taken from a state and with a label that meet
`ok`. The rules below turn facts about one step into facts about every run.
-/

namespace Runs

variable {σ ℓ : Type} (step : σ → ℓ → σ)

/-- The state after the steps `ls`. -/
def run (s : σ) (ls : List ℓ) : σ := ls.foldl step s

/-- `P` holds in every state of the run. -/
def AllStates (P : σ → Prop) : σ → List ℓ → Prop
  | s, [] => P s
  | s, l :: ls => P s ∧ AllStates P (step s l) ls

/-- `ok` holds of every step of the run. -/
def AllSteps (ok : σ → ℓ → Prop) : σ → List ℓ → Prop
  | _, [] => True
  | s, l :: ls => ok s l ∧ AllSteps ok (step s l) ls

variable {step}

@[simp] theorem run_nil (s : σ) : run step s [] = s := rfl

@[simp] theorem run_cons (s : σ) (l : ℓ) (ls : List ℓ) :
    run step s (l :: ls) = run step (step s l) ls := rfl

theorem run_append (s : σ) (ls ms : List ℓ) :
    run step s (ls ++ ms) = run step (run step s ls) ms :=
  List.foldl_append

@[simp] theorem run_concat (s : σ) (ls : List ℓ) (l : ℓ) :
    run step s (ls ++ [l]) = step (run step s ls) l :=
  run_append s ls [l]

/-- An invariant of the steps holds after every run. -/
theorem run_invariant {I : σ → Prop} (hStep : ∀ s l, I s → I (step s l))
    {s : σ} (hI : I s) (ls : List ℓ) : I (run step s ls) := by
  induction ls generalizing s with
  | nil => exact hI
  | cons l ls ih => exact ih (hStep s l hI)

/-- An invariant of the steps that meet `ok` holds after every run of them. -/
theorem run_invariant_of_allSteps {I : σ → Prop} {ok : σ → ℓ → Prop}
    (hStep : ∀ s l, I s → ok s l → I (step s l)) {s : σ} (hI : I s)
    {ls : List ℓ} (hOk : AllSteps step ok s ls) : I (run step s ls) := by
  induction ls generalizing s with
  | nil => exact hI
  | cons l ls ih => exact ih (hStep s l hI hOk.1) hOk.2

/-- **Simulation.** Where every call that meets `ok` keeps two systems in the
relation `R`, a run of such calls does. -/
theorem run_simulates {τ : Type} {step' : τ → ℓ → τ} {R : σ → τ → Prop} {ok : ℓ → Prop}
    (hStep : ∀ s t l, R s t → ok l → R (step s l) (step' t l)) {s : σ} {t : τ} (hR : R s t)
    {ls : List ℓ} (hOk : ∀ l ∈ ls, ok l) : R (run step s ls) (run step' t ls) := by
  induction ls generalizing s t with
  | nil => exact hR
  | cons l ls ih =>
    obtain ⟨hHead, hRest⟩ := List.forall_mem_cons.mp hOk
    exact ih (hStep s t l hR hHead) hRest

theorem allStates_of_allSteps {I : σ → Prop} {ok : σ → ℓ → Prop}
    (hStep : ∀ s l, I s → ok s l → I (step s l)) {s : σ} (hI : I s)
    {ls : List ℓ} (hOk : AllSteps step ok s ls) : AllStates step I s ls := by
  induction ls generalizing s with
  | nil => exact hI
  | cons l ls ih => exact ⟨hI, ih (hStep s l hI hOk.1) hOk.2⟩

/-- An invariant of the steps holds in every state. -/
theorem allStates_of_invariant {I : σ → Prop} (hStep : ∀ s l, I s → I (step s l))
    {s : σ} (hI : I s) (ls : List ℓ) : AllStates step I s ls := by
  induction ls generalizing s with
  | nil => exact hI
  | cons l ls ih => exact ⟨hI, ih (hStep s l hI)⟩

theorem allStates_mono {P Q : σ → Prop} (hPQ : ∀ s, P s → Q s) {s : σ} {ls : List ℓ}
    (h : AllStates step P s ls) : AllStates step Q s ls := by
  induction ls generalizing s with
  | nil => exact hPQ s h
  | cons l ls ih => exact ⟨hPQ s h.1, ih h.2⟩

/-- **Exact condition, states.** Where, under an invariant the good steps
keep, a step ends in `P` exactly when it meets `ok`, a run stays in `P`
exactly when all its steps meet `ok`. -/
theorem allStates_iff_allSteps {I P : σ → Prop} {ok : σ → ℓ → Prop}
    (hStep : ∀ s l, I s → ok s l → I (step s l))
    (hP : ∀ s, I s → P s)
    (hOk : ∀ s l, I s → P (step s l) → ok s l)
    {s : σ} (hI : I s) {ls : List ℓ} :
    AllStates step P s ls ↔ AllSteps step ok s ls := by
  induction ls generalizing s with
  | nil => exact ⟨fun _ => trivial, fun _ => hP s hI⟩
  | cons l ls ih =>
    have head_state : AllStates step P (step s l) ls → P (step s l) := by
      cases ls with
      | nil => exact id
      | cons m ms => exact fun h => h.1
    constructor
    · rintro ⟨-, hrest⟩
      have hl : ok s l := hOk s l hI (head_state hrest)
      exact ⟨hl, (ih (hStep s l hI hl)).mp hrest⟩
    · rintro ⟨hl, hrest⟩
      exact ⟨hP s hI, (ih (hStep s l hI hl)).mpr hrest⟩

/-- **Exact condition, steps.** Where, under an invariant that good steps
keep, a step is good exactly when it meets `ok`, so is a run. -/
theorem allSteps_iff_allSteps {I : σ → Prop} {good ok : σ → ℓ → Prop}
    (hStep : ∀ s l, I s → ok s l → I (step s l))
    (hIff : ∀ s l, I s → (good s l ↔ ok s l))
    {s : σ} (hI : I s) {ls : List ℓ} :
    AllSteps step good s ls ↔ AllSteps step ok s ls := by
  induction ls generalizing s with
  | nil => exact Iff.rfl
  | cons l ls ih =>
    constructor
    · rintro ⟨hg, hrest⟩
      have hl : ok s l := (hIff s l hI).mp hg
      exact ⟨hl, (ih (hStep s l hI hl)).mp hrest⟩
    · rintro ⟨hl, hrest⟩
      exact ⟨(hIff s l hI).mpr hl, (ih (hStep s l hI hl)).mpr hrest⟩

/-- Where, under an invariant, a step that meets `ok` is good, so is a run. -/
theorem allSteps_imp {I : σ → Prop} {ok good : σ → ℓ → Prop}
    (hStep : ∀ s l, I s → ok s l → I (step s l)) (hGood : ∀ s l, I s → ok s l → good s l)
    {s : σ} (hI : I s) {ls : List ℓ} (hOk : AllSteps step ok s ls) :
    AllSteps step good s ls := by
  induction ls generalizing s with
  | nil => exact trivial
  | cons l ls ih => exact ⟨hGood s l hI hOk.1, ih (hStep s l hI hOk.1) hOk.2⟩

theorem allSteps_of_invariant {I : σ → Prop} {good : σ → ℓ → Prop}
    (hStep : ∀ s l, I s → I (step s l)) (hGood : ∀ s l, I s → good s l)
    {s : σ} (hI : I s) (ls : List ℓ) : AllSteps step good s ls := by
  induction ls generalizing s with
  | nil => exact trivial
  | cons l ls ih => exact ⟨hGood s l hI, ih (hStep s l hI)⟩

/-- The last step of a run is taken from the state the others lead to. -/
theorem allSteps_concat {ok : σ → ℓ → Prop} {s : σ} {ls : List ℓ} {l : ℓ} :
    AllSteps step ok s (ls ++ [l]) ↔ AllSteps step ok s ls ∧ ok (run step s ls) l := by
  induction ls generalizing s with
  | nil => simp [AllSteps]
  | cons m ls ih => rw [List.cons_append, AllSteps, ih, AllSteps, run_cons, and_assoc]

section Decide

variable {ok : σ → ℓ → Prop} [∀ s l, Decidable (ok s l)]

instance decidableAllSteps : (s : σ) → (ls : List ℓ) → Decidable (AllSteps step ok s ls)
  | _, [] => .isTrue trivial
  | s, l :: ls => @instDecidableAnd _ _ _ (decidableAllSteps (step s l) ls)

end Decide

end Runs
