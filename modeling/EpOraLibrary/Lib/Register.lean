import EpOraLibrary.Lib.Runs

/-!
# Nullable registers

A register holds a value or nothing. A call on it keeps what it holds, clears
it or sets it (`Effect`), and a call that does not keep it is a write. `content`
is what a register that held nothing holds after a list of calls.

* `content_of_lastWrite`   — the last write decides.
* `unwritten_or_lastWrite` — nothing was written, or there is a last write.
* `content_none_iff`       — when a register holds nothing.
-/

namespace Register

variable {V ℓ : Type}

/-- What a call does to a register. -/
inductive Effect (V : Type)
  | keep
  | clear
  | set (value : V)
deriving DecidableEq

/-- The register after an effect. -/
def Effect.apply (held : Option V) : Effect V → Option V
  | .keep => held
  | .clear => none
  | .set value => some value

section Calls

variable (effect : ℓ → Effect V)

/-- The register after a call. -/
def step (held : Option V) (call : ℓ) : Option V := (effect call).apply held

/-- What the calls leave in a register that held nothing. -/
def content (calls : List ℓ) : Option V := Runs.run (step effect) none calls

/-- None of the calls writes. -/
def Unwritten (calls : List ℓ) : Prop := ∀ call ∈ calls, effect call = .keep

/-- `call` is the last of the calls that writes. -/
structure LastWrite (calls : List ℓ) (call : ℓ) : Prop where
  writes : effect call ≠ .keep
  last   : ∃ before after, calls = before ++ call :: after ∧ Unwritten effect after

end Calls

variable {effect : ℓ → Effect V} {calls : List ℓ} {call : ℓ}

/-- Calls that do not write leave the register. -/
theorem run_unwritten (h : Unwritten effect calls) (held : Option V) :
    Runs.run (step effect) held calls = held := by
  induction calls generalizing held with
  | nil => rfl
  | cons call calls ih =>
    have hCall : effect call = .keep := h call List.mem_cons_self
    have hSame : step effect held call = held := by rw [step, hCall, Effect.apply]
    rw [Runs.run_cons, hSame]
    exact ih (fun c hc => h c (List.mem_cons_of_mem _ hc)) held

/-- What a write leaves does not depend on what was there. -/
theorem apply_of_ne_keep {e : Effect V} (h : e ≠ .keep) (held : Option V) :
    e.apply held = e.apply none := by
  cases e with
  | keep => exact absurd rfl h
  | clear => rfl
  | set value => rfl

/-- **The last write decides.** -/
theorem content_of_lastWrite (h : LastWrite effect calls call) :
    content effect calls = (effect call).apply none := by
  obtain ⟨before, after, rfl, hAfter⟩ := h.last
  rw [content, Runs.run_append, Runs.run_cons, run_unwritten hAfter, step,
    apply_of_ne_keep h.writes]

theorem unwritten_or_lastWrite (effect : ℓ → Effect V) (calls : List ℓ) :
    Unwritten effect calls ∨ ∃ call, LastWrite effect calls call := by
  induction calls with
  | nil => exact .inl fun _ hc => absurd hc List.not_mem_nil
  | cons call calls ih =>
    rcases ih with hNone | ⟨last, hWrites, before, after, rfl, hAfter⟩
    · by_cases hCall : effect call = .keep
      · exact .inl (List.forall_mem_cons.mpr ⟨hCall, hNone⟩)
      · exact .inr ⟨call, hCall, [], calls, rfl, hNone⟩
    · exact .inr ⟨last, hWrites, call :: before, after, rfl, hAfter⟩

/-- A register is empty while nothing was written, and after a clear. -/
theorem content_none_iff : content effect calls = none ↔
    Unwritten effect calls ∨ ∃ call, LastWrite effect calls call ∧ effect call = .clear := by
  rcases unwritten_or_lastWrite effect calls with hNone | ⟨last, hLast⟩
  · exact ⟨fun _ => .inl hNone, fun _ => run_unwritten hNone none⟩
  · have hContent := content_of_lastWrite hLast
    constructor
    · intro hEmpty
      refine .inr ⟨last, hLast, ?_⟩
      rw [hContent] at hEmpty
      cases hEffect : effect last with
      | keep => exact absurd hEffect hLast.writes
      | clear => rfl
      | set value =>
        rw [hEffect] at hEmpty
        cases hEmpty
    · rintro (hNone | ⟨call, hCall, hClear⟩)
      · exact run_unwritten hNone none
      · rw [content_of_lastWrite hCall, hClear, Effect.apply]

end Register
