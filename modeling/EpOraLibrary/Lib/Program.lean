import Mathlib

/-!
# Programs with a state and exceptions

A small logic for `EStateM ε σ` programs whose exceptions keep the state (a
handler sees everything the failing part wrote). Three judgments:

* `wp x Q E s` — run from `s`, the program `x` either returns a value and a
  state satisfying `Q`, or throws an error in a state satisfying `E`. The
  rules below take a program apart at its binds, branches, loops and handlers.
* `Respects R x` — whatever happens in `x`, the state after it is related by
  the preorder `R` to the state before it. This is the form of a frame
  condition ("everything else is unchanged") and of an invariant
  (`R s t := I s → I t`), and it is closed under all the program formers.
* `Throws o x s` — run from `s`, the program `x` throws exactly the error `o`, or
  returns where `o` is none. In a sequence the first error counts.
-/

namespace Prog

variable {ε σ α β : Type}

-- ---------------------------------------------------------------------------
-- Weakest preconditions
-- ---------------------------------------------------------------------------

/-- `x` run from `s` returns into `Q` or throws into `E`. -/
def wp (x : EStateM ε σ α) (Q : α → σ → Prop) (E : ε → σ → Prop) (s : σ) : Prop :=
  match x s with
  | .ok a t => Q a t
  | .error e t => E e t

section Rules

variable {Q : α → σ → Prop} {E : ε → σ → Prop} {s : σ}

@[simp] theorem wp_pure (a : α) : wp (pure a : EStateM ε σ α) Q E s = Q a s := rfl

@[simp] theorem wp_throw (e : ε) : wp (throw e : EStateM ε σ α) Q E s = E e s := rfl

@[simp] theorem wp_get {Q : σ → σ → Prop} :
    wp (get : EStateM ε σ σ) Q E s = Q s s := rfl

@[simp] theorem wp_modify {Q : PUnit → σ → Prop} (f : σ → σ) :
    wp (modify f : EStateM ε σ PUnit) Q E s = Q ⟨⟩ (f s) := rfl

@[simp] theorem wp_bind {Q : β → σ → Prop} (x : EStateM ε σ α) (f : α → EStateM ε σ β) :
    wp (x >>= f) Q E s = wp x (fun a t => wp (f a) Q E t) E s := by
  simp only [wp, bind, EStateM.bind]
  cases x s <;> rfl

@[simp] theorem wp_tryCatch (x : EStateM ε σ α) (h : ε → EStateM ε σ α) :
    wp (tryCatch x h) Q E s = wp x Q (fun e t => wp (h e) Q E t) s := by
  simp only [wp, tryCatch, tryCatchThe, MonadExceptOf.tryCatch, EStateM.tryCatch]
  cases x s <;> rfl

@[simp] theorem wp_ite (c : Prop) [Decidable c] (x y : EStateM ε σ α) :
    wp (if c then x else y) Q E s = if c then wp x Q E s else wp y Q E s := by
  split <;> rfl

/-- **Consequence.** -/
theorem wp_mono {Q' : α → σ → Prop} {E' : ε → σ → Prop} {x : EStateM ε σ α}
    (h : wp x Q E s) (hQ : ∀ a t, Q a t → Q' a t) (hE : ∀ e t, E e t → E' e t) :
    wp x Q' E' s := by
  unfold wp at *
  cases hx : x s with
  | ok a t => rw [hx] at h; exact hQ a t h
  | error e t => rw [hx] at h; exact hE e t h

/-- Two facts about one run hold together. -/
theorem wp_and {Q' : α → σ → Prop} {E' : ε → σ → Prop} {x : EStateM ε σ α}
    (h : wp x Q E s) (h' : wp x Q' E' s) :
    wp x (fun a t => Q a t ∧ Q' a t) (fun e t => E e t ∧ E' e t) s := by
  unfold wp at *
  cases hx : x s with
  | ok a t => rw [hx] at h h'; exact ⟨h, h'⟩
  | error e t => rw [hx] at h h'; exact ⟨h, h'⟩

/-- Facts about one run hold together, over any family of them. -/
theorem wp_forall {ι : Sort*} {Q : ι → α → σ → Prop} {E : ι → ε → σ → Prop} {x : EStateM ε σ α}
    (h : ∀ i, wp x (Q i) (E i) s) : wp x (fun a t => ∀ i, Q i a t) (fun e t => ∀ i, E i e t) s := by
  unfold wp at *
  cases hx : x s with
  | ok a t =>
    intro i
    have hi := h i
    rwa [hx] at hi
  | error e t =>
    intro i
    have hi := h i
    rwa [hx] at hi

theorem wp_trivial (x : EStateM ε σ α) (s : σ) : wp x (fun _ _ => True) (fun _ _ => True) s := by
  unfold wp
  cases x s <;> trivial

/-- A run is the run it is. -/
theorem wp_self (x : EStateM ε σ α) (s : σ) :
    wp x (fun a t => x s = .ok a t) (fun e t => x s = .error e t) s := by
  unfold wp
  cases x s <;> rfl

theorem wp_ok {x : EStateM ε σ α} {a : α} {t : σ} (hx : x s = .ok a t) :
    wp x Q E s = Q a t := by
  simp only [wp, hx]

theorem wp_error {x : EStateM ε σ α} {e : ε} {t : σ} (hx : x s = .error e t) :
    wp x Q E s = E e t := by
  simp only [wp, hx]

/-- What a run returned satisfies the normal postcondition. -/
theorem of_wp_ok {x : EStateM ε σ α} {a : α} {t : σ} (h : wp x Q E s)
    (hx : x s = .ok a t) : Q a t := by
  rwa [wp_ok hx] at h

/-- What a run threw satisfies the exceptional postcondition. -/
theorem of_wp_error {x : EStateM ε σ α} {e : ε} {t : σ} (h : wp x Q E s)
    (hx : x s = .error e t) : E e t := by
  rwa [wp_error hx] at h

end Rules

/-- The value a run returns, if it returns. -/
def result? (x : EStateM ε σ α) (s : σ) : Option α :=
  match x s with
  | .ok a _ => some a
  | .error _ _ => none

/-- The state a run ends in, however it ends. -/
def exec (x : EStateM ε σ α) (s : σ) : σ :=
  match x s with
  | .ok _ t => t
  | .error _ t => t

theorem wp_exec {P : σ → Prop} {x : EStateM ε σ α} {s : σ} :
    wp x (fun _ t => P t) (fun _ t => P t) s ↔ P (exec x s) := by
  unfold wp exec
  cases x s <;> rfl

theorem eq_ok_of_result {x : EStateM ε σ α} {s : σ} {a : α} (h : result? x s = some a) :
    x s = .ok a (exec x s) := by
  unfold result? at h
  unfold exec
  cases hx : x s with
  | ok b t =>
    rw [hx] at h
    rw [Option.some.inj h]
  | error e t =>
    rw [hx] at h
    cases h

theorem result_eq_of_wp {x : EStateM ε σ α} {s : σ} {a : α}
    (h : wp x (fun b _ => b = a) (fun _ _ => False) s) : result? x s = some a := by
  unfold wp at h
  unfold result?
  cases hx : x s with
  | ok b t =>
    rw [hx] at h
    exact congrArg some h
  | error e t =>
    rw [hx] at h
    exact h.elim

theorem eq_error_of_result {x : EStateM ε σ α} {s : σ} (h : result? x s = none) :
    ∃ e, x s = .error e (exec x s) := by
  unfold result? at h
  unfold exec
  cases hx : x s with
  | ok b t =>
    rw [hx] at h
    cases h
  | error e t => exact ⟨e, rfl⟩

/-- When a program throws. -/
theorem result_none_iff {P : Prop} {x : EStateM ε σ α} {s : σ}
    (h : wp x (fun _ _ => ¬ P) (fun _ _ => P) s) : result? x s = none ↔ P := by
  unfold wp at h
  unfold result?
  cases hx : x s with
  | ok b t =>
    rw [hx] at h
    exact ⟨(fun hNone => by cases hNone), fun hP => absurd hP h⟩
  | error e t =>
    rw [hx] at h
    exact ⟨fun _ => h, fun _ => rfl⟩

theorem exec_bind {x : EStateM ε σ α} {f : α → EStateM ε σ β} {s t : σ} {a : α}
    (hx : x s = .ok a t) : exec (x >>= f) s = exec (f a) t := by
  simp only [exec, bind, EStateM.bind, hx]

theorem exec_tryCatch {x : EStateM ε σ α} {h : ε → EStateM ε σ α} {s t : σ} {e : ε}
    (hx : x s = .error e t) : exec (tryCatch x h) s = exec (h e) t := by
  simp only [exec, tryCatch, tryCatchThe, MonadExceptOf.tryCatch, EStateM.tryCatch, hx]
  rfl

/-- Rethrowing keeps the state. -/
theorem exec_bind_throw (x : EStateM ε σ α) (e : ε) (s : σ) :
    exec (x >>= fun _ => (throw e : EStateM ε σ β)) s = exec x s := by
  simp only [exec, bind, EStateM.bind]
  cases x s <;> rfl

/-- A program whose errors are errors of a wider kind. -/
def liftError {ε' : Type} (f : ε → ε') (x : EStateM ε σ α) : EStateM ε' σ α := fun s =>
  match x s with
  | .ok a t => .ok a t
  | .error e t => .error (f e) t

theorem wp_liftError {ε' : Type} {Q : α → σ → Prop} {E : ε' → σ → Prop} {s : σ} (f : ε → ε')
    (x : EStateM ε σ α) :
    wp (liftError f x) Q E s = wp x Q (fun e t => E (f e) t) s := by
  unfold wp liftError
  cases x s <;> rfl

/-- **Loop rule.** `I done t` holds when the items `done` have been worked
off and `t` is the state: each item takes `I done` to `I (done ++ [x])`. -/
theorem wp_forM {E : ε → σ → Prop} {body : α → EStateM ε σ PUnit}
    (I : List α → σ → Prop) (xs : List α)
    (hBody : ∀ done x rest s, xs = done ++ x :: rest → I done s →
      wp (body x) (fun _ t => I (done ++ [x]) t) E s)
    {s : σ} (hI : I [] s) :
    wp (xs.forM body) (fun _ t => I xs t) E s := by
  suffices H : ∀ rest done s, xs = done ++ rest → I done s →
      wp (rest.forM body) (fun _ t => I xs t) E s from H xs [] s rfl hI
  intro rest
  induction rest with
  | nil =>
    intro done s hxs hI
    rw [List.append_nil] at hxs
    exact hxs ▸ hI
  | cons x rest ih =>
    intro done s hxs hI
    rw [show (x :: rest).forM body = (body x >>= fun _ => rest.forM body) from rfl, wp_bind]
    refine wp_mono (hBody done x rest s hxs hI) (fun _ t ht => ?_) (fun _ _ h => h)
    exact ih (done ++ [x]) t (by simp [hxs]) ht

-- ---------------------------------------------------------------------------
-- What a program throws
-- ---------------------------------------------------------------------------

/-- The program returns, wherever it starts. -/
def Total (x : EStateM ε σ α) : Prop := ∀ s, wp x (fun _ _ => True) (fun _ _ => False) s

theorem total_pure (a : α) : Total (pure a : EStateM ε σ α) := fun _ => trivial

theorem total_modify (f : σ → σ) : Total (modify f : EStateM ε σ PUnit) := fun _ => trivial

theorem total_bind {x : EStateM ε σ α} {f : α → EStateM ε σ β} (hx : Total x)
    (hf : ∀ a, Total (f a)) : Total (x >>= f) := fun s => by
  rw [wp_bind]
  exact wp_mono (hx s) (fun a t _ => hf a t) fun _ _ hFalse => hFalse

theorem total_get_bind {f : σ → EStateM ε σ β} (hf : ∀ s, Total (f s)) :
    Total (get >>= f : EStateM ε σ β) := fun s => by
  rw [wp_bind, wp_get]
  exact hf s s

theorem total_forM {body : α → EStateM ε σ PUnit} (hBody : ∀ a, Total (body a)) (xs : List α) :
    Total (xs.forM body) := fun _ =>
  wp_forM (fun _ _ => True) xs (fun _ a _ t _ _ => hBody a t) trivial

/-- The error a run throws, if it throws. -/
def thrown? (x : EStateM ε σ α) (s : σ) : Option ε :=
  match x s with
  | .ok _ _ => none
  | .error e _ => some e

/-- `x` run from `s` throws the error `o`, or returns where there is none. -/
def Throws (o : Option ε) (x : EStateM ε σ α) (s : σ) : Prop :=
  wp x (fun _ _ => o = none) (fun e _ => o = some e) s

section Throws

variable {o o' : Option ε} {x : EStateM ε σ α} {s : σ}

theorem Throws.thrown_eq (h : Throws o x s) : thrown? x s = o := by
  unfold Throws wp at h
  unfold thrown?
  cases hx : x s with
  | ok a t =>
    rw [hx] at h
    exact h.symm
  | error e t =>
    rw [hx] at h
    exact h.symm

theorem Total.throws (h : Total x) (s : σ) : Throws none x s :=
  wp_mono (h s) (fun _ _ _ => rfl) fun _ _ hFalse => hFalse.elim

/-- A guard throws its error, and lets the rest throw its own. -/
theorem throws_guard {c : Prop} [Decidable c] {e : ε} (hx : c → Throws o x s) :
    Throws (if c then o else some e) (if c then x else throw e) s := by
  split
  · rename_i hc
    exact hx hc
  · rfl

/-- What comes after a program that returns decides the rest. -/
theorem Throws.bind {Q : α → σ → Prop} {f : α → EStateM ε σ β} (hx : Throws o x s)
    (hQ : wp x Q (fun _ _ => True) s) (hf : ∀ a t, o = none → Q a t → Throws o' (f a) t) :
    Throws (o.or o') (x >>= f) s := by
  unfold Throws
  rw [wp_bind]
  refine wp_mono (wp_and hx hQ) (fun a t h => ?_) (fun e _ h => ?_)
  · rw [h.1, Option.none_or]
    exact hf a t h.1 h.2
  · rw [h.1, Option.some_or]

/-- A program that is followed by one that does not throw. -/
theorem Throws.bind_total {f : α → EStateM ε σ β} (hx : Throws o x s)
    (hf : ∀ a, Total (f a)) : Throws o (x >>= f) s := by
  rw [← Option.or_none (o := o)]
  exact hx.bind (wp_trivial x s) fun a t _ _ => (hf a).throws t

/-- A handler that throws again throws the error it caught. -/
theorem Throws.rethrow {clean : ε → EStateM ε σ β} (hx : Throws o x s)
    (hClean : ∀ e, Total (clean e)) :
    Throws o (tryCatch x fun e => clean e >>= fun _ => throw e) s := by
  unfold Throws
  rw [wp_tryCatch]
  refine wp_mono hx (fun _ _ hNone => hNone) (fun e t hSome => ?_)
  rw [wp_bind]
  exact wp_mono (hClean e t) (fun _ _ _ => hSome) (fun _ _ hFalse => hFalse.elim)

/-- **A loop** throws what the first of its turns throws that does. -/
theorem throws_forM {body : α → EStateM ε σ PUnit} {fails : α → Option ε}
    (I : List α → σ → Prop) (xs : List α)
    (hBody : ∀ done x rest t, xs = done ++ x :: rest → I done t →
      wp (body x) (fun _ t' => I (done ++ [x]) t') (fun _ _ => True) t ∧
        Throws (fails x) (body x) t)
    (hI : I [] s) : Throws (xs.findSome? fails) (xs.forM body) s := by
  suffices H : ∀ rest done s, xs = done ++ rest → I done s →
      Throws (rest.findSome? fails) (rest.forM body) s from H xs [] s rfl hI
  intro rest
  induction rest with
  | nil => exact fun _ _ _ _ => rfl
  | cons x rest ih =>
    intro done s hxs hI
    obtain ⟨hStep, hThrows⟩ := hBody done x rest s hxs hI
    rw [show (x :: rest).forM body = (body x >>= fun _ => rest.forM body) from rfl,
      show (x :: rest).findSome? fails = (fails x).or (rest.findSome? fails) by
        rw [List.findSome?_cons]; cases fails x <;> rfl]
    refine hThrows.bind hStep fun _ t _ hI' => ?_
    exact ih (done ++ [x]) t (by simp [hxs]) hI'

end Throws

/-- The turn of a counting loop is the number of the turns before it. -/
theorem range_split {n i : Nat} {done rest : List Nat} (h : List.range n = done ++ i :: rest) :
    i = done.length ∧ i < n := by
  have hTurn : (List.range n)[done.length]? = some i := by
    rw [h, List.getElem?_append_right (Nat.le_refl _), Nat.sub_self, List.getElem?_cons_zero]
  obtain ⟨hLt, hi⟩ := List.getElem?_eq_some_iff.mp hTurn
  rw [List.getElem_range] at hi
  rw [List.length_range] at hLt
  exact ⟨hi.symm, hi ▸ hLt⟩

/-- The turn of a loop that counts along a list is the entry at its position. -/
theorem zipIdx_split {xs : List α} {k : Nat} {done rest : List (α × Nat)} {e : α × Nat}
    (h : xs.zipIdx k = done ++ e :: rest) :
    ∃ hLt : done.length < xs.length, e = (xs[done.length], done.length + k) := by
  have hLt : done.length < xs.length := by
    have hLength := congrArg List.length h
    simp only [List.length_zipIdx, List.length_append, List.length_cons] at hLength
    omega
  refine ⟨hLt, ?_⟩
  have hTurn : (xs.zipIdx k)[done.length]? = some e := by
    rw [h, List.getElem?_append_right (Nat.le_refl _), Nat.sub_self, List.getElem?_cons_zero]
  rw [List.getElem?_zipIdx, List.getElem?_eq_getElem hLt] at hTurn
  rw [← Option.some.inj hTurn, Nat.add_comm]

-- ---------------------------------------------------------------------------
-- Frame conditions and invariants
-- ---------------------------------------------------------------------------

/-- A relation a chain of steps can be summed up by. -/
structure Frame (R : σ → σ → Prop) : Prop where
  refl  : ∀ s, R s s
  trans : ∀ {s t u}, R s t → R t u → R s u

/-- Whatever `x` does, it moves the state along `R`. -/
def Respects (R : σ → σ → Prop) (x : EStateM ε σ α) : Prop :=
  ∀ s, wp x (fun _ t => R s t) (fun _ t => R s t) s

/-- An invariant, read as a relation between the states before and after. -/
def Keep (I : σ → Prop) (s t : σ) : Prop := I s → I t

theorem frame_keep (I : σ → Prop) : Frame (Keep I) :=
  ⟨fun _ h => h, fun hst htu hs => htu (hst hs)⟩

/-- An invariant is kept where it holds before. -/
theorem respects_keep {I : σ → Prop} {x : EStateM ε σ α}
    (h : ∀ s, I s → wp x (fun _ t => I t) (fun _ t => I t) s) : Respects (Keep I) x := by
  intro s
  unfold wp Keep
  cases hx : x s with
  | ok a t => exact fun hI => of_wp_ok (h s hI) hx
  | error e t => exact fun hI => of_wp_error (h s hI) hx

theorem Frame.and {R S : σ → σ → Prop} (hR : Frame R) (hS : Frame S) :
    Frame fun s t => R s t ∧ S s t :=
  ⟨fun s => ⟨hR.refl s, hS.refl s⟩,
    fun hst htu => ⟨hR.trans hst.1 htu.1, hS.trans hst.2 htu.2⟩⟩

section Formers

variable {R : σ → σ → Prop}

theorem respects_pure (hR : Frame R) (a : α) : Respects R (pure a : EStateM ε σ α) :=
  fun s => hR.refl s

theorem respects_throw (hR : Frame R) (e : ε) : Respects R (throw e : EStateM ε σ α) :=
  fun s => hR.refl s

theorem respects_get (hR : Frame R) : Respects R (get : EStateM ε σ σ) :=
  fun s => hR.refl s

theorem respects_modify {f : σ → σ} (hf : ∀ s, R s (f s)) :
    Respects R (modify f : EStateM ε σ PUnit) :=
  fun s => hf s

theorem respects_bind (hR : Frame R) {x : EStateM ε σ α} {f : α → EStateM ε σ β}
    (hx : Respects R x) (hf : ∀ a, Respects R (f a)) : Respects R (x >>= f) := by
  intro s
  rw [wp_bind]
  refine wp_mono (hx s) (fun a t hst => ?_) (fun _ _ h => h)
  exact wp_mono (hf a t) (fun _ _ htu => hR.trans hst htu) (fun _ _ htu => hR.trans hst htu)

/-- A read followed by a program that may depend on what was read. -/
theorem respects_get_bind {f : σ → EStateM ε σ β}
    (hf : ∀ s, wp (f s) (fun _ t => R s t) (fun _ t => R s t) s) :
    Respects R (get >>= f : EStateM ε σ β) := by
  intro s
  rw [wp_bind, wp_get]
  exact hf s

theorem respects_ite {c : Prop} [Decidable c] {x y : EStateM ε σ α}
    (hx : Respects R x) (hy : Respects R y) : Respects R (if c then x else y) := by
  split
  · exact hx
  · exact hy

theorem respects_forM (hR : Frame R) {body : α → EStateM ε σ PUnit}
    (hb : ∀ a, Respects R (body a)) (xs : List α) : Respects R (xs.forM body) := by
  induction xs with
  | nil => exact respects_pure hR PUnit.unit
  | cons x xs ih => exact respects_bind hR (hb x) fun _ => ih

/-- A loop whose body may depend on where its items come from. -/
theorem respects_forM_of_mem (hR : Frame R) {body : α → EStateM ε σ PUnit} {xs : List α}
    (hb : ∀ a ∈ xs, Respects R (body a)) : Respects R (xs.forM body) := by
  induction xs with
  | nil => exact respects_pure hR PUnit.unit
  | cons x xs ih =>
    obtain ⟨hHead, hRest⟩ := List.forall_mem_cons.mp hb
    exact respects_bind hR hHead fun _ => ih hRest

/-- The same run under a weaker relation. -/
theorem respects_mono {S : σ → σ → Prop} {x : EStateM ε σ α} (hx : Respects R x)
    (hRS : ∀ s t, R s t → S s t) : Respects S x :=
  fun s => wp_mono (hx s) (fun _ t => hRS s t) (fun _ t => hRS s t)

end Formers

end Prog
