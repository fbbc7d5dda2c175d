import Mathlib

/-!
# Ledgers of resources

A program that acquires, uses and gives back resources leaves a trace of
entries, newest first. Two questions are asked of it:

* **use after release** — `Safe` says that no entry uses a resource that was
  gone by then. A resource is gone once a release of it took effect; under
  the `cascade` reading it is also gone once a release of the parent it was
  acquired from took effect.
* **conservation** — `net t k` is the number of times `k` was acquired minus
  the number of times its release was asked for. A resource that was acquired
  once and whose net is zero was released exactly once
  (`released_eq_one`); `net` is additive over the pieces of a trace, so a
  procedure is accounted for by what it adds to `net`.

A clean-up that hands each of its resources to the call that releases it
(`Cleanup`) is safe exactly when none of them was gone before (`cleanup_safe`).
-/

namespace Ledger

variable {κ : Type}

/-- One entry of a trace. `release k done` is a request to release `k`;
`done` says whether it took effect. -/
inductive Entry (κ : Type)
  | acquire (k : κ) (parent : Option κ)
  | use (k : κ)
  | release (k : κ) (done : Bool)
deriving DecidableEq

/-- A trace, newest entry first. -/
abbrev Trace (κ : Type) := List (Entry κ)

-- ---------------------------------------------------------------------------
-- Use after release
-- ---------------------------------------------------------------------------

/-- A release of `k` took effect. -/
def Released (t : Trace κ) (k : κ) : Prop := .release k true ∈ t

/-- `k` does not exist any more. -/
def Gone (cascade : Bool) (t : Trace κ) (k : κ) : Prop :=
  Released t k ∨ cascade = true ∧ ∃ p, .acquire k (some p) ∈ t ∧ Released t p

/-- Every use in the trace is of a resource that was not gone by then. -/
def Safe (cascade : Bool) : Trace κ → Prop
  | [] => True
  | .use k :: t => ¬ Gone cascade t k ∧ Safe cascade t
  | .acquire _ _ :: t => Safe cascade t
  | .release _ _ :: t => Safe cascade t

variable {c : Bool} {t : Trace κ} {k x p : κ} {q : Option κ} {d : Bool}

@[simp] theorem released_nil : ¬ Released ([] : Trace κ) k := by
  simp [Released]

@[simp] theorem released_use : Released (.use x :: t) k ↔ Released t k := by
  simp [Released]

@[simp] theorem released_acquire : Released (.acquire x q :: t) k ↔ Released t k := by
  simp [Released]

@[simp] theorem released_release :
    Released (.release x d :: t) k ↔ (k = x ∧ d = true) ∨ Released t k := by
  simp [Released, eq_comm]

@[simp] theorem gone_nil : ¬ Gone c ([] : Trace κ) k := by
  simp [Gone]

@[simp] theorem gone_use : Gone c (.use x :: t) k ↔ Gone c t k := by
  simp [Gone]

/-- A release that fails makes nothing go. -/
@[simp] theorem gone_release_failed : Gone c (.release x false :: t) k ↔ Gone c t k := by
  simp [Gone]

/-- What an effective release takes with it: the resource itself and, when
releases cascade, what was acquired from it. -/
theorem gone_release_done : Gone c (.release x true :: t) k ↔
    k = x ∨ (c = true ∧ .acquire k (some x) ∈ t) ∨ Gone c t k := by
  simp only [Gone, released_release, and_true, List.mem_cons, reduceCtorEq, false_or]
  constructor
  · rintro ((h | h) | ⟨hc, p, hp, rfl | hr⟩)
    · exact .inl h
    · exact .inr (.inr (.inl h))
    · exact .inr (.inl ⟨hc, hp⟩)
    · exact .inr (.inr (.inr ⟨hc, p, hp, hr⟩))
  · rintro (h | ⟨hc, h⟩ | h | ⟨hc, p, hp, hr⟩)
    · exact .inl (.inl h)
    · exact .inr ⟨hc, x, h, .inl rfl⟩
    · exact .inl (.inr h)
    · exact .inr ⟨hc, p, hp, .inr hr⟩

/-- Acquiring another resource makes nothing go. -/
theorem gone_acquire_of_ne (h : k ≠ x) : Gone c (.acquire x q :: t) k ↔ Gone c t k := by
  simp [Gone, h]

/-- A resource that was not there before is there once it is acquired. -/
theorem not_gone_acquire (hNew : ∀ q, .acquire x q ∉ t) (hReleased : ¬ Released t x)
    (hParent : ∀ p, q = some p → ¬ Released t p) : ¬ Gone c (.acquire x q :: t) x := by
  rintro (hr | ⟨-, p, hp, hr⟩)
  · exact hReleased (released_acquire.mp hr)
  · rcases List.mem_cons.mp hp with heq | hp
    · injection heq with _ hq
      exact hParent p hq.symm (released_acquire.mp hr)
    · exact hNew _ hp

theorem safe_release : Safe c (.release x d :: t) ↔ Safe c t := Iff.rfl

theorem safe_use : Safe c (.use x :: t) ↔ ¬ Gone c t x ∧ Safe c t := Iff.rfl

@[simp] theorem released_uses (xs : List κ) :
    Released (xs.map .use ++ t) k ↔ Released t k := by
  simp [Released]

@[simp] theorem gone_uses (xs : List κ) : Gone c (xs.map .use ++ t) k ↔ Gone c t k := by
  simp [Gone]

/-- A call that is handed the resources `xs` is safe when none of them is
gone. -/
theorem safe_uses (xs : List κ) :
    Safe c (xs.map .use ++ t) ↔ (∀ y ∈ xs, ¬ Gone c t y) ∧ Safe c t := by
  induction xs with
  | nil => simp
  | cons y xs ih =>
    rw [List.map_cons, List.cons_append, safe_use, gone_uses, ih, List.forall_mem_cons,
      and_assoc]

section Decide

variable [DecidableEq κ]

instance : Decidable (Released t k) := inferInstanceAs (Decidable (_ ∈ t))

/-- The resources `k` was acquired from. -/
def parents (t : Trace κ) (k : κ) : List κ :=
  t.filterMap fun
    | .acquire k' (some p) => if k' = k then some p else none
    | _ => none

theorem mem_parents : p ∈ parents t k ↔ .acquire k (some p) ∈ t := by
  induction t with
  | nil => simp [parents]
  | cons e t ih =>
    rw [parents, List.filterMap_cons, List.mem_cons, ← ih]
    rcases e with ⟨k', _ | p'⟩ | _ | _
    · simp [parents]
    · by_cases hk : k' = k
      · simp [parents, hk]
      · simp [parents, hk, Ne.symm hk]
    · simp [parents]
    · simp [parents]

instance : Decidable (Gone c t k) :=
  decidable_of_iff (Released t k ∨ c = true ∧ ∃ p ∈ parents t k, Released t p) <| by
    simp only [mem_parents, Gone]

instance decidableSafe : (t : Trace κ) → Decidable (Safe c t)
  | [] => .isTrue trivial
  | .use _ :: t => @instDecidableAnd _ _ _ (decidableSafe t)
  | .acquire _ _ :: t => decidableSafe t
  | .release _ _ :: t => decidableSafe t

end Decide

-- ---------------------------------------------------------------------------
-- Conservation
-- ---------------------------------------------------------------------------

section Net

variable [DecidableEq κ]

/-- How often `x` was acquired. -/
def acquired : Trace κ → κ → Nat
  | [], _ => 0
  | .acquire k _ :: t, x => acquired t x + if k = x then 1 else 0
  | .use _ :: t, x => acquired t x
  | .release _ _ :: t, x => acquired t x

/-- How often the release of `x` was asked for. -/
def released : Trace κ → κ → Nat
  | [], _ => 0
  | .acquire _ _ :: t, x => released t x
  | .use _ :: t, x => released t x
  | .release k _ :: t, x => released t x + if k = x then 1 else 0

/-- Acquisitions minus releases. -/
def net (t : Trace κ) (x : κ) : Int := acquired t x - released t x

@[simp] theorem net_use : net (.use k :: t) x = net t x := rfl

@[simp] theorem net_acquire :
    net (.acquire k q :: t) x = net t x + if k = x then 1 else 0 := by
  simp only [net, acquired, released]
  split <;> push_cast <;> omega

@[simp] theorem net_release :
    net (.release k d :: t) x = net t x - if k = x then 1 else 0 := by
  simp only [net, acquired, released]
  split <;> push_cast <;> omega

@[simp] theorem net_uses (xs : List κ) : net (xs.map .use ++ t) x = net t x := by
  induction xs with
  | nil => rfl
  | cons y xs ih => rw [List.map_cons, List.cons_append, net_use, ih]

@[simp] theorem acquired_uses (xs : List κ) :
    acquired (xs.map .use ++ t) x = acquired t x := by
  induction xs with
  | nil => rfl
  | cons y xs ih => rw [List.map_cons, List.cons_append, acquired, ih]

theorem acquired_eq_zero_iff : acquired t k = 0 ↔ ∀ q, .acquire k q ∉ t := by
  induction t with
  | nil => simp [acquired]
  | cons e t ih =>
    cases e with
    | acquire x q =>
      simp only [acquired, Nat.add_eq_zero_iff, ih, List.mem_cons, not_or, forall_and,
        Entry.acquire.injEq]
      constructor
      · rintro ⟨ht, hx⟩
        exact ⟨fun q' h => by simp [h.1] at hx, ht⟩
      · rintro ⟨hx, ht⟩
        exact ⟨ht, if_neg fun heq => hx q ⟨heq.symm, rfl⟩⟩
    | use => simp [acquired, ih]
    | release => simp [acquired, ih]

/-- **Exactly once.** A resource that was acquired once and has net zero was
released exactly once. -/
theorem released_eq_one (hAcq : acquired t x = 1) (hNet : net t x = 0) :
    released t x = 1 := by
  unfold net at hNet
  omega

/-- What was released effectively was asked to be released. -/
theorem released_pos (h : Released t k) : 0 < released t k := by
  induction t with
  | nil => exact absurd h released_nil
  | cons e t ih =>
    cases e with
    | acquire => exact ih (released_acquire.mp h)
    | use => exact ih (released_use.mp h)
    | release x d =>
      rw [released]
      rcases released_release.mp h with ⟨rfl, -⟩ | h
      · rw [if_pos rfl]
        exact Nat.succ_pos _
      · exact Nat.lt_of_lt_of_le (ih h) (Nat.le_add_right _ _)

/-- What was acquired once and is accounted for was not released. -/
theorem not_released_of_net (hAcq : acquired t k ≤ 1) (hNet : 0 < net t k) : ¬ Released t k := by
  intro h
  have hPos := released_pos h
  unfold net at hNet
  omega

end Net

-- ---------------------------------------------------------------------------
-- Cleaning up
-- ---------------------------------------------------------------------------

/-- `t'` is `t` after a clean-up: each of the resources `xs` was passed to the
call that releases it, which takes effect where `d` says so, and resources of
the kind `own` were given back without a call. -/
inductive Cleanup (d : κ → Bool) (own : κ → Prop) (t : Trace κ) : List κ → Trace κ → Prop
  | refl : Cleanup d own t [] t
  | give {xs : List κ} {t' : Trace κ} (k : κ) (done : Bool) (hOwn : own k)
      (h : Cleanup d own t xs t') : Cleanup d own t xs (.release k done :: t')
  | free {xs : List κ} {t' : Trace κ} (k : κ) (h : Cleanup d own t xs t') :
      Cleanup d own t (k :: xs) (.release k (d k) :: .use k :: t')

section Cleanup

variable {d : κ → Bool} {own : κ → Prop} {t' t'' : Trace κ} {xs ys : List κ}

theorem Cleanup.trans (h : Cleanup d own t xs t') (h' : Cleanup d own t' ys t'') :
    Cleanup d own t (ys ++ xs) t'' := by
  induction h' with
  | refl => exact h
  | give k done hOwn _ ih => exact .give k done hOwn ih
  | free k _ ih => exact .free k ih

/-- Nothing is acquired. -/
theorem Cleanup.acquired (h : Cleanup d own t xs t') : .acquire k q ∈ t' ↔ .acquire k q ∈ t := by
  induction h with
  | refl => exact Iff.rfl
  | give k done hOwn _ ih => simpa using ih
  | free k _ ih => simpa using ih

/-- A resource that is not given back unseen is released by its own call. -/
theorem Cleanup.released (h : Cleanup d own t xs t') (hk : ¬ own k) :
    Released t' k ↔ Released t k ∨ k ∈ xs ∧ d k = true := by
  induction h with
  | refl => simp
  | give x done hOwn _ ih =>
    rw [released_release, ih]
    exact or_iff_right fun heq => hk (heq.1 ▸ hOwn)
  | free x _ ih =>
    rw [released_release, released_use, ih, List.mem_cons]
    constructor
    · rintro (⟨rfl, hd⟩ | h | ⟨hm, hd⟩)
      · exact .inr ⟨.inl rfl, hd⟩
      · exact .inl h
      · exact .inr ⟨.inr hm, hd⟩
    · rintro (h | ⟨rfl | hm, hd⟩)
      · exact .inr (.inl h)
      · exact .inl ⟨rfl, hd⟩
      · exact .inr (.inr ⟨hm, hd⟩)

/-- Nor does it go with another one, if its parents are not cleaned up. -/
theorem Cleanup.gone (h : Cleanup d own t xs t') (hk : ¬ own k)
    (hParent : ∀ p, .acquire k (some p) ∈ t → ¬ own p ∧ p ∉ xs) :
    Gone c t' k ↔ Gone c t k ∨ k ∈ xs ∧ d k = true := by
  have hParents : (∃ p, .acquire k (some p) ∈ t' ∧ Released t' p) ↔
      ∃ p, .acquire k (some p) ∈ t ∧ Released t p := by
    refine exists_congr fun p => ?_
    rw [h.acquired]
    refine and_congr_right fun hp => ?_
    rw [h.released (hParent p hp).1]
    exact or_iff_left fun hm => (hParent p hp).2 hm.1
  rw [Gone, Gone, hParents, h.released hk]
  constructor
  · rintro ((h | h) | h)
    · exact .inl (.inl h)
    · exact .inr h
    · exact .inl (.inr h)
  · rintro ((h | h) | h)
    · exact .inl (.inl h)
    · exact .inr h
    · exact .inl (.inr h)

/-- **When a clean-up is safe**: each resource is passed once, and none was
gone when it began. -/
theorem cleanup_safe (h : Cleanup d own t xs t') (hNodup : xs.Nodup)
    (hxs : ∀ x ∈ xs, ¬ own x ∧ ∀ p, .acquire x (some p) ∈ t → ¬ own p ∧ p ∉ xs) :
    Safe c t' ↔ Safe c t ∧ ∀ x ∈ xs, ¬ Gone c t x := by
  induction h with
  | refl => simp
  | give k done hOwn _ ih => exact safe_release.trans (ih hNodup hxs)
  | @free xs t' k h ih =>
    obtain ⟨hNew, hNodup⟩ := List.nodup_cons.mp hNodup
    have hRest : ∀ x ∈ k :: xs, ¬ own x ∧ ∀ p, .acquire x (some p) ∈ t → ¬ own p ∧ p ∉ xs :=
      fun x hx => ⟨(hxs x hx).1, fun p hp =>
        ⟨((hxs x hx).2 p hp).1, fun hm => ((hxs x hx).2 p hp).2 (List.mem_cons_of_mem _ hm)⟩⟩
    have hGone : Gone c t' k ↔ Gone c t k := by
      have hk := hRest k (List.mem_cons_self ..)
      rw [h.gone hk.1 hk.2]
      exact or_iff_left fun hm => hNew hm.1
    rw [safe_release, safe_use, hGone, ih hNodup fun x hx => hRest x (List.mem_cons_of_mem _ hx),
      List.forall_mem_cons]
    constructor
    · rintro ⟨hk, hSafe, hAll⟩
      exact ⟨hSafe, hk, hAll⟩
    · rintro ⟨hSafe, hk, hAll⟩
      exact ⟨hk, hSafe, hAll⟩

/-- How often a release was asked for. -/
theorem Cleanup.net [DecidableEq κ] (h : Cleanup d own t xs t') (hk : ¬ own k) :
    net t' k = net t k - (xs.count k : Nat) := by
  induction h with
  | refl => simp
  | give x done hOwn _ ih =>
    rw [net_release, ih, if_neg fun (heq : x = k) => hk (heq ▸ hOwn), Int.sub_zero]
  | free x _ ih =>
    rw [net_release, net_use, ih, List.count_cons]
    by_cases hx : x = k
    · subst hx
      simp
      omega
    · simp [hx]

end Cleanup

end Ledger
