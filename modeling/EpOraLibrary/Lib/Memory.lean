import Mathlib

/-!
# Memory by offsets

A buffer is a function from offsets to cells. `store` writes a list of cells at
an offset, `Holds` says that a list stands at one. A text is a list of units
that an encoding turns into the same number of cells each, and `cstring` reads
one back up to its terminator.

## Results

* `holds_store`, `Holds.store`  — what a store writes, and what it leaves.
* `holds_flatMap`               — an encoded text, unit by unit.
* `cstring_eq`                  — a terminated text is read back whole.
* `slot_inside`, `slot_apart`   — slots of one size, one behind the other.
-/

namespace Memory

variable {α γ : Type}

/-- `xs` stands at offset `off`. -/
def Holds (mem : Nat → α) (off : Nat) (xs : List α) : Prop :=
  ∀ i x, xs[i]? = some x → mem (off + i) = x

/-- The buffer after a store of `xs` at `off`. -/
def store [Inhabited α] (mem : Nat → α) (off : Nat) (xs : List α) : Nat → α :=
  fun i => if off ≤ i ∧ i < off + xs.length then xs.getD (i - off) default else mem i

-- ---------------------------------------------------------------------------
-- Stores
-- ---------------------------------------------------------------------------

theorem holds_store [Inhabited α] (mem : Nat → α) (off : Nat) (xs : List α) :
    Holds (store mem off xs) off xs := by
  intro i x hi
  obtain ⟨hlt, -⟩ := List.getElem?_eq_some_iff.mp hi
  unfold store
  rw [if_pos (by omega), Nat.add_sub_cancel_left, List.getD_eq_getElem?_getD, hi]
  rfl

/-- A store leaves what stands apart from it. -/
theorem Holds.store [Inhabited α] {mem : Nat → α} {off : Nat} {xs : List α}
    (h : Holds mem off xs) {off' : Nat} {ys : List α}
    (hApart : off + xs.length ≤ off' ∨ off' + ys.length ≤ off) :
    Holds (Memory.store mem off' ys) off xs := by
  intro i x hi
  obtain ⟨hlt, -⟩ := List.getElem?_eq_some_iff.mp hi
  unfold Memory.store
  rw [if_neg (by omega)]
  exact h i x hi

theorem Holds.left {mem : Nat → α} {off : Nat} {xs ys : List α}
    (h : Holds mem off (xs ++ ys)) : Holds mem off xs := by
  intro i x hi
  obtain ⟨hlt, -⟩ := List.getElem?_eq_some_iff.mp hi
  exact h i x (by rw [List.getElem?_append_left hlt, hi])

theorem Holds.right {mem : Nat → α} {off : Nat} {xs ys : List α}
    (h : Holds mem off (xs ++ ys)) : Holds mem (off + xs.length) ys := by
  intro i x hi
  have hRest : (xs ++ ys)[xs.length + i]? = some x := by
    rw [List.getElem?_append_right (by omega), Nat.add_sub_cancel_left, hi]
  rw [Nat.add_assoc]
  exact h (xs.length + i) x hRest

theorem Holds.append {mem : Nat → α} {off : Nat} {xs ys : List α} (hXs : Holds mem off xs)
    (hYs : Holds mem (off + xs.length) ys) : Holds mem off (xs ++ ys) := by
  intro i x hi
  by_cases hlt : i < xs.length
  · rw [List.getElem?_append_left hlt] at hi
    exact hXs i x hi
  · rw [List.getElem?_append_right (by omega)] at hi
    rw [show off + i = off + xs.length + (i - xs.length) by omega]
    exact hYs _ x hi

/-- A list is what stands where it stands. -/
theorem Holds.range_map {mem : Nat → α} {xs : List α} (h : Holds mem 0 xs) :
    (List.range xs.length).map mem = xs := by
  refine List.ext_getElem (by simp) fun i hi hi' => ?_
  have hCell := h i xs[i] (List.getElem?_eq_getElem hi')
  rw [Nat.zero_add] at hCell
  rw [List.getElem_map, List.getElem_range, hCell]

-- ---------------------------------------------------------------------------
-- Encoded texts
-- ---------------------------------------------------------------------------

section Encoded

variable {enc : γ → List α} {width : Nat} (hWidth : ∀ c, (enc c).length = width)
include hWidth

theorem length_flatMap_enc (s : List γ) : (s.flatMap enc).length = s.length * width := by
  induction s with
  | nil => simp
  | cons c s ih =>
    rw [List.flatMap_cons, List.length_append, ih, hWidth, List.length_cons, Nat.succ_mul]
    omega

/-- Whole units are cut off where their cells are. -/
theorem take_flatMap_enc (s : List γ) (n : Nat) :
    (s.flatMap enc).take (n * width) = (s.take n).flatMap enc := by
  induction s generalizing n with
  | nil => simp
  | cons c s ih =>
    cases n with
    | zero => simp
    | succ n =>
      rw [List.flatMap_cons, List.take_succ_cons, List.flatMap_cons, List.take_append, hWidth,
        show (n + 1) * width - width = n * width by rw [Nat.succ_mul]; omega, ih,
        List.take_of_length_le (by rw [hWidth, Nat.succ_mul]; omega)]

/-- An encoded text, unit by unit. -/
theorem holds_flatMap {mem : Nat → α} {off : Nat} {s : List γ}
    (h : Holds mem off (s.flatMap enc)) {i : Nat} {c : γ} (hi : s[i]? = some c) :
    Holds mem (off + i * width) (enc c) := by
  induction s generalizing off i with
  | nil => simp at hi
  | cons d s ih =>
    rw [List.flatMap_cons] at h
    cases i with
    | zero =>
      rw [List.getElem?_cons_zero] at hi
      rw [← Option.some.inj hi, Nat.zero_mul, Nat.add_zero]
      exact h.left
    | succ i =>
      rw [List.getElem?_cons_succ] at hi
      have hRest := ih h.right hi
      rwa [hWidth, show off + width + i * width = off + (i + 1) * width by
        rw [Nat.succ_mul]; omega] at hRest

end Encoded

-- ---------------------------------------------------------------------------
-- Terminated texts
-- ---------------------------------------------------------------------------

/-- The units before the first `nul`, looked for among the first `n`. -/
def cstring [DecidableEq γ] (unit : Nat → γ) (nul : γ) (n : Nat) : List γ :=
  ((List.range n).map unit).takeWhile fun c => decide (c ≠ nul)

/-- **Read back.** A text without the terminator in it, with the terminator
behind it, is read whole. -/
theorem cstring_eq [DecidableEq γ] {unit : Nat → γ} {nul : γ} {s : List γ} {n : Nat}
    (hText : ∀ i c, s[i]? = some c → unit i = c) (hNul : unit s.length = nul)
    (hFree : nul ∉ s) (hn : s.length < n) : cstring unit nul n = s := by
  have hSplit : (List.range n).map unit = s ++ nul ::
      ((List.range (n - s.length - 1)).map fun i => unit (s.length + 1 + i)) := by
    apply List.ext_getElem?
    intro i
    rw [List.getElem?_map]
    rcases Nat.lt_trichotomy i s.length with hlt | heq | hgt
    · rw [List.getElem?_range (by omega), List.getElem?_append_left hlt,
        List.getElem?_eq_getElem hlt, Option.map_some,
        hText i s[i] (List.getElem?_eq_getElem hlt)]
    · subst heq
      rw [List.getElem?_range hn, List.getElem?_append_right (Nat.le_refl _), Nat.sub_self,
        List.getElem?_cons_zero, Option.map_some, hNul]
    · obtain ⟨k, rfl⟩ : ∃ k, i = s.length + 1 + k := ⟨i - s.length - 1, by omega⟩
      rw [List.getElem?_append_right (by omega),
        show s.length + 1 + k - s.length = k + 1 by omega, List.getElem?_cons_succ,
        List.getElem?_map]
      by_cases hk : s.length + 1 + k < n
      · rw [List.getElem?_range hk, List.getElem?_range (by omega)]
        rfl
      · rw [List.getElem?_eq_none (by rw [List.length_range]; omega),
          List.getElem?_eq_none (by rw [List.length_range]; omega)]
        rfl
  unfold cstring
  rw [hSplit, List.takeWhile_append_of_pos, List.takeWhile_cons_of_neg, List.append_nil]
  · simp
  · intro c hc
    exact decide_eq_true fun h => hFree (h ▸ hc)

-- ---------------------------------------------------------------------------
-- Slots of one size
-- ---------------------------------------------------------------------------

/-- A slot of a buffer of `count` slots lies inside it. -/
theorem slot_inside (size : Nat) {count i : Nat} (hi : i < count) :
    size * i + size ≤ size * count := by
  rw [← Nat.mul_succ]
  exact Nat.mul_le_mul_left size hi

/-- Two slots do not overlap. -/
theorem slot_apart (size : Nat) {i j : Nat} (hij : i ≠ j) :
    size * i + size ≤ size * j ∨ size * j + size ≤ size * i := by
  rcases Nat.lt_or_gt_of_ne hij with hLt | hGt
  · exact Or.inl (slot_inside size hLt)
  · exact Or.inr (slot_inside size hGt)

end Memory
