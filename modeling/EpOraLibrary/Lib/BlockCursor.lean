import Mathlib

/-!
# Block-buffered cursors

A reader walks over `N` rows that a source delivers in blocks of `F`. It keeps
one block in `F` slots, knows the number of rows delivered so far, and asks
for the next block when its position reaches that number; a block that comes
back short marks the end of the data. The position is a counter that wraps at
`W`. Slots are described by the row number they hold, so the rows themselves
may be of any type.

* `start_at` / `next_at` — as long as no refill fails, the reader after `i`
  moves is *at* row `i` (`At`): the closed form of all its counters, and every
  row of the current block in its slot.
* `at_isEod` / `at_slot` — at row `i` the end is reported exactly when
  `i = N`, and slot `i % F` holds row `i`.
* `next_failed_pos` — a failed refill leaves the position moved on by one.
* `next_walked` — any number of moves that do not fail, also past the end.
* `Recent` — which rows the slots hold, whatever the reader asks for and when:
  `recent_fill` is the step, `Recent.slot_mod` what stands in the slot of a row.
-/

namespace BlockCursor

structure State where
  pos       : Nat
  /-- rows delivered, as far as the reader knows -/
  fetched   : Nat
  eod       : Bool
  /-- rows delivered by the source -/
  delivered : Nat
  /-- the number of the row a slot holds -/
  slot      : Nat → Option Nat
  /-- refills asked for -/
  fetches   : Nat

variable (F N W : Nat)

/-- The source delivers the next `min F remaining` rows. -/
def refill (s : State) : State :=
  let k := min F (N - s.delivered)
  { s with
    delivered := s.delivered + k
    slot := fun j => if j < k then some (s.delivered + j) else s.slot j
    fetched := s.delivered + k
    eod := s.eod || decide (s.delivered + k - s.fetched ≠ F)
    fetches := s.fetches + 1 }

/-- One move: `none` when a refill is needed and fails, otherwise whether
there is a row at the new position. -/
def next (s : State) (fails : Bool) : Option Bool × State :=
  let s := { s with pos := (s.pos + 1) % W }
  if s.fetched ≤ s.pos then
    if s.eod then (some false, s)
    else if fails then (none, { s with fetches := s.fetches + 1 })
    else (some (decide (s.pos < (refill F N s).fetched)), refill F N s)
  else (some true, s)

/-- The reader before its first block. -/
def blank : State := ⟨0, 0, false, 0, fun _ => none, 0⟩

/-- The reader with its first block. -/
def start : State := refill F N blank

def State.isEod (s : State) : Bool := decide (s.fetched ≤ s.pos) && s.eod

/-- The reader is at row `i` of `N` and no refill has failed so far. -/
structure At (i : Nat) (s : State) : Prop where
  pos       : s.pos = i
  fetched   : s.fetched = min N (F * (i / F + 1))
  eod       : s.eod = decide (N < F * (i / F + 1))
  delivered : s.delivered = s.fetched
  slot      : ∀ j, j < F → F * (i / F) + j < N → s.slot j = some (F * (i / F) + j)
  fetches   : s.fetches = i / F + 1

variable {F N W}

theorem start_eq : start F N =
    ⟨0, min F N, decide (min F N ≠ F), min F N,
      fun j => if j < min F N then some j else none, 1⟩ := by
  simp [start, refill, blank]

theorem start_at : At F N 0 (start F N) := by
  rw [start_eq]
  refine ⟨rfl, ?_, ?_, rfl, ?_, ?_⟩
  · rw [Nat.zero_div, Nat.mul_one, Nat.min_comm]
  · rw [Nat.zero_div, Nat.mul_one, decide_eq_decide]
    omega
  · intro j hj hN
    rw [Nat.zero_div, Nat.mul_zero, Nat.zero_add] at hN ⊢
    exact if_pos (Nat.lt_min.mpr ⟨hj, hN⟩)
  · rw [Nat.zero_div]

/-- The rows of the current block end above the position. -/
theorem lt_block_end (hF : 0 < F) (i : Nat) : i < F * (i / F + 1) := by
  have := Nat.div_add_mod i F
  have := Nat.mod_lt i hF
  rw [Nat.mul_succ]
  omega

/-- Inside a block the block number does not change. -/
theorem div_succ_of_lt {i : Nat} (h : i + 1 < F * (i / F + 1)) :
    (i + 1) / F = i / F := by
  have hLow : F * (i / F) ≤ i + 1 :=
    Nat.le_succ_of_le (Nat.mul_div_le i F)
  refine Nat.div_eq_of_lt_le ?_ ?_
  · rw [Nat.mul_comm]
    exact hLow
  · rw [Nat.mul_comm]
    exact h

/-- The move past the last row of a block is to the first row of the next. -/
theorem div_succ_of_eq (hF : 0 < F) {i : Nat} (h : i + 1 = F * (i / F + 1)) :
    (i + 1) / F = i / F + 1 := by
  rw [h, Nat.mul_div_cancel_left _ hF]

/-- **One move of the reader**, while there is a row to move from. -/
theorem next_at (hF : 0 < F) (hW : N < W) {i : Nat} {s : State} (h : At F N i s)
    (hi : i < N) :
    (next F N W s false).1 = some (decide (i + 1 < N)) ∧
      At F N (i + 1) (next F N W s false).2 := by
  have hPos : (s.pos + 1) % W = i + 1 := by
    rw [h.pos, Nat.mod_eq_of_lt (by omega)]
  have hBlock := lt_block_end hF i
  have hFetched := h.fetched
  have hEod := h.eod
  simp only [next, hPos]
  by_cases hLt : i + 1 < s.fetched
  · -- the next row is in the block that is already there
    have hDiv : (i + 1) / F = i / F := div_succ_of_lt (by omega)
    rw [if_neg (by omega)]
    refine ⟨?_, ⟨rfl, ?_, ?_, h.delivered, ?_, ?_⟩⟩
    · rw [decide_eq_true (by omega)]
    · rw [hDiv]; exact hFetched
    · rw [hDiv]; exact hEod
    · rw [hDiv]; exact h.slot
    · rw [hDiv]; exact h.fetches
  · rw [if_pos (by omega)]
    by_cases hShort : N < F * (i / F + 1)
    · -- the block was short: the data ends here
      rw [decide_eq_true hShort] at hEod
      have hDiv : (i + 1) / F = i / F := div_succ_of_lt (by omega)
      rw [if_pos hEod]
      refine ⟨?_, ⟨rfl, ?_, ?_, h.delivered, ?_, ?_⟩⟩
      · rw [decide_eq_false (by omega)]
      · rw [hDiv]; exact hFetched
      · rw [hDiv, decide_eq_true hShort]; exact hEod
      · rw [hDiv]; exact h.slot
      · rw [hDiv]; exact h.fetches
    · -- the block was full: the next one is fetched
      rw [decide_eq_false hShort] at hEod
      have hEq : i + 1 = F * (i / F + 1) := by omega
      have hDiv : (i + 1) / F = i / F + 1 := div_succ_of_eq hF hEq
      have hDel : s.delivered = F * (i / F + 1) := by
        rw [h.delivered]
        omega
      have hNext : F * (i / F + 1 + 1) = F * (i / F + 1) + F := Nat.mul_succ ..
      rw [if_neg (by rw [hEod]; exact Bool.false_ne_true), if_neg Bool.false_ne_true]
      refine ⟨?_, ⟨rfl, ?_, ?_, rfl, ?_, ?_⟩⟩
      · simp only [refill, hDel, Option.some.injEq, decide_eq_decide]
        omega
      · simp only [refill, hDel, hDiv]
        omega
      · simp only [refill, hDel, hDiv, hEod, Bool.false_or, decide_eq_decide]
        omega
      · intro j hj hN
        rw [hDiv] at hN ⊢
        simp only [refill, hDel]
        rw [if_pos (by omega)]
      · simp only [refill, hDiv, h.fetches]

/-- At row `i` the end of the data is reported exactly at the last position. -/
theorem at_isEod (hF : 0 < F) {i : Nat} {s : State} (h : At F N i s) (hi : i ≤ N) :
    s.isEod = decide (N ≤ i) := by
  have hBlock := lt_block_end hF i
  have hFetched := h.fetched
  rw [State.isEod, h.pos, h.eod, ← Bool.decide_and, decide_eq_decide]
  omega

/-- At row `i` the slot `i % F` holds row `i`. -/
theorem at_slot (hF : 0 < F) {i : Nat} {s : State} (h : At F N i s) (hi : i < N) :
    s.slot (i % F) = some i := by
  have hDiv := Nat.div_add_mod i F
  rw [h.slot (i % F) (Nat.mod_lt i hF) (by omega), hDiv]

/-- The next move asks for a block. -/
def State.Refills (W : Nat) (s : State) : Prop := s.fetched ≤ (s.pos + 1) % W ∧ s.eod = false

/-- A move that asks for no block only takes the position on. -/
theorem next_of_not_refills {s : State} (fails : Bool) (h : ¬ s.Refills W) :
    next F N W s fails = (some (decide ((s.pos + 1) % W < s.fetched)),
      { s with pos := (s.pos + 1) % W }) := by
  simp only [next]
  split
  · rename_i hLe
    have hEod : s.eod = true := (Bool.not_eq_false _).mp fun hEod => h ⟨hLe, hEod⟩
    rw [if_pos hEod, decide_eq_false (Nat.not_lt_of_le hLe)]
  · rename_i hLt
    rw [decide_eq_true (Nat.lt_of_not_le hLt)]

/-- A move that asks for one fails, or leads to the first row of it. -/
theorem next_of_refilling {s : State} (fails : Bool) (h : s.Refills W) :
    let moved := { s with pos := (s.pos + 1) % W }
    next F N W s fails = if fails then (none, { moved with fetches := s.fetches + 1 })
      else (some (decide (moved.pos < (refill F N moved).fetched)), refill F N moved) := by
  intro moved
  have hNotEod : ¬ moved.eod = true := fun hEod => Bool.false_ne_true (h.2.symm.trans hEod)
  simp only [next]
  rw [if_pos h.1, if_neg hNotEod]

/-- A move throws exactly when a refill is needed and fails. -/
theorem next_eq_none_iff {s : State} {fails : Bool} :
    (next F N W s fails).1 = none ↔ s.Refills W ∧ fails = true := by
  by_cases hRefills : s.Refills W
  · rw [next_of_refilling fails hRefills]
    cases fails with
    | false => simp
    | true => simp [hRefills]
  · rw [next_of_not_refills fails hRefills]
    simp [hRefills]

/-- Where no block is asked for, or none fails, a move is as without failures. -/
theorem next_of_refills {s : State} {fails : Bool} (h : s.Refills W → fails = false) :
    next F N W s fails = next F N W s false := by
  by_cases hRefills : s.Refills W
  · rw [h hRefills]
  · rw [next_of_not_refills fails hRefills, next_of_not_refills false hRefills]

/-- Once the end of the data is known, no block is asked for any more. -/
theorem next_of_eod {s : State} (fails : Bool) (h : s.eod = true) :
    next F N W s fails = (some (decide ((s.pos + 1) % W < s.fetched)),
      { s with pos := (s.pos + 1) % W }) :=
  next_of_not_refills fails fun hRefills => Bool.false_ne_true (hRefills.2.symm.trans h)

/-- Every move takes the position on by one, a move that throws included. -/
theorem next_pos (s : State) (fails : Bool) :
    (next F N W s fails).2.pos = (s.pos + 1) % W := by
  by_cases hRefills : s.Refills W
  · rw [next_of_refilling fails hRefills]
    cases fails with
    | false => rfl
    | true => rfl
  · rw [next_of_not_refills fails hRefills]

/-- **A failed refill moves the reader on**: the position after it is never
the position before it. -/
theorem next_failed_pos (hW : 1 < W) {s : State} (fails : Bool) (hs : s.pos < W) :
    (next F N W s fails).2.pos ≠ s.pos := by
  rw [next_pos]
  rcases Nat.lt_or_ge (s.pos + 1) W with hLt | hGe
  · rw [Nat.mod_eq_of_lt hLt]
    omega
  · have hEq : s.pos + 1 = W := by omega
    rw [hEq, Nat.mod_self]
    omega

/-- A move that returns is as without failures. -/
theorem next_of_some {s : State} {fails b : Bool} (h : (next F N W s fails).1 = some b) :
    next F N W s fails = next F N W s false := by
  refine next_of_refills fun hRefills => Bool.eq_false_iff.mpr fun hFails => ?_
  rw [next_eq_none_iff.mpr ⟨hRefills, hFails⟩] at h
  cases h

-- ---------------------------------------------------------------------------
-- Past the end
-- ---------------------------------------------------------------------------

/-- A counter that wraps at `W` stays at or above `n` for `k` steps exactly
when `n` is 0 or the counter does not come to `W`. -/
theorem above_iff {n c k : Nat} (hn : n ≤ c) (hc : c < W) :
    (∀ j < k, n ≤ (c + (j + 1)) % W) ↔ n = 0 ∨ c + k < W := by
  constructor
  · intro hAbove
    by_contra hNot
    obtain ⟨hPos, hWraps⟩ := not_or.mp hNot
    -- the step that comes to `W` goes to 0
    have hZero := hAbove (W - c - 1) (by omega)
    rw [show c + (W - c - 1 + 1) = W by omega, Nat.mod_self] at hZero
    omega
  · rintro (rfl | hBelow) j hj
    · exact Nat.zero_le _
    · rw [Nat.mod_eq_of_lt (by omega)]
      omega

/-- The reader after `n` moves, none of which has failed: at row `n`, or past
the last row. -/
structure Walked (F N W n : Nat) (s : State) : Prop where
  pos  : s.pos = n % W
  row  : n ≤ N → At F N n s
  past : N ≤ n → s.eod = true ∧ s.fetched = N

/-- At row `N` the end of the data is known. -/
theorem At.at_end (hF : 0 < F) {s : State} (h : At F N N s) : s.eod = true ∧ s.fetched = N := by
  have hBlock := lt_block_end hF N
  refine ⟨?_, ?_⟩
  · rw [h.eod, decide_eq_true hBlock]
  · rw [h.fetched, Nat.min_eq_left (Nat.le_of_lt hBlock)]

theorem start_walked (hF : 0 < F) : Walked F N W 0 (start F N) where
  pos := by rw [start_eq, Nat.zero_mod]
  row _ := start_at
  past hN := by
    obtain rfl : N = 0 := Nat.le_zero.mp hN
    exact start_at.at_end hF

/-- **One more move**, before the end or after it. -/
theorem next_walked (hF : 0 < F) (hW : N < W) {n : Nat} {s : State} (h : Walked F N W n s) :
    (∃ b, (next F N W s false).1 = some b) ∧ Walked F N W (n + 1) (next F N W s false).2 := by
  have hPos : (next F N W s false).2.pos = (n + 1) % W := by
    rw [next_pos, h.pos, Nat.mod_add_mod]
  rcases Nat.lt_or_ge n N with hLt | hGe
  · obtain ⟨hb, hAt⟩ := next_at hF hW (h.row (Nat.le_of_lt hLt)) hLt
    refine ⟨⟨_, hb⟩, hPos, fun _ => hAt, fun hEnd => ?_⟩
    obtain rfl : N = n + 1 := Nat.le_antisymm hEnd hLt
    exact hAt.at_end hF
  · obtain ⟨hEod, hFetched⟩ := h.past hGe
    rw [next_of_eod false hEod] at hPos ⊢
    exact ⟨⟨_, rfl⟩, hPos, fun hLe => absurd (Nat.lt_of_lt_of_le (Nat.lt_succ_self n) hLe)
      (Nat.not_lt_of_le hGe), fun _ => ⟨hEod, hFetched⟩⟩

/-- As long as the position does not wrap, the end is reported from the last row
on. -/
theorem Walked.isEod (hF : 0 < F) {n : Nat} {s : State} (h : Walked F N W n s) (hn : n < W) :
    s.isEod = decide (N ≤ n) := by
  rcases Nat.le_total n N with hLe | hEnd
  · exact at_isEod hF (h.row hLe) hLe
  · obtain ⟨hEod, hFetched⟩ := h.past hEnd
    rw [State.isEod, hEod, Bool.and_true, hFetched, h.pos, Nat.mod_eq_of_lt hn]

/-- A move that does not wrap returns whether there is one more row, also past
the end. -/
theorem Walked.next_fst (hF : 0 < F) (hW : N < W) {n : Nat} {s : State} (h : Walked F N W n s)
    (hn : n + 1 < W) : (next F N W s false).1 = some (decide (n + 1 < N)) := by
  rcases Nat.lt_or_ge n N with hLt | hGe
  · exact (next_at hF hW (h.row (Nat.le_of_lt hLt)) hLt).1
  · obtain ⟨hEod, hFetched⟩ := h.past hGe
    rw [next_of_eod false hEod, h.pos, hFetched, Nat.mod_add_mod, Nat.mod_eq_of_lt hn]

/-- A reader whose blocks have no slots. -/
structure Blockless (s : State) : Prop where
  fetched   : s.fetched = 0
  delivered : s.delivered = 0
  eod       : s.eod = false

theorem start_blockless : Blockless (start 0 N) := by
  rw [start_eq, Nat.zero_min]
  exact ⟨rfl, rfl, rfl⟩

/-- Every move of it asks for a block, and no end is ever found. -/
theorem next_blockless {s : State} (h : Blockless s) : Blockless (next 0 N W s false).2 := by
  have hRefills : s.Refills W := ⟨h.fetched ▸ Nat.zero_le _, h.eod⟩
  rw [next_of_refilling false hRefills, if_neg Bool.false_ne_true]
  refine ⟨?_, ?_, ?_⟩
  · simp [refill, h.delivered]
  · simp [refill, h.delivered]
  · simp [refill, h.delivered, h.eod, h.fetched]

-- ---------------------------------------------------------------------------
-- Slots that are used again
-- ---------------------------------------------------------------------------

/-- The slots after the rows from `d` up to `d'` were delivered. -/
def fill (slot : Nat → Option Nat) (d d' : Nat) : Nat → Option Nat :=
  fun j => if j < d' - d then some (d + j) else slot j

theorem fill_self (slot : Nat → Option Nat) (d : Nat) : fill slot d d = slot := by
  funext j
  rw [fill, Nat.sub_self, if_neg (Nat.not_lt_zero j)]

/-- After `d` of `N` rows the slots hold the last `F` of them, each in the
slot of its number. -/
structure Recent (F N d : Nat) (slot : Nat → Option Nat) : Prop where
  bound : d ≤ N
  full  : d = N ∨ F ∣ d
  slot  : ∀ j i, slot j = some i ↔ i % F = j ∧ i < d ∧ d ≤ i + F

theorem recent_none : Recent F N 0 fun _ => none where
  bound := Nat.zero_le N
  full := .inr (Nat.dvd_zero F)
  slot j i := by
    constructor
    · intro h
      cases h
    · intro ⟨_, hLt, _⟩
      exact absurd hLt (Nat.not_lt_zero i)

/-- The slot of a row is its place in its block. -/
theorem place_of_block {d i u : Nat} (hd : F ∣ d) (hu : u < F) (h : i = d + u ∨ i + F = d + u) :
    i % F = u := by
  obtain ⟨q, rfl⟩ := hd
  have hPlace : (F * q + u) % F = u := by rw [Nat.mul_add_mod, Nat.mod_eq_of_lt hu]
  rcases h with rfl | hNext
  · exact hPlace
  · rw [← Nat.add_mod_right, hNext, hPlace]

/-- **One delivery** of the next block. -/
theorem recent_fill {d : Nat} {slot : Nat → Option Nat} (h : Recent F N d slot) :
    Recent F N (d + min F (N - d)) (fill slot d (d + min F (N - d))) := by
  have hBound := h.bound
  rcases h.full with hEnd | hBlock
  · -- there are no more rows
    have hNone : d + min F (N - d) = d := by omega
    rw [hNone, fill_self]
    exact h
  · obtain ⟨k, hk⟩ : ∃ k, min F (N - d) = k := ⟨_, rfl⟩
    rw [hk]
    refine ⟨by omega, ?_, fun j i => ?_⟩
    · rcases Nat.lt_or_ge (N - d) F with hShort | hFull
      · left
        omega
      · right
        rw [← hk, Nat.min_eq_left hFull]
        exact Nat.dvd_add_self_right.mpr hBlock
    · rw [fill, Nat.add_sub_cancel_left]
      split
      · -- the slot was written
        rename_i hj
        rw [Option.some.injEq]
        constructor
        · intro hi
          exact ⟨place_of_block hBlock (by omega) (.inl hi.symm), by omega, by omega⟩
        · intro ⟨hSlot, hLow, hHigh⟩
          rcases Nat.lt_or_ge i d with hBefore | hAfter
          · have hPlace := place_of_block (i := i) (u := i + F - d) hBlock (by omega)
              (.inr (by omega))
            omega
          · have hPlace := place_of_block (i := i) (u := i - d) hBlock (by omega) (.inl (by omega))
            omega
      · -- it was not, and shows what it showed
        rename_i hj
        rw [h.slot]
        constructor
        · intro ⟨hSlot, hLow, hHigh⟩
          have hPlace := place_of_block (i := i) (u := i + F - d) hBlock (by omega)
            (.inr (by omega))
          exact ⟨hSlot, by omega, by omega⟩
        · intro ⟨hSlot, hLow, hHigh⟩
          rcases Nat.lt_or_ge i d with hBefore | hAfter
          · exact ⟨hSlot, hBefore, by omega⟩
          · have hPlace := place_of_block (i := i) (u := i - d) hBlock (by omega) (.inl (by omega))
            omega

/-- The slot of a row holds it exactly as long as it is one of the last `F`. -/
theorem Recent.slot_mod {d : Nat} {slot : Nat → Option Nat} (h : Recent F N d slot) (i : Nat) :
    slot (i % F) = some i ↔ i < d ∧ d ≤ i + F := by
  rw [h.slot]
  exact ⟨fun hi => hi.2, fun hi => ⟨rfl, hi⟩⟩

end BlockCursor
