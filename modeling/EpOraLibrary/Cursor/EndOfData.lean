import EpOraLibrary.Cursor.CurrentRow

/-!
# EpOraLibrary — the end of the data and the calls after it

`Next` moves `m_currentRow` on before it looks at anything, also past the end,
and `m_currentRow` is 32 bits wide.

* `EndStays` — a `Next` that finds the end where it was found before.
* `endStays_iff` — when one does, in any state of a result set.
* `Tracks.wp_next_returned` — a `Next` that returns is a move of the reader.
* `end_final_iff` — **the end of the data is final** for as many calls as the
  position does not wrap in, and where it was found by a short block.
* `end_of_data_passes` — a position that wraps.
-/

namespace Epol

open Ledger Prog Runs

variable {w w₀ w₁ : World} {r h F base : Nat} {ids : List Nat} {s : BlockCursor.State}
  {o : OciCall → OciResult}

-- ---------------------------------------------------------------------------
-- Calls of Next
-- ---------------------------------------------------------------------------

/-- One `Next`; an exception is caught. -/
def callNext (r : Nat) (w : World) (o : OciCall → OciResult) : World :=
  exec (ResultSet.next r) (w.answering o)

/-- The call does not throw. -/
def NextReturns (r : Nat) (w : World) (o : OciCall → OciResult) : Prop :=
  (result? (ResultSet.next r) (w.answering o)).isSome

instance (r : Nat) (w : World) (o : OciCall → OciResult) : Decidable (NextReturns r w o) :=
  inferInstanceAs (Decidable (_ = _))

/-- What is asked of a `Next` at the end of the data: it returns false, the end
is reported after it, no block is asked for, and `m_rowsFetched` and the buffers
are as before. -/
structure EndStays (r : Nat) (w : World) (o : OciCall → OciResult) : Prop where
  returned : result? (ResultSet.next r) (w.answering o) = some false
  isEod    : ((callNext r w o).rsets r).IsEod = true
  fetched  : ((callNext r w o).rsets r).m_rowsFetched = (w.rsets r).m_rowsFetched
  buffers  : (callNext r w o).cols = w.cols
  fetches  : fetchesOf r (callNext r w o).oci.log = fetchesOf r w.oci.log

/-- The position after the next call is not below `m_rowsFetched`, and the end
is known. -/
def ResultSet.PastEnd (rs : ResultSet) : Prop :=
  rs.m_isEod = true ∧ rs.m_rowsFetched ≤ (rs.m_currentRow + 1) % 2 ^ 32

theorem wp_next_pastEnd (hPast : (w.rsets r).PastEnd) :
    wp (ResultSet.next r) (fun b w' => b = false ∧ w' = w.moved r) (fun _ _ => False) w := by
  obtain ⟨hEod, hLe⟩ := hPast
  have hSame : (w.moved r).rsets r = (w.rsets r).advanced := Function.update_self ..
  refine wp_next (fun _ _ => ⟨rfl, rfl⟩) (fun _ hNotEod => ?_) (fun hLt => ?_)
  · rw [hSame, ResultSet.advanced, hEod] at hNotEod
    cases hNotEod
  · rw [hSame] at hLt
    exact absurd hLt (Nat.not_lt_of_le hLe)

/-- Then the call does nothing but move the position on. -/
theorem callNext_pastEnd (hPast : (w.rsets r).PastEnd) :
    callNext r w o = (w.answering o).moved r := by
  have hCall : wp (ResultSet.next r) (fun b w' => b = false ∧ w' = (w.answering o).moved r)
      (fun _ _ => False) (w.answering o) := wp_next_pastEnd hPast
  exact wp_exec.mp (wp_mono hCall (fun _ _ hSame => hSame.2) (fun _ _ hFalse => hFalse.elim))

theorem rsets_callNext_pastEnd (hPast : (w.rsets r).PastEnd) :
    (callNext r w o).rsets r = (w.rsets r).advanced := by
  rw [callNext_pastEnd hPast]
  exact Function.update_self ..

/-- A fetch that returns was one more. -/
theorem fetchRows_fetches (r : Nat) (w : World) :
    wp (ResultSet.fetchRows r)
      (fun _ w' => fetchesOf r w'.oci.log = fetchesOf r w.oci.log + 1 ∧
        (w'.rsets r).m_currentRow = (w.rsets r).m_currentRow) (fun _ _ => True) w := by
  rw [ResultSet.fetchRows, wp_bind, wp_get, wp_bind]
  cases hHandle : (w.rsets r).m_rsHandle with
  | none =>
    simp only [ociStmtFetch, wp_bind, wp_pass, wp_answer, wp_pure]
    rw [wp_ite, if_neg (by decide)]
    exact wp_throwOnError fun _ _ => trivial
  | some h =>
    refine wp_ociStmtFetch (fun _ result hResult => ?_) (fun hFail => ?_)
    · rw [wp_ite, if_pos (fetchOk_iff.mp hResult), wp_bind]
      refine wp_mono (wp_rowsCount_read r _) (fun rows w' hRows => ?_) (fun _ _ _ => trivial)
      have hRead := hRows.2
      rw [wp_modifyRs]
      refine ⟨?_, ?_⟩
      · show fetchesOf r w'.oci.log = _
        rw [hRead.fetches]
        simp [fetchesOf, World.fetched]
      · simp only [Function.update_self]
        rw [hRead.same]
        rfl
    · rw [wp_ite, if_neg fun hOk => hFail (fetchOk_iff.mpr hOk)]
      exact wp_throwOnError fun _ _ => trivial

/-- **One call.** The end stays where it is exactly when it is known and the
position does not wrap. -/
theorem endStays_iff (r : Nat) (w : World) (o : OciCall → OciResult) :
    EndStays r w o ↔ (w.rsets r).PastEnd := by
  constructor
  · intro hStays
    have hRun := eq_ok_of_result hStays.returned
    have hCall : wp (ResultSet.next r)
        (fun b w' => b = false → fetchesOf r w'.oci.log = fetchesOf r w.oci.log →
          (w.rsets r).PastEnd) (fun _ _ => True) (w.answering o) := by
      have hSame : ((w.answering o).moved r).rsets r = (w.rsets r).advanced :=
        Function.update_self ..
      refine wp_next (fun hLe hEod _ _ => ?_) (fun _ _ => ?_) (fun _ hFalse => by cases hFalse)
      · rw [hSame] at hLe hEod
        exact ⟨hEod, hLe⟩
      · refine wp_mono (fetchRows_fetches r _) ?_ (fun _ _ _ => trivial)
        intro _ w' hFetched _ hNone
        have hMore : fetchesOf r w'.oci.log = fetchesOf r w.oci.log + 1 := hFetched.1
        omega
    exact of_wp_ok hCall hRun rfl hStays.fetches
  · intro hPast
    have hCall : wp (ResultSet.next r) (fun b w' => b = false ∧ w' = (w.answering o).moved r)
        (fun _ _ => False) (w.answering o) := wp_next_pastEnd hPast
    refine ⟨result_eq_of_wp (wp_mono hCall (fun _ _ hSame => hSame.1) (fun _ _ h => h)),
      ?_, ?_, ?_, ?_⟩
    · rw [rsets_callNext_pastEnd hPast, ResultSet.IsEod, Bool.and_eq_true, decide_eq_true_eq]
      exact ⟨hPast.2, hPast.1⟩
    · rw [rsets_callNext_pastEnd hPast]
      rfl
    · rw [callNext_pastEnd hPast]
      rfl
    · rw [callNext_pastEnd hPast]
      rfl

/-- **Any number of calls**, in any state of a result set. -/
theorem allSteps_endStays (calls : List (OciCall → OciResult)) :
    AllSteps (callNext r) (EndStays r) w calls ↔
      (calls ≠ [] → (w.rsets r).m_isEod = true) ∧ ∀ j < calls.length,
        (w.rsets r).m_rowsFetched ≤ ((w.rsets r).m_currentRow + (j + 1)) % 2 ^ 32 := by
  induction calls generalizing w with
  | nil => exact ⟨fun _ => ⟨fun hNil => absurd rfl hNil, fun j hj => absurd hj (Nat.not_lt_zero j)⟩,
      fun _ => trivial⟩
  | cons o calls ih =>
    rw [AllSteps, endStays_iff, ih, List.length_cons]
    have hShift : ∀ c j, ((c + 1) % 2 ^ 32 + (j + 1)) % 2 ^ 32 = (c + (j + 1 + 1)) % 2 ^ 32 := by
      intro c j
      rw [Nat.mod_add_mod]
      congr 1
      omega
    constructor
    · rintro ⟨hPast, -, hRest⟩
      rw [rsets_callNext_pastEnd hPast] at hRest
      refine ⟨fun _ => hPast.1, fun j hj => ?_⟩
      cases j with
      | zero => exact hPast.2
      | succ j =>
        have hLater := hRest j (Nat.lt_of_succ_lt_succ hj)
        rw [ResultSet.advanced, hShift] at hLater
        exact hLater
    · rintro ⟨hEod, hAbove⟩
      have hPast : (w.rsets r).PastEnd :=
        ⟨hEod (List.cons_ne_nil _ _), hAbove 0 (Nat.succ_pos _)⟩
      rw [rsets_callNext_pastEnd hPast]
      refine ⟨hPast, fun _ => hPast.1, fun j hj => ?_⟩
      rw [ResultSet.advanced, hShift]
      exact hAbove (j + 1) (Nat.succ_lt_succ hj)

/-- A call that returns false leaves the position past the rows fetched. -/
theorem position_of_false (hFalse : ResultSet.next r w = .ok false w₁) :
    (w₁.rsets r).m_rowsFetched ≤ (w₁.rsets r).m_currentRow ∧
      (w₁.rsets r).m_currentRow < 2 ^ 32 := by
  have hCall : wp (ResultSet.next r) (fun b w' => b = false →
      (w'.rsets r).m_rowsFetched ≤ (w'.rsets r).m_currentRow ∧
        (w'.rsets r).m_currentRow < 2 ^ 32) (fun _ _ => True) w := by
    have hPos : ((w.moved r).rsets r).m_currentRow < 2 ^ 32 := by
      rw [show (w.moved r).rsets r = (w.rsets r).advanced from Function.update_self ..]
      exact Nat.mod_lt _ (by decide)
    refine wp_next (fun hLe _ _ => ⟨hLe, hPos⟩) (fun _ _ => ?_) (fun _ hFalse => by cases hFalse)
    refine wp_mono (fetchRows_fetches r _) ?_ (fun _ _ _ => trivial)
    intro _ w' hFetched hPast
    exact ⟨Nat.le_of_not_lt (of_decide_eq_false hPast), hFetched.2 ▸ hPos⟩
  exact of_wp_ok hCall hFalse rfl

/-- The same by the position, after a call that has returned false. -/
theorem allSteps_endStays_iff (hFalse : ResultSet.next r w = .ok false w₁)
    (calls : List (OciCall → OciResult)) :
    AllSteps (callNext r) (EndStays r) w₁ calls ↔
      (calls ≠ [] → (w₁.rsets r).m_isEod = true) ∧ ((w₁.rsets r).m_rowsFetched = 0 ∨
        (w₁.rsets r).m_currentRow + calls.length < 2 ^ 32) := by
  obtain ⟨hLe, hLt⟩ := position_of_false hFalse
  rw [allSteps_endStays, BlockCursor.above_iff hLe hLt]

-- ---------------------------------------------------------------------------
-- Calls that return
-- ---------------------------------------------------------------------------

/-- **A `Next` that returns is a move of the reader** without a failed refill. -/
theorem Tracks.wp_next_returned (hT : Tracks w r h F base ids s) (hN : w.rowCount h < 2 ^ 32) :
    let moved := BlockCursor.next F (w.rowCount h) (2 ^ 32) s false
    wp (ResultSet.next r)
      (fun b w' => moved.1 = some b ∧ Tracks w' r h F base ids moved.2 ∧
        (w'.oci.stmt h).query = (w.oci.stmt h).query) (fun _ _ => True) w := by
  intro moved
  by_cases hCount : w.outcome (.attrGet .rowCount 0) = .success
  · refine wp_mono (tracks_next hT hN hCount) ?_ (fun _ _ _ => trivial)
    rintro b w' ⟨hb, hT', hQuery⟩
    have hSame := BlockCursor.next_of_some hb
    rw [hSame] at hb hT'
    exact ⟨hb, hT', hQuery⟩
  · -- a call that returns without a row count has not fetched
    refine hT.wp_next (fun hStay => ?_) (fun _ => ?_)
    · simp only [moved]
      rw [BlockCursor.next_of_not_refills _ hStay]
      exact ⟨rfl, hT.moved, rfl⟩
    · exact wp_mono (fetchRows_counted r) (fun _ _ hDone => absurd hDone hCount)
        (fun _ _ _ => trivial)

/-- A result set on the query `q` after `n` calls, none of which has thrown. -/
structure WalkedTo (w : World) (r h F base : Nat) (ids : List Nat) (q : Query) (n : Nat) :
    Prop where
  query  : (w.oci.stmt h).query = q
  reader : ∃ s, Tracks w r h F base ids s ∧
    if F = 0 then BlockCursor.Blockless s else BlockCursor.Walked F q.rows.length (2 ^ 32) n s

variable {q : Query} {n : Nat}

theorem WalkedTo.step (hW : WalkedTo w r h F base ids q n) (hN : q.rows.length < 2 ^ 32)
    (hReturns : NextReturns r w o) :
    WalkedTo (callNext r w o) r h F base ids q (n + 1) := by
  obtain ⟨s, hT, hAt⟩ := hW.reader
  have hRows : (w.answering o).rowCount h = q.rows.length := by
    rw [← hW.query]
    rfl
  have hCall := (hT.answering o).wp_next_returned (hRows ▸ hN)
  rw [hRows] at hCall
  obtain ⟨b, hRun⟩ := Option.isSome_iff_exists.mp hReturns
  obtain ⟨-, hT', hQuery⟩ := of_wp_ok hCall (eq_ok_of_result hRun)
  refine ⟨hQuery.trans hW.query, _, hT', ?_⟩
  split
  · rename_i hNone
    rw [if_pos hNone] at hAt
    subst hNone
    exact BlockCursor.next_blockless hAt
  · rename_i hF
    rw [if_neg hF] at hAt
    exact (BlockCursor.next_walked (Nat.pos_of_ne_zero hF) hN hAt).2

/-- **Any number of calls** that return. -/
theorem WalkedTo.run (hW : WalkedTo w r h F base ids q n) (hN : q.rows.length < 2 ^ 32)
    {calls : List (OciCall → OciResult)} (hReturn : AllSteps (callNext r) (NextReturns r) w calls) :
    WalkedTo (Runs.run (callNext r) w calls) r h F base ids q (n + calls.length) := by
  induction calls generalizing w n with
  | nil => exact hW
  | cons o calls ih =>
    have hRest := ih (hW.step hN hReturn.1) hReturn.2
    rw [List.length_cons, Nat.add_comm calls.length 1, ← Nat.add_assoc]
    exact hRest

theorem World.Begun.walkedTo (hBegun : w₀.Begun r) (hHandle : (w₀.rsets r).m_rsHandle = some h) :
    ∃ base, WalkedTo w₀ r h (w₀.rsets r).m_fetchCount base (w₀.rsets r).m_columns
      (w₀.oci.stmt h).query 0 := by
  obtain ⟨-, base, hT⟩ := hBegun.tracks hHandle
  refine ⟨base, rfl, _, hT, ?_⟩
  split
  · rename_i hNone
    rw [hNone]
    exact BlockCursor.start_blockless
  · rename_i hF
    exact BlockCursor.start_walked (Nat.pos_of_ne_zero hF)

/-- After a call that has returned false, the end was found by a short block:
if there are slots at all, it is the end of the query. -/
theorem WalkedTo.at_end (hW : WalkedTo w r h F base ids q n)
    (hPast : (w.rsets r).m_rowsFetched ≤ (w.rsets r).m_currentRow) :
    ((w.rsets r).m_isEod = true ↔ 0 < F) ∧
      (0 < F → (w.rsets r).m_rowsFetched = q.rows.length ∧
        (w.rsets r).m_currentRow = n % 2 ^ 32) := by
  obtain ⟨s, hT, hAt⟩ := hW.reader
  rw [hT.fetched, hT.pos] at hPast
  rw [hT.eod, hT.fetched, hT.pos]
  rcases Nat.eq_zero_or_pos F with hNone | hF
  · rw [if_pos hNone] at hAt
    rw [hAt.eod, hNone]
    simp
  · rw [if_neg (Nat.ne_of_gt hF)] at hAt
    have hEnd : q.rows.length ≤ n := by
      refine Nat.le_of_not_lt fun hLt => ?_
      have hRow := hAt.row (Nat.le_of_lt hLt)
      have hBlock := BlockCursor.lt_block_end hF n
      rw [hRow.fetched, hRow.pos] at hPast
      omega
    obtain ⟨hEod, hFetched⟩ := hAt.past hEnd
    exact ⟨⟨fun _ => hF, fun _ => hEod⟩, fun _ => ⟨hFetched, hAt.pos⟩⟩

-- ---------------------------------------------------------------------------
-- The end of the data
-- ---------------------------------------------------------------------------

/-- **The end of the data.** A result set was opened and `Next` called any number
of times, any call to OCI failing, until a call returned false. All later calls
return false and leave `IsEod`, `m_rowsFetched` and the buffers as they are,
without a fetch, exactly when that call left `m_isEod` set, and nothing was
fetched at all or the position does not wrap in these calls. Where no call before
has thrown, this is so exactly when the blocks have slots, and the query has no
rows or all calls together do not wrap the position. -/
theorem end_final_iff (before later : List (OciCall → OciResult))
    (hFalse : ResultSet.next r ((run (callNext r) w₀ before).answering o) = .ok false w₁) :
    (AllSteps (callNext r) (EndStays r) w₁ later ↔
      (later ≠ [] → (w₁.rsets r).m_isEod = true) ∧ ((w₁.rsets r).m_rowsFetched = 0 ∨
        (w₁.rsets r).m_currentRow + later.length < 2 ^ 32)) ∧
    (w₀.Begun r → (w₀.rsets r).m_rsHandle = some h → w₀.rowCount h < 2 ^ 32 →
      AllSteps (callNext r) (NextReturns r) w₀ before →
      (AllSteps (callNext r) (EndStays r) w₁ later ↔
        (later ≠ [] → 0 < (w₀.rsets r).m_fetchCount) ∧ (w₀.rowCount h = 0 ∨
          (before.length + 1) % 2 ^ 32 + later.length < 2 ^ 32))) := by
  have hIff := allSteps_endStays_iff hFalse later
  refine ⟨hIff, fun hBegun hHandle hN hReturned => ?_⟩
  obtain ⟨base, hStart⟩ := hBegun.walkedTo hHandle
  have hLast : NextReturns r (run (callNext r) w₀ before) o := by
    rw [NextReturns, result?, hFalse]
    rfl
  have hWalked := (hStart.run hN hReturned).step hN hLast
  rw [show callNext r (run (callNext r) w₀ before) o = w₁ by rw [callNext, exec, hFalse],
    Nat.zero_add] at hWalked
  obtain ⟨hEod, hPos⟩ := hWalked.at_end (position_of_false hFalse).1
  rw [hIff, hEod]
  refine and_congr_right fun hSlots => ?_
  rcases List.eq_nil_or_concat later with hNil | ⟨_, _, hSome⟩
  · -- without another call there is nothing to ask
    have hLt := (position_of_false hFalse).2
    have hLt' : (before.length + 1) % 2 ^ 32 < 2 ^ 32 := Nat.mod_lt _ (by decide)
    rw [hNil, List.length_nil]
    exact ⟨fun _ => .inr hLt', fun _ => .inr hLt⟩
  · obtain ⟨hRows, hRow⟩ := hPos (hSlots (by simp [hSome]))
    rw [hRows, hRow]
    rfl

/-- A number column with one row. -/
def oneRow : Query where
  desc := [⟨tstr "ID", [], [], SQLT_NUM, 22⟩]
  rows := [[⟨0, 22, .number [193, 2]⟩]]

theorem select_oneRow :
    Statement.selectWith 0 2 (preparedOn oneRow) = .ok 2 (selectedOn oneRow) :=
  eq_ok_of_result (by decide +kernel)

/-- The first `Next` finds the end of the one row. -/
def endedOn (q : Query) : World := callNext 2 (selectedOn q) allWell

theorem next_oneRow : ResultSet.next 2 ((selectedOn oneRow).answering allWell) =
    .ok false (endedOn oneRow) :=
  eq_ok_of_result (by decide +kernel)

/-- Three more calls at the end of the one row, one of them with a fetch that
would fail. -/
theorem end_final_three_calls : AllSteps (callNext 2) (EndStays 2) (endedOn oneRow)
    [allWell, failing (· = .stmtFetch), allWell] := by
  have hBegun : (selectedOn oneRow).Begun 2 :=
    .select (.inl ⟨preparedOn oneRow, 0, 2, select_oneRow⟩)
  have hHandle : ((selectedOn oneRow).rsets 2).m_rsHandle = some 1 := by decide +kernel
  have hRows : (selectedOn oneRow).rowCount 1 = 1 := by decide +kernel
  have hSlots : 0 < ((selectedOn oneRow).rsets 2).m_fetchCount := by decide +kernel
  have hFalse : ResultSet.next 2 ((run (callNext 2) (selectedOn oneRow) []).answering allWell) =
      .ok false (endedOn oneRow) := by
    rw [run, List.foldl_nil, next_oneRow]
  have hIff := (end_final_iff [] [allWell, failing (· = .stmtFetch), allWell] hFalse).2
    hBegun hHandle (by rw [hRows]; decide) trivial
  rw [hIff]
  refine ⟨fun _ => hSlots, .inr ?_⟩
  simp

/-- Blocks without slots: 65536 rows asked for. -/
def slotless : World := exec (Statement.selectWith 0 65536) (preparedOn oneRow)

theorem endedOn_oneRow_stays (n : Nat) :
    AllSteps (callNext 2) (EndStays 2) (endedOn oneRow) (List.replicate n allWell) ↔
      n < 2 ^ 32 - 1 := by
  have hEod : ((endedOn oneRow).rsets 2).m_isEod = true := by decide +kernel
  have hRows : ((endedOn oneRow).rsets 2).m_rowsFetched = 1 := by decide +kernel
  have hRow : ((endedOn oneRow).rsets 2).m_currentRow = 1 := by decide +kernel
  rw [allSteps_endStays_iff next_oneRow, List.length_replicate, hEod, hRows, hRow]
  simp
  omega

/-- The end of the one row stays for 2 ^ 32 - 2 calls, and the next one returns
true. Where the blocks have no slots, the next call fetches again. -/
theorem end_of_data_passes :
    AllSteps (callNext 2) (EndStays 2) (endedOn oneRow) (List.replicate 4294967294 allWell) ∧
    (¬ AllSteps (callNext 2) (EndStays 2) (endedOn oneRow)
      (List.replicate 4294967295 allWell)) ∧
    result? (ResultSet.next 2) (slotless.answering allWell) = some false ∧
    ¬ AllSteps (callNext 2) (EndStays 2) (callNext 2 slotless allWell) [allWell] := by
  refine ⟨(endedOn_oneRow_stays _).mpr (by decide), fun hAll => ?_, by decide +kernel,
    fun hAll => ?_⟩
  · exact absurd ((endedOn_oneRow_stays _).mp hAll) (by decide)
  · have hKnown := ((endStays_iff 2 _ _).mp hAll.1).1
    revert hKnown
    decide +kernel

end Epol
