import EpOraLibrary.Cursor.CursorParam

/-!
# EpOraLibrary — a failed refill and the calls after it

A caller walks over a result set, catches what `Next` throws when
`OCIStmtFetch` fails, and calls it again.

* `Reader.Ready.step` — a call without a failing refill returns, and the reader
  is one row on; `Reader.Ready.step_failed` — one that fails has moved on.
* `failed_refill_iff` — **the position survives exactly the runs without a
  failing refill**: `Next` moves on before it fetches, so a refill that fails
  takes a row with it.
* `failed_refill_loses_a_row` — a run in which one does.
-/

namespace Epol

open Ledger Prog Runs

variable {r h F base : Nat} {ids : List Nat} {q : Query} {w₀ : World}

/-- All calls succeed but `OCIStmtFetch`, which answers `a`. -/
def fetchAnswers (a : OciResult) (call : OciCall) : OciResult :=
  if call = .stmtFetch then a else .success

/-- A world and the number of `Next` calls that returned. -/
structure Reader where
  w     : World
  moved : Nat

/-- One `Next`, whatever it throws being caught. -/
def Reader.step (r : Nat) (s : Reader) (a : OciResult) : Reader :=
  match ResultSet.next r (s.w.answering (fetchAnswers a)) with
  | .ok _ w => ⟨w, s.moved + 1⟩
  | .error _ w => ⟨w, s.moved⟩

/-- What is asked of a call: when it throws the position is as it was, and
afterwards the result set shows row `m` if `m` calls have returned. -/
def Reader.Good (r : Nat) (q : Query) (s : Reader) (a : OciResult) : Prop :=
  (∀ e w, ResultSet.next r (s.w.answering (fetchAnswers a)) = .error e w →
    (w.rsets r).m_currentRow = (s.w.rsets r).m_currentRow) ∧
  ((s.step r a).moved ≤ q.rows.length → Shows (s.step r a).w r q (s.step r a).moved)

/-- When the call has to fetch, `OCIStmtFetch` succeeds. -/
def Reader.Answered (r : Nat) (s : Reader) (a : OciResult) : Prop :=
  (s.w.rsets r).Refills → fetchOk a

/-- The reader after some calls: at the row their number says, or past the end. -/
structure Reader.Ready (s : Reader) (r h F base : Nat) (ids : List Nat) (q : Query)
    (t : BlockCursor.State) : Prop where
  query  : (s.w.oci.stmt h).query = q
  tracks : Tracks s.w r h F base ids t
  small  : t.pos < 2 ^ 32
  row    : s.moved ≤ q.rows.length → BlockCursor.At F q.rows.length s.moved t
  past   : q.rows.length ≤ s.moved → t.eod = true

variable {s : Reader} {t : BlockCursor.State}

theorem Reader.Ready.refills (hR : s.Ready r h F base ids q t) :
    (s.w.rsets r).Refills ↔ t.Refills (2 ^ 32) := by
  rw [ResultSet.Refills, BlockCursor.State.Refills, hR.tracks.fetched, hR.tracks.pos, hR.tracks.eod]

/-- A call without a failing refill returns, and the reader is one row on. -/
theorem Reader.Ready.step (hR : s.Ready r h F base ids q t) (hF : 0 < F)
    (hN : q.rows.length < 2 ^ 32) {a : OciResult} (ha : s.Answered r a) :
    ∃ b w' t', ResultSet.next r (s.w.answering (fetchAnswers a)) = .ok b w' ∧
      Reader.Ready ⟨w', s.moved + 1⟩ r h F base ids q t' := by
  have hRows : (s.w.answering (fetchAnswers a)).rowCount h = q.rows.length := by
    rw [World.rowCount, ← hR.query]
    rfl
  have hStep := tracks_next (hR.tracks.answering (fetchAnswers a)) (hRows ▸ hN) rfl
  have hAnswer : (s.w.answering (fetchAnswers a)).outcome .stmtFetch = a := rfl
  rw [hRows, hAnswer] at hStep
  have hNone : t.Refills (2 ^ 32) → decide (¬ fetchOk a) = false := fun ht =>
    decide_eq_false (not_not_intro (ha (hR.refills.mpr ht)))
  rw [BlockCursor.next_of_refills hNone] at hStep
  -- the move returns: there is a row to move from, or the end is known
  have hMove : ∃ b t', BlockCursor.next F q.rows.length (2 ^ 32) t false = (some b, t') ∧
      t'.pos < 2 ^ 32 ∧
      (s.moved + 1 ≤ q.rows.length → BlockCursor.At F q.rows.length (s.moved + 1) t') ∧
      (q.rows.length ≤ s.moved + 1 → t'.eod = true) := by
    rcases Nat.lt_or_ge s.moved q.rows.length with hLt | hGe
    · obtain ⟨hb, hAt⟩ := BlockCursor.next_at hF hN (hR.row (Nat.le_of_lt hLt)) hLt
      refine ⟨_, _, Prod.ext hb rfl, ?_, fun _ => hAt, fun hEnd => ?_⟩
      · rw [hAt.pos]
        omega
      · have hEq : s.moved + 1 = q.rows.length := by omega
        rw [hAt.eod, decide_eq_true]
        exact hEq ▸ BlockCursor.lt_block_end hF _
    · have hEod := hR.past hGe
      rw [BlockCursor.next_of_eod false hEod]
      exact ⟨_, _, rfl, Nat.mod_lt _ (by decide), fun hLe => by omega, fun _ => hEod⟩
  obtain ⟨b, t', hMove, hSmall, hRow, hPast⟩ := hMove
  rw [hMove] at hStep
  cases hRun : ResultSet.next r (s.w.answering (fetchAnswers a)) with
  | error e w' =>
    have hThrown : some b = none := (of_wp_error hStep hRun).1
    cases hThrown
  | ok b' w' =>
    obtain ⟨-, hT, hQuery⟩ := of_wp_ok hStep hRun
    exact ⟨b', w', t', rfl, hQuery.trans hR.query, hT, hSmall, hRow, hPast⟩

/-- A call with a failing refill throws, and the position has moved on. -/
theorem Reader.Ready.step_failed (hR : s.Ready r h F base ids q t) (hN : q.rows.length < 2 ^ 32)
    {a : OciResult} (ha : ¬ s.Answered r a) :
    ∃ e w', ResultSet.next r (s.w.answering (fetchAnswers a)) = .error e w' ∧
      (w'.rsets r).m_currentRow ≠ (s.w.rsets r).m_currentRow := by
  have hRows : (s.w.answering (fetchAnswers a)).rowCount h = q.rows.length := by
    rw [World.rowCount, ← hR.query]
    rfl
  have hStep := tracks_next (hR.tracks.answering (fetchAnswers a)) (hRows ▸ hN) rfl
  have hAnswer : (s.w.answering (fetchAnswers a)).outcome .stmtFetch = a := rfl
  obtain ⟨hRefills, hFail⟩ := Classical.not_imp.mp ha
  rw [hRows, hAnswer, decide_eq_true hFail] at hStep
  have hNone := BlockCursor.next_eq_none_iff (F := F) (N := q.rows.length).mpr
    ⟨hR.refills.mp hRefills, rfl⟩
  cases hRun : ResultSet.next r (s.w.answering (fetchAnswers a)) with
  | ok b w' =>
    have hSome := (of_wp_ok hStep hRun).1
    rw [hNone] at hSome
    cases hSome
  | error e w' =>
    obtain ⟨-, hT, -⟩ := of_wp_error hStep hRun
    refine ⟨e, w', rfl, ?_⟩
    rw [hT.pos, hR.tracks.pos]
    exact BlockCursor.next_failed_pos (by decide) true hR.small

/-- Where the reader is ready, the result set shows the row it is at. -/
theorem Reader.Ready.shows (hR : s.Ready r h F base ids q t) (hF : 0 < F) (hF' : F < 2 ^ 16)
    (hLe : s.moved ≤ q.rows.length) : Shows s.w r q s.moved := by
  have hA : AtRow s.w r h F base ids q s.moved := ⟨hR.query, t, hR.tracks, hR.row hLe⟩
  exact ⟨isEod_atRow hA hF hLe, row_atRow hA hF hF'⟩

/-- **The position survives exactly the runs without a failing refill.** From
what a `Select` leaves, or the first `ToResultSet` after an execution, whatever
`OCIStmtFetch` answers to the `Next` calls that follow and however many these are:
every call that throws leaves the position as it was and the result set always
shows the row the number of completed calls says, if and only if `OCIStmtFetch`
succeeds in every call that has to fetch. -/
theorem failed_refill_iff (hBegun : w₀.Begun r) (hHandle : (w₀.rsets r).m_rsHandle = some h)
    (hF : 1 ≤ (w₀.rsets r).m_fetchCount) (hN : w₀.rowCount h < 2 ^ 32) (answers : List OciResult) :
    AllSteps (Reader.step r) (Reader.Good r (w₀.oci.stmt h).query) ⟨w₀, 0⟩ answers ↔
      AllSteps (Reader.step r) (Reader.Answered r) ⟨w₀, 0⟩ answers := by
  obtain ⟨hF', base, hT⟩ := hBegun.tracks hHandle
  have hStart : Reader.Ready ⟨w₀, 0⟩ r h (w₀.rsets r).m_fetchCount base (w₀.rsets r).m_columns
      (w₀.oci.stmt h).query _ :=
    ⟨rfl, hT, by simp [BlockCursor.start_eq], fun _ => BlockCursor.start_at, fun hEnd => ?_⟩
  · refine allSteps_iff_allSteps (I := fun s => ∃ t, Reader.Ready s r h (w₀.rsets r).m_fetchCount
      base (w₀.rsets r).m_columns (w₀.oci.stmt h).query t) ?_ ?_ ⟨_, hStart⟩
    · rintro s a ⟨t, hR⟩ ha
      obtain ⟨b, w', t', hRun, hR'⟩ := hR.step hF hN ha
      refine ⟨t', ?_⟩
      rw [Reader.step, hRun]
      exact hR'
    · rintro s a ⟨t, hR⟩
      constructor
      · rintro ⟨hKept, -⟩
        by_contra ha
        obtain ⟨e, w', hRun, hMoved⟩ := hR.step_failed hN ha
        exact hMoved (hKept e w' hRun)
      · intro ha
        obtain ⟨b, w', t', hRun, hR'⟩ := hR.step hF hN ha
        refine ⟨fun e w hThrow => ?_, ?_⟩
        · rw [hRun] at hThrow
          cases hThrow
        · rw [Reader.step, hRun]
          exact fun hLe => hR'.shows hF hF' hLe
  · rw [BlockCursor.start_at.eod, decide_eq_true]
    exact Nat.lt_of_le_of_lt hEnd (BlockCursor.lt_block_end hF 0)

/-- A run in which all fetches succeed. -/
theorem failed_refill_iff_all_answered :
    AllSteps (Reader.step 2) (Reader.Good 2 ((selectedOn threeRows).oci.stmt 1).query)
      ⟨selectedOn threeRows, 0⟩ [.success, .success] :=
  (failed_refill_iff (h := 1) (.select (.inl ⟨_, _, _, select_threeRows⟩)) (by decide +kernel)
    (by decide +kernel) (by decide +kernel) _).mpr
    ⟨fun _ => .inl rfl, fun _ => .inl rfl, trivial⟩

/-- Three rows in blocks of two. The second `Next` has to fetch and fails: the
position is past the first block. The next call fetches the third row and is
past it: the end of the data is reported after two completed calls. -/
theorem failed_refill_loses_a_row :
    ¬ AllSteps (Reader.step 2) (Reader.Good 2 threeRows) ⟨selectedOn threeRows, 0⟩
      [.success, .error] ∧
    (let s := run (Reader.step 2) ⟨selectedOn threeRows, 0⟩ [.success, .error, .success]
     s.moved = 2 ∧ (s.w.rsets 2).IsEod = true) := by
  refine ⟨fun ⟨_, hGood, _⟩ => ?_, by decide +kernel, by decide +kernel⟩
  obtain ⟨e, hThrow⟩ := eq_error_of_result (x := ResultSet.next 2)
    (s := (Reader.step 2 ⟨selectedOn threeRows, 0⟩ .success).w.answering (fetchAnswers .error))
    (by decide +kernel)
  have hSame := hGood.1 e _ hThrow
  revert hSame
  decide +kernel

end Epol
