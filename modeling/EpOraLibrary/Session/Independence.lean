import EpOraLibrary.Cursor.EndOfData
import EpOraLibrary.Session.Locality

/-!
# EpOraLibrary — result sets side by side

An application walks over a result set and makes other calls in between: it
prepares and executes other statements, binds parameters, walks over other
result sets, and releases them.

* `World.Leaves` — the call is made on nothing that has the statement handle of
  the result set.
* `App.Walking.next`, `App.Walking.other` — one call, on the result set or on
  something else.
* `session_reader_independent` — **a result set shows the row the number of its
  own `Next` calls says, whatever other calls are made**, also past the end, as
  long as the position does not wrap.
-/

namespace Epol

open Ledger Prog Runs

variable {w w' w₀ : World} {held : List Res} {s r h F base n : Nat} {ids : List Nat} {q : Query}
  {l : SessionCall}

-- ---------------------------------------------------------------------------
-- What a result set is made on
-- ---------------------------------------------------------------------------

/-- The result set `r` is held, and so is the statement of the handle `h`, unless
it belongs to `r`. -/
structure World.MadeOn (w : World) (held : List Res) (r h : Nat) : Prop where
  mem  : ⟨.resultSet, r⟩ ∈ held
  stmt : ∃ s, (w.stmts s).m_stmtHandle = some h ∧
    (⟨.statement, s⟩ ∈ held ∨ (w.rsets r).m_stmt = some s)

theorem World.MadeOn.answering (hM : w.MadeOn held r h) (o : OciCall → OciResult) :
    (w.answering o).MadeOn held r h := ⟨hM.mem, hM.stmt⟩

/-- The statement belongs to one of the objects held. -/
theorem owner_of_statement (hr : ⟨.resultSet, r⟩ ∈ held)
    (hs : ⟨.statement, s⟩ ∈ held ∨ (w.rsets r).m_stmt = some s) :
    ∃ o ∈ held, w.stmtOwned s ⊆ w.owned o ∧ (o = ⟨.statement, s⟩ ∨ o = ⟨.resultSet, r⟩) := by
  rcases hs with hs | hs
  · exact ⟨_, hs, List.Subset.refl _, .inl rfl⟩
  · refine ⟨_, hr, fun y hy => ?_, .inr rfl⟩
    simp only [World.owned, World.rsOwned, hs, Option.toList_some, List.flatMap_cons,
      List.flatMap_nil, List.append_nil]
    exact List.mem_append_left _ (List.mem_append_right _ hy)

/-- It is not the handle of a parameter. -/
theorem World.MadeOn.rsHandle_ne (hM : w.MadeOn held r h) (hSound : Sound w held) {p : Nat}
    (hHas : App.HasParam ⟨w, held⟩ s p) : (w.params p).m_rsHandle ≠ some h := by
  intro hh
  obtain ⟨s', hh', hs'⟩ := hM.stmt
  obtain ⟨o, ho, hSub, hEither⟩ := owner_of_statement hM.mem hs'
  have hOwner := hSound.owner_unique hHas.1 ho (paramOwned_sub_stmt hHas.2 (mem_owned_rsHandle hh))
    (hSub (mem_owned_stmtHandle hh'))
  rcases hEither with rfl | rfl
  · obtain rfl : s' = s := congrArg Res.id hOwner
    exact hSound.rsHandle_ne ho hHas.2 hh' hh
  · cases hOwner

/-- The places a result set shows its rows by. -/
def World.RowPlace (w : World) (r h : Nat) (place : Place) : Prop :=
  place = .object ⟨.resultSet, r⟩ ∨ place = .cursor h ∨
    ∃ c ∈ (w.rsets r).m_columns, place = .object ⟨.column, c⟩

/-- The statement the call executes. -/
def SessionCall.executes : SessionCall → Option Nat
  | .call (.stmtExecute s) => some s
  | .call (.stmtSelect s _) => some s
  | _ => none

/-- The object the call releases. -/
def SessionCall.releases : SessionCall → Option Res
  | .call (.release x) => some x
  | _ => none

/-- The call executes no statement with the handle of the result set `r`, reads no
other result set on that handle, and releases neither `r` nor what owns the
handle. -/
def World.Leaves (w : World) (r : Nat) (l : SessionCall) : Prop :=
  (∀ s ∈ l.executes, (w.stmts s).m_stmtHandle ≠ (w.rsets r).m_rsHandle) ∧
  (∀ r' ∈ w.reads l, (w.rsets r').m_rsHandle ≠ (w.rsets r).m_rsHandle) ∧
  ∀ x ∈ l.releases, x ≠ ⟨.resultSet, r⟩ ∧ ∀ h ∈ (w.rsets r).m_rsHandle, ⟨.stmt, h⟩ ∉ w.owned x

instance (w : World) (r : Nat) (l : SessionCall) : Decidable (w.Leaves r l) :=
  inferInstanceAs (Decidable (_ ∧ _ ∧ _))

/-- A call that leaves the result set alone is not made on it. -/
theorem World.Leaves.object_ne (hLeaves : w.Leaves r l) : l.object ≠ some ⟨.resultSet, r⟩ := by
  intro hObject
  cases l with
  | call l =>
    cases l with
    | next r' =>
      obtain rfl : r' = r := congrArg Res.id (Option.some.inj hObject)
      exact hLeaves.2.1 r' rfl rfl
    | release x => exact (hLeaves.2.2 x rfl).1 (Option.some.inj hObject)
    | _ => cases hObject
  | _ => cases hObject

/-- **Such a call** reaches none of the places the result set shows its rows by. -/
theorem Placed.leaves (hP : Placed w held) (hPermits : App.Permits ⟨w, held⟩ l)
    (hM : w.MadeOn held r h) (hHandle : (w.rsets r).m_rsHandle = some h) (hLeaves : w.Leaves r l)
    {place : Place} (hPlace : w.RowPlace r h place) : ¬ w.Reaches l place := by
  intro hReach
  have hOwned : place.part ∈ w.owned ⟨.resultSet, r⟩ →
      ∀ x ∈ held, l.object = some x → place.part ∉ w.owned x := by
    intro hPart x hx hObject hm
    exact hLeaves.object_ne (hObject.trans (congrArg some
      (hP.sound.owner_unique hM.mem hx hPart hm)))
  rcases hPlace with rfl | rfl | ⟨c, hc, rfl⟩
  · rcases hP.reaches hPermits hReach with ⟨x, hx, hObject, hm⟩ | ⟨r', h', -, -, hEq | ⟨c, -, hEq⟩⟩
    · exact hOwned (mem_owned_self w _) x hx hObject hm
    · cases hEq
    · cases hEq
  · have hExecute : ∀ {s}, ⟨.statement, s⟩ ∈ held → (w.stmts s).m_stmtHandle ≠ some h →
        ¬ w.ExecuteReaches s (.cursor h) := by
      rintro s hs hOther (hEq | ⟨hd, h', hh, hOpens, hEq⟩)
      · cases hEq
      · cases hEq
        rcases hOpens with rfl | ⟨e, he, p, hAddr, hh'⟩
        · exact hOther hh
        · rcases (hP.cursors s hs hd hh e he p hAddr).2 with hp | hNone
          · exact hM.rsHandle_ne hP.sound ⟨hs, hp⟩ hh'
          · rw [hNone] at hh'
            cases hh'
    have hNext : ∀ {r'}, (w.rsets r').m_rsHandle ≠ some h → ¬ w.NextReaches r' (.cursor h) := by
      rintro r' hOther (hEq | ⟨hd, hh, hEq | ⟨c, -, hEq⟩⟩)
      · cases hEq
      · cases hEq
        exact hOther hh
      · cases hEq
    cases l with
    | call l =>
      cases l with
      | bind s name type => rcases hReach with hEq | ⟨hd, -, hEq⟩ <;> cases hEq
      | stmtExecute s => exact hExecute (hPermits _ rfl) (hHandle ▸ hLeaves.1 s rfl) hReach
      | stmtSelect s F => exact hExecute (hPermits _ rfl) (hHandle ▸ hLeaves.1 s rfl) hReach
      | next r' => exact hNext (hHandle ▸ hLeaves.2.1 r' rfl) hReach
      | release x =>
        obtain ⟨y, -, hEq⟩ := hReach
        cases hEq
      | _ => exact hReach
    | register s p l => cases hReach
    | toResultSet s p =>
      rcases hReach with hEq | ⟨hd, hh, hEq⟩
      · cases hEq
      · cases hEq
        exact hM.rsHandle_ne hP.sound hPermits hh
    | cursorNext s p =>
      obtain ⟨r', hr', hReach⟩ := hReach
      exact hNext (hHandle ▸ hLeaves.2.1 r' hr') hReach
  · have hColumn : ⟨.column, c⟩ ∈ w.owned ⟨.resultSet, r⟩ := by
      simp [World.owned, World.rsOwned, World.columnsOwned, hc]
    rcases hP.reaches hPermits hReach with
      ⟨x, hx, hObject, hm⟩ | ⟨r', h', hr', hh', hEq | ⟨c', hc', hEq⟩⟩
    · exact hOwned hColumn x hx hObject hm
    · cases hEq
    · -- a column that is defined on another handle is that of another result set
      cases hEq
      obtain ⟨pos, -, hDefined⟩ := List.mem_filterMap.mp hc'
      have hSame := (hP.columns.columns r c hc).2 h' (pos + 1) hDefined
      exact hLeaves.2.1 r' hr' (hh'.trans hSame.symm)

/-- The places are there. -/
theorem Placed.rowPlace_below (hP : Placed w held) (hM : w.MadeOn held r h) {place : Place}
    (hPlace : w.RowPlace r h place) : place.Below w.fresh := by
  obtain ⟨s, hh, hs⟩ := hM.stmt
  obtain ⟨o, ho, hSub, -⟩ := owner_of_statement hM.mem hs
  rcases hPlace with rfl | rfl | ⟨c, hc, rfl⟩
  · exact hP.below (P := .object _) hM.mem (mem_owned_self w _)
  · exact hP.below (P := .cursor h) ho (hSub (mem_owned_stmtHandle hh))
  · exact (hP.columns.columns r c hc).1

-- ---------------------------------------------------------------------------
-- What a result set is made on stays
-- ---------------------------------------------------------------------------

/-- **A statement** keeps its handle until it is released. -/
theorem Placed.keeps_handle (hP : Placed w held) (hPermits : App.Permits ⟨w, held⟩ l)
    (hs : s < w.fresh)
    (hRelease : ∀ x, l = .call (.release x) → ⟨.statement, s⟩ ∉ w.owned x) :
    wp l.run (fun _ w' => (w'.stmts s).m_stmtHandle = (w.stmts s).m_stmtHandle)
      (fun _ w' => (w'.stmts s).m_stmtHandle = (w.stmts s).m_stmtHandle) w := by
  have hCursors := hP.sound.cursors
  by_cases hReach : w.Reaches l (.object ⟨.statement, s⟩)
  · cases l with
    | call l =>
      cases l with
      | bind s' name type =>
        rcases hReach with hEq | ⟨hd, -, hEq⟩
        · cases hEq
          rw [SessionCall.run, Call.run, wp_bind]
          refine wp_mono (wp_statementBind s name type hCursors) ?_ ?_
          · rintro p w' ⟨-, -, w₁, param, t, -, hA, rfl⟩
            rw [wp_pure]
            simp [World.withParam, hA.stmts]
          · rintro e w' ⟨-, hC, -⟩
            exact (hC.linked ⟨.statement, s⟩ hs).1
        · cases hEq
      | stmtExecute s' =>
        rw [SessionCall.run, Call.run, wp_bind]
        have hSame : ∀ {w'}, Executing s' w w' →
            (w'.stmts s).m_stmtHandle = (w.stmts s).m_stmtHandle :=
          fun hEx => ((hEx.conserves w.fresh).linked ⟨.statement, s⟩ hs).1
        exact wp_mono (wp_executePrepared s') (fun _ _ h => hSame h.1) (fun _ _ h => hSame h)
      | stmtSelect s' F =>
        rw [SessionCall.run, Call.run, wp_bind]
        exact wp_mono (gains_selectWith s' F hCursors)
          (fun _ _ h => (h.1.conserves.linked ⟨.statement, s⟩ hs).1)
          (fun _ _ h => (h.linked ⟨.statement, s⟩ hs).1)
      | next r' => exact absurd hReach (not_nextReaches r' s 0 w).1
      | release x =>
        obtain ⟨y, hy, hEq⟩ := hReach
        cases hEq
        exact absurd hy (hRelease x rfl)
      | _ => exact hReach.elim
    | register s' p l => cases hReach
    | toResultSet s' p => rcases hReach with hEq | ⟨hd, -, hEq⟩ <;> cases hEq
    | cursorNext s' p =>
      obtain ⟨r', -, hReach⟩ := hReach
      exact absurd hReach (not_nextReaches r' s 0 w).1
  · have hSame : ∀ {w'}, Touches w.fresh (w.Reaches l) w w' →
        (w'.stmts s).m_stmtHandle = (w.stmts s).m_stmtHandle := fun hT =>
      congrArg Statement.m_stmtHandle (hT.same (.object ⟨.statement, s⟩) hs hReach).1
    exact wp_mono (hP.sound.touches l hPermits) (fun _ _ hT => hSame hT) (fun _ _ hT => hSame hT)

/-- What a result set is made on stays where the call does not release it. -/
theorem Placed.madeOn_call (hP : Placed w held) (hPermits : App.Permits ⟨w, held⟩ l)
    (hM : w.MadeOn held r h) (hNot : l ≠ .call (.release ⟨.resultSet, r⟩))
    (hRelease : ∀ x, l = .call (.release x) → ⟨.stmt, h⟩ ∉ w.owned x)
    (hStmt : wp l.run (fun _ w' => (w'.rsets r).m_stmt = (w.rsets r).m_stmt)
      (fun _ w' => (w'.rsets r).m_stmt = (w.rsets r).m_stmt) w) :
    wp l.run (fun x w' => w'.MadeOn (x.toList ++ l.keeps held) r h)
      (fun _ w' => w'.MadeOn held r h) w := by
  obtain ⟨s, hh, hs⟩ := hM.stmt
  obtain ⟨o, ho, hSub, -⟩ := owner_of_statement hM.mem hs
  have hOwned : ⟨.statement, s⟩ ∈ w.owned o := hSub (mem_owned_self w ⟨.statement, s⟩)
  -- the statement is not released, for its handle is not
  have hKept : ∀ x, l = .call (.release x) → ⟨.statement, s⟩ ∉ w.owned x := by
    rintro x rfl hm
    obtain rfl : o = x := hP.sound.owner_unique (hPermits x rfl) ho hm hOwned
    exact hRelease _ rfl (hSub (mem_owned_stmtHandle hh))
  have hLt : s < w.fresh := hP.below (P := .object ⟨.statement, s⟩) ho hOwned
  refine wp_mono (wp_and (hP.keeps_handle hPermits hLt hKept) hStmt) ?_ ?_
  · rintro x w' ⟨hHandle, hSame⟩
    refine ⟨List.mem_append_right _ (mem_keeps hM.mem hNot), s, hHandle.trans hh, ?_⟩
    rw [hSame]
    refine hs.imp_left fun hs => List.mem_append_right _ (mem_keeps hs fun heq => ?_)
    exact hRelease _ heq (mem_owned_stmtHandle hh)
  · rintro e w' ⟨hHandle, hSame⟩
    refine ⟨hM.mem, s, hHandle.trans hh, ?_⟩
    rw [hSame]
    exact hs

-- ---------------------------------------------------------------------------
-- One call
-- ---------------------------------------------------------------------------

/-- A reader stays where the places it shows its rows by are the same. -/
theorem WalkedTo.of_sameIn (hW : WalkedTo w r h F base ids q n)
    (hSame : ∀ place, w.RowPlace r h place → w.SameIn w' place) :
    WalkedTo w' r h F base ids q n := by
  obtain ⟨t, hT, hAt⟩ := hW.reader
  have hWired := hT.wired
  obtain ⟨hRs, hFetches⟩ := hSame _ (.inl rfl)
  have hRs : w'.rsets r = w.rsets r := hRs
  have hFetches : fetchesOf r w'.oci.log = fetchesOf r w.oci.log := hFetches.1 rfl
  have hCursor : w'.oci.stmt h = { w.oci.stmt h with binds := (w'.oci.stmt h).binds } :=
    hSame (.cursor h) (.inr (.inl rfl))
  have hCols : ∀ c ∈ ids, w'.cols c = w.cols c := fun c hc =>
    (hSame (.object ⟨.column, c⟩) (.inr (.inr ⟨c, hWired.columns ▸ hc, rfl⟩))).1
  refine ⟨?_, t, ⟨⟨?_, ?_, ?_, hWired.nodup, ?_, ?_, ?_, ?_⟩, ?_, ?_, ?_, ?_, ?_, ?_, ?_⟩,
    hAt⟩
  · rw [hCursor]
    exact hW.query
  · rw [hRs]
    exact hWired.handle
  · rw [hRs]
    exact hWired.count
  · rw [hRs]
    exact hWired.columns
  · rw [hCursor]
    exact hWired.length
  · rw [hCursor]
    exact hWired.defined
  · intro c hc
    rw [hCols c hc]
    exact hWired.owner c hc
  · intro c hc
    rw [hCols c hc]
    exact hWired.spaced c hc
  · rw [hRs]
    exact hT.pos
  · rw [hRs]
    exact hT.fetched
  · rw [hRs]
    exact hT.eod
  · rw [hCursor]
    exact hT.delivered
  · rw [World.rowCount, hCursor]
    exact hT.bound
  · rw [hFetches]
    exact hT.fetches
  · intro c hc j i hSlot
    rw [hCols _ (List.getElem_mem hc), hCursor]
    exact hT.slots c hc j i hSlot

/-- **A `Next`** for which OCI answers what it is asked returns whether there is
one more row unless the position wraps, and the reader is one row on. -/
theorem WalkedTo.wp_next (hW : WalkedTo w r h F base ids q n) (hF : 0 < F)
    (hN : q.rows.length < 2 ^ 32) (ha : (w.rsets r).Refills → w.FetchAnswered) :
    wp (ResultSet.next r)
      (fun b w' => (n + 1 < 2 ^ 32 → b = decide (n + 1 < q.rows.length)) ∧
        WalkedTo w' r h F base ids q (n + 1)) (fun _ _ => False) w := by
  obtain ⟨t, hT, hAt⟩ := hW.reader
  rw [if_neg (Nat.ne_of_gt hF)] at hAt
  have hRows : w.rowCount h = q.rows.length := by rw [World.rowCount, hW.query]
  obtain ⟨⟨b, hb⟩, hWalked⟩ := BlockCursor.next_walked hF hN hAt
  have hRow : n + 1 < 2 ^ 32 → b = decide (n + 1 < q.rows.length) := fun hLt => by
    rw [hAt.next_fst hF hN hLt] at hb
    exact (Option.some.inj hb).symm
  by_cases hRefills : t.Refills (2 ^ 32)
  · obtain ⟨hOk, hCount⟩ := ha (by rwa [ResultSet.Refills, hT.fetched, hT.pos, hT.eod])
    have hStep := tracks_next hT (hRows ▸ hN) hCount
    rw [hRows, decide_eq_false (not_not_intro hOk)] at hStep
    refine wp_mono hStep ?_ ?_
    · rintro b' w' ⟨hb', hT', hQuery⟩
      obtain rfl := Option.some.inj (hb.symm.trans hb')
      exact ⟨hRow, hQuery.trans hW.query, _, hT', by rwa [if_neg (Nat.ne_of_gt hF)]⟩
    · rintro e w' ⟨hNone, -⟩
      rw [hb] at hNone
      cases hNone
  · refine hT.wp_next (fun hStay => ?_) fun h => absurd h hRefills
    rw [BlockCursor.next_of_not_refills _ hStay] at hb hWalked
    obtain rfl := Option.some.inj hb
    exact ⟨hRow, hW.query, _, hT.moved, by rwa [if_neg (Nat.ne_of_gt hF)]⟩

/-- The call is a `Next` on the result set `r`. -/
def SessionCall.isNext (r : Nat) : SessionCall → Bool
  | .call (.next r') => r' = r
  | _ => false

/-- The calls of `Next` on the result set `r`. -/
def nextsOn (r : Nat) (calls : List Served) : Nat := calls.countP fun l => l.1.isNext r

/-- A `Next` on the result set `r` gets what it asks OCI for, and any other call
leaves `r` alone. -/
def App.Spares (r : Nat) (a : App) (l : Served) : Prop :=
  if l.1.isNext r then (a.w.rsets r).Refills → (a.w.answering l.2).FetchAnswered
  else a.w.Leaves r l.1

instance (r : Nat) (a : App) (l : Served) : Decidable (a.Spares r l) :=
  inferInstanceAs (Decidable (ite _ _ _))

/-- The application holds the result set `r`, which is at row `n` or past the end. -/
structure App.Walking (a : App) (r h F base : Nat) (ids : List Nat) (q : Query) (n : Nat) :
    Prop where
  placed : Placed a.w a.held
  made   : a.w.MadeOn a.held r h
  walked : WalkedTo a.w r h F base ids q n

theorem isNext_iff : l.isNext r = true ↔ l = .call (.next r) := by
  cases l with
  | call l => cases l <;> simp [SessionCall.isNext]
  | _ => simp [SessionCall.isNext]

theorem WalkedTo.handle (hW : WalkedTo w r h F base ids q n) :
    (w.rsets r).m_rsHandle = some h := by
  obtain ⟨t, hT, -⟩ := hW.reader
  exact hT.wired.handle

theorem WalkedTo.answering (hW : WalkedTo w r h F base ids q n) (o : OciCall → OciResult) :
    WalkedTo (w.answering o) r h F base ids q n :=
  hW.of_sameIn fun place _ => sameIn_refl w place

/-- **A `Next` on the result set** takes it one row on. -/
theorem App.Walking.next {a : App} (hA : a.Walking r h F base ids q n) (hF : 0 < F)
    (hN : q.rows.length < 2 ^ 32) {o : OciCall → OciResult}
    (ha : (a.w.rsets r).Refills → (a.w.answering o).FetchAnswered) :
    (a.serve (.call (.next r), o)).Walking r h F base ids q (n + 1) := by
  have hPermits : a.Permits (.call (.next r)) := fun x hx => by
    obtain rfl := Option.some.inj hx
    exact hA.made.mem
  have hP := hA.placed.answering o
  refine ⟨hA.placed.serve _, ?_, ?_⟩
  · refine App.serve_of_wp (P := fun b => b.w.MadeOn b.held r h) (fun hNot => absurd hPermits hNot)
      fun hPermits => ?_
    refine hP.madeOn_call hPermits (hA.made.answering o) (fun heq => by cases heq)
      (fun x heq => by cases heq) ?_
    rw [SessionCall.run, Call.run, wp_bind]
    have hSame : ∀ {w'}, Reading r (a.w.answering o) w' →
        (w'.rsets r).m_stmt = (a.w.rsets r).m_stmt := fun hR => by
      rw [hR.rsets, Function.update_self]
      rfl
    exact wp_mono (reading_next r _) (fun _ _ h => hSame h) (fun _ _ h => hSame h)
  · refine App.serve_of_wp (P := fun b => WalkedTo b.w r h F base ids q (n + 1))
      (fun hNot => absurd hPermits hNot) fun _ => ?_
    rw [SessionCall.run, Call.run, wp_bind]
    exact wp_mono ((hA.walked.answering o).wp_next hF hN ha) (fun _ _ h => h.2)
      (fun _ _ hFalse => hFalse.elim)

/-- **Any other call** leaves the result set where it is. -/
theorem App.Walking.other {a : App} (hA : a.Walking r h F base ids q n) {l : Served}
    (hLeaves : a.w.Leaves r l.1) : (a.serve l).Walking r h F base ids q n := by
  have hP := hA.placed.answering l.2
  have hM := hA.made.answering l.2
  have hHandle := hA.walked.handle
  have hKeeps : ∀ {w'}, a.Permits l.1 → Touches a.w.fresh ((a.w.answering l.2).Reaches l.1)
      (a.w.answering l.2) w' → ∀ place, a.w.RowPlace r h place →
        (a.w.answering l.2).SameIn w' place := fun hPermits hT place hPlace =>
    hT.same place (hP.rowPlace_below hM hPlace)
      (hP.leaves hPermits hM hHandle hLeaves hPlace)
  refine ⟨hA.placed.serve l, ?_, ?_⟩
  · refine App.serve_of_wp (P := fun b => b.w.MadeOn b.held r h) (fun _ => hA.made)
      fun hPermits => ?_
    refine hP.madeOn_call hPermits hM ?_ ?_ ?_
    · intro heq
      rw [heq] at hLeaves
      exact (hLeaves.2.2 _ rfl).1 rfl
    · intro x heq
      rw [heq] at hLeaves
      exact (hLeaves.2.2 x rfl).2 h hHandle
    · have hSame : ∀ {w'}, Touches a.w.fresh ((a.w.answering l.2).Reaches l.1)
          (a.w.answering l.2) w' → (w'.rsets r).m_stmt = (a.w.rsets r).m_stmt := fun hT =>
        congrArg ResultSet.m_stmt (hKeeps hPermits hT _ (.inl rfl)).1
      exact wp_mono (hP.sound.touches l.1 hPermits) (fun _ _ hT => hSame hT)
        (fun _ _ hT => hSame hT)
  · refine App.serve_of_wp (P := fun b => WalkedTo b.w r h F base ids q n) (fun _ => hA.walked)
      fun hPermits => ?_
    have hWalked : ∀ {w'}, Touches a.w.fresh ((a.w.answering l.2).Reaches l.1)
        (a.w.answering l.2) w' → WalkedTo w' r h F base ids q n := fun hT =>
      (hA.walked.answering l.2).of_sameIn (hKeeps hPermits hT)
    exact wp_mono (hP.sound.touches l.1 hPermits) (fun _ _ hT => hWalked hT)
      (fun _ _ hT => hWalked hT)

/-- **Any calls** that spare the result set. -/
theorem App.Walking.run {a : App} (hA : a.Walking r h F base ids q n) (hF : 0 < F)
    (hN : q.rows.length < 2 ^ 32) {calls : List Served}
    (hSpares : AllSteps App.serve (App.Spares r) a calls) :
    (Runs.run App.serve a calls).Walking r h F base ids q (n + nextsOn r calls) := by
  induction calls generalizing a n with
  | nil => exact hA
  | cons l calls ih =>
    obtain ⟨hHead, hRest⟩ := hSpares
    rw [run_cons, nextsOn, List.countP_cons, ← Nat.add_assoc, Nat.add_right_comm]
    rw [App.Spares] at hHead
    split at hHead
    · rename_i hNext
      obtain ⟨l, o⟩ := l
      obtain rfl := isNext_iff.mp hNext
      rw [if_pos hNext]
      exact ih (hA.next hF hN hHead) hRest
    · rename_i hOther
      rw [if_neg hOther]
      exact ih (hA.other hHead) hRest

-- ---------------------------------------------------------------------------
-- From a `Select` on
-- ---------------------------------------------------------------------------

theorem selectWith_stmtHandle {fetchSize : Nat}
    (hSelect : Statement.selectWith s fetchSize w = .ok r w₀) :
    (w₀.stmts s).m_stmtHandle = (w.stmts s).m_stmtHandle := by
  refine of_wp_ok (Q := fun _ w' => (w'.stmts s).m_stmtHandle = (w.stmts s).m_stmtHandle)
    (E := fun _ _ => True) (wp_selectWith (fun _ _ _ => trivial) (fun _ _ _ _ _ _ => trivial)
      fun we wb ids hEx _ hB => ?_) hSelect
  refine wp_mono (reading_fetchRows we.fresh wb) (fun _ w' hR => ?_) (fun _ _ _ => wp_trivial _ _)
  rw [hR.same, hB.building.apart.stmts, hEx.stmts, Function.update_self]

/-- A call that returns a result set is a `Select`. -/
theorem returns_resultSet (l : SessionCall) (w : World) :
    wp l.run (fun x w' => ∀ r, x = some ⟨.resultSet, r⟩ → w'.Selected r ∧
        ∃ s, (w'.stmts s).m_stmtHandle = (w'.rsets r).m_rsHandle ∧
          ((∃ F, l = .call (.stmtSelect s F)) ∨ (w'.rsets r).m_stmt = some s))
      (fun _ _ => True) w := by
  have hReturned := wp_returned (w := w) (P := fun o w' => o.kind = .resultSet →
    w'.Selected o.id ∧ ∃ s, (w'.stmts s).m_stmtHandle = (w'.rsets o.id).m_rsHandle ∧
      ((∃ F, l = .call (.stmtSelect s F)) ∨ (w'.rsets o.id).m_stmt = some s)) l ?_ ?_ ?_
  · exact wp_mono hReturned (fun x w' h r hr => h _ hr rfl) (fun _ _ _ => trivial)
  · intro sql _
    exact wp_mono (wp_trivial _ w) (fun _ _ _ hKind => by cases hKind) (fun _ _ _ => trivial)
  · intro sql F _
    refine wp_mono (wp_self _ w) (fun r w' hRun _ => ?_) (fun _ _ _ => trivial)
    obtain ⟨s, w₁, w₂, hSelect, hSame⟩ := connection_selectWith hRun
    have hRs : w'.rsets r = { w₂.rsets r with m_stmt := some s } := by
      rw [hSame]
      exact Function.update_self ..
    have hStmts : w'.stmts = w₂.stmts := by rw [hSame]
    refine ⟨.inr ⟨w, sql, F, hRun⟩, s, ?_, .inr (by rw [hRs])⟩
    rw [hRs, hStmts]
    exact (selectWith_stmtHandle hSelect).trans (selectWith_handle hSelect).symm
  · rintro s F rfl
    exact wp_mono (wp_self _ w) (fun r w' hRun _ => ⟨.inl ⟨w, s, F, hRun⟩, s,
      (selectWith_stmtHandle hRun).trans (selectWith_handle hRun).symm, .inl ⟨F, rfl⟩⟩)
      (fun _ _ _ => trivial)

/-- The result set that a call has just returned is at its first row. -/
theorem walking_selected {a : App} (hP : Placed a.w a.held) {l : Served} (hPermits : a.Permits l.1)
    (hReturns : result? l.1.run (a.w.answering l.2) = some (some ⟨.resultSet, r⟩))
    (hHandle : ((a.serve l).w.rsets r).m_rsHandle = some h) :
    ((a.serve l).w.rsets r).m_fetchCount < 2 ^ 16 ∧ ∃ base,
      (a.serve l).Walking r h ((a.serve l).w.rsets r).m_fetchCount base
        ((a.serve l).w.rsets r).m_columns ((a.serve l).w.oci.stmt h).query 0 := by
  have hRun := eq_ok_of_result hReturns
  have hServe : a.serve l = ⟨exec l.1.run (a.w.answering l.2),
      (some ⟨.resultSet, r⟩ : Option Res).toList ++ l.1.keeps a.held⟩ := by
    rw [App.serve, if_pos hPermits, hRun]
  obtain ⟨hSelected, s, hStmt, hOwner⟩ := of_wp_ok (returns_resultSet l.1 _) hRun r rfl
  have hPlaced := hP.serve l
  rw [hServe] at hHandle hPlaced ⊢
  obtain ⟨base, hWalked⟩ := (World.Begun.select hSelected).walkedTo hHandle
  refine ⟨(hSelected.tracks hHandle).1, base, hPlaced, ⟨List.mem_cons_self, s, ?_, ?_⟩, hWalked⟩
  · exact hStmt.trans hHandle
  · refine hOwner.imp_left fun hSelect => List.mem_cons_of_mem _ ?_
    obtain ⟨F, hSelect⟩ := hSelect
    rw [hSelect] at hPermits ⊢
    exact hPermits _ rfl

/-- A reader that was walked to row `n`, or past the end, shows it. -/
theorem WalkedTo.shows (hW : WalkedTo w r h F base ids q n) (hF : 0 < F) (hF' : F < 2 ^ 16)
    (hn : n < 2 ^ 32) : Shows w r q n := by
  obtain ⟨t, hT, hAt⟩ := hW.reader
  rw [if_neg (Nat.ne_of_gt hF)] at hAt
  refine ⟨?_, fun hLt => ?_⟩
  · rw [← hAt.isEod hF hn, ResultSet.IsEod, BlockCursor.State.isEod, hT.pos, hT.fetched, hT.eod]
  · exact row_atRow ⟨hW.query, t, hT, hAt.row (Nat.le_of_lt hLt)⟩ hF hF' hLt

/-- **Result sets side by side.** A connection was opened and closed any number of
times before, an application made any calls of a session, with any answers of
OCI, and then a `Select` that returned the result set `r`, on a query of fewer
than 2^32 rows and in blocks that have slots, as those of the public `Select` do.
After any further calls — on `r`, on other objects, and those that make new ones
— of which `n` were `Next` on `r`, `r` shows row `n` of its query, and the end of
the data exactly when there is no row `n`; the next `Next` returns whether there
is one more. This is so past the end as well, as long as `n`, or `n + 1` for the
next `Next`, is less than 2^32: there the position wraps. What is asked of the
calls: a `Next` on `r` that has to fetch is answered, no other call executes or
reads the statement handle of `r`, and neither `r` nor what owns the handle is
released. -/
theorem session_reader_independent (cfg : Setting) (before : List ConnCall) (calls : List Served)
    (l : Served) :
    let a₀ := run App.serve (.opened cfg before) calls
    let a₁ := a₀.serve l
    a₀.Permits l.1 → result? l.1.run (a₀.w.answering l.2) = some (some ⟨.resultSet, r⟩) →
    (a₁.w.rsets r).m_rsHandle = some h → 1 ≤ (a₁.w.rsets r).m_fetchCount →
    a₁.w.rowCount h < 2 ^ 32 → ∀ more : List Served, AllSteps App.serve (App.Spares r) a₁ more →
      let a := run App.serve a₁ more
      let q := (a₁.w.oci.stmt h).query
      let n := nextsOn r more
      (n < 2 ^ 32 → Shows a.w r q n) ∧
        ∀ o, ((a.w.rsets r).Refills → (a.w.answering o).FetchAnswered) → n + 1 < 2 ^ 32 →
          result? (ResultSet.next r) (a.w.answering o) = some (decide (n + 1 < q.rows.length)) := by
  intro a₀ a₁ hPermits hReturns hHandle hF hN more hSpares a q n
  have hPlaced : Placed a₀.w a₀.held :=
    run_invariant (I := fun a : App => Placed a.w a.held) (fun _ l hP => hP.serve l)
      (placed_opened cfg before) calls
  obtain ⟨hF', base, hStart⟩ := walking_selected hPlaced hPermits hReturns hHandle
  have hWalked := (hStart.run hF hN hSpares).walked
  rw [Nat.zero_add] at hWalked
  refine ⟨hWalked.shows hF hF', fun o ha hLt => ?_⟩
  refine result_eq_of_wp (wp_mono ((hWalked.answering o).wp_next hF hN ha) ?_
    (fun _ _ hFalse => hFalse))
  rintro b w' ⟨hb, -⟩
  exact hb hLt

/-- A statement is prepared, by the number 5. -/
def prepareOne : List Served := [(.call (.prepare (tstr "A")), allWell)]

/-- It is selected, by the number 7 of the result set. -/
def selectOne : Served := (.call (.stmtSelect 5 2), allWell)

/-- Three `Next` calls on the result set, between them a walk over another one, and
one more past its end. -/
def nextsBetween : List Served :=
  [(.call (.next 7), allWell), (.call (.select (tstr "B") 2), allWell), (.call (.next 12), allWell),
    (.call (.release ⟨.resultSet, 12⟩), allWell), (.call (.next 7), allWell),
    (.call (.next 7), allWell), (.call (.next 7), allWell)]

theorem session_reader_independent_between :
    let a := run App.serve ((run App.serve (.opened (.serving threeRows)
      [.open ⟨true, true, false⟩ allWell]) prepareOne).serve selectOne) nextsBetween
    Shows a.w 7 threeRows 4 ∧
      result? (ResultSet.next 7) (a.w.answering allWell) = some false := by
  have hMore := session_reader_independent (r := 7) (h := 6) (.serving threeRows)
    [.open ⟨true, true, false⟩ allWell] prepareOne selectOne (by decide +kernel)
    (by decide +kernel) (by decide +kernel) (by decide +kernel) (by decide +kernel) nextsBetween
    (by decide +kernel)
  have hRows : (((run App.serve (.opened (.serving threeRows)
      [.open ⟨true, true, false⟩ allWell]) prepareOne).serve selectOne).w.oci.stmt 6).query =
      threeRows := by decide +kernel
  have hCount : nextsOn 7 nextsBetween = 4 := by decide
  obtain ⟨hShows, hNext⟩ := hMore
  have hLast := hNext allWell (by decide +kernel) (by decide +kernel)
  rw [hRows, hCount] at hShows hLast
  exact ⟨hShows (by decide), hLast⟩

end Epol
