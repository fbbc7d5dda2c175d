import EpOraLibrary.Session.Ready
import EpOraLibrary.Teardown.Lifetimes

/-!
# EpOraLibrary — the handles a session passes

The connection stays open while a session lasts, so a handle is freed by the
object that owns it. What a call passes belongs to the connection or to the object
it is made on, with one exception: a result set of `Statement::Select` reads from
the handle of a statement that may have been released.

* `fit_registerCall`, `fit_toResultSet`, `fit_cursorNext` — calls on parameters.
* `App.Dangles` — a `Next` that fetches from a freed handle.
* `session_handles_live_iff` — **a session passes no freed handle exactly when it
  makes no such `Next`.**
-/

namespace Epol

open Ledger Prog Runs

variable {w w' : World} {conn : Connection} {held : List Res} {s p r h : Nat} {x : Res}

-- ---------------------------------------------------------------------------
-- Calls on parameters
-- ---------------------------------------------------------------------------

/-- A call on the value of a parameter passes the error handle at most. -/
theorem fit_registerCall (hw : Fit conn w) (l : RegisterCall) :
    wp (l.exec p) (fun _ w' => Fit conn w') (fun _ w' => Fit conn w') w := by
  have hTalks : Respects (Keep (Fit conn)) (l.exec p) := by
    refine respects_registerCall (frame_keep _) (fun w rs hrs hw => ?_) l
      fun f _ _ => respects_keep fun w hw => hw.of_eq rfl rfl rfl
    refine hw.uses fun x hx => ?_
    rcases hrs with rfl | rfl
    · rw [hw.same] at hx
      exact hw.held (handle_of_mem_ptr (k := .error) hx)
    · exact absurd hx List.not_mem_nil
  exact wp_mono (hTalks w) (fun _ _ h => h hw) (fun _ _ h => h hw)

/-- The handle of a cursor of a statement that is held may be passed. -/
theorem Sound.serves_cursor (h : Sound w held) (hw : Fit conn w)
    (hHas : App.HasParam ⟨w, held⟩ s p) : Serves conn (w.params p).m_rsHandle w where
  fit := hw
  stmt _ hh := h.net_pos hHas.1 (paramOwned_sub_stmt hHas.2 (mem_owned_rsHandle hh))

/-- **`ToResultSet`** passes the handle of the cursor. -/
theorem fit_toResultSet (h : Sound w held) (hw : Fit conn w) (hHas : App.HasParam ⟨w, held⟩ s p) :
    wp (Parameter.toResultSet p) (fun _ w' => Fit conn w') (fun _ w' => Fit conn w') w := by
  rw [Parameter.toResultSet, wp_bind, wp_get]
  dsimp only
  rw [wp_ite]
  split
  · cases (w.params p).m_resultSet with
    | some r => exact hw
    | none =>
      dsimp only
      rw [wp_bind]
      refine wp_mono (fit_newResultSet (h.serves_cursor hw hHas) h.cursors FETCH_SIZE) ?_
        (fun _ _ h => h)
      intro r w₁ hOn
      have hServes : Serves conn ((w₁.cached p r).rsets r).m_rsHandle (w₁.cached p r) := by
        have hSame : Serves conn (w.params p).m_rsHandle (w₁.cached p r) :=
          hOn.serves.of_eq rfl rfl rfl
        rwa [← hOn.handle] at hSame
      rw [wp_bind, wp_modifyParam, wp_bind]
      exact wp_mono (reading_fetchRows r (w₁.cached p r)) (fun _ _ hR => (hR.serves hServes).fit)
        (fun _ _ hR => (hR.serves hServes).fit)
  · exact hw

/-- A `Next` that may fetch from the handle of its result set. -/
theorem fit_next (hw : Fit conn w)
    (hLive : (w.rsets r).Refills → ∀ h, (w.rsets r).m_rsHandle = some h →
      ¬ Released w.trace ⟨.stmt, h⟩) :
    wp (ResultSet.next r) (fun _ w' => Fit conn w') (fun _ w' => Fit conn w') w := by
  have hPassed : (w.rsets r).Refills → ∀ x ∈ ptr .stmt (w.rsets r).m_rsHandle ++
      ptr .error w.conn.m_errorHandle, ¬ Gone true w.trace x := by
    intro hRefills
    refine List.forall_mem_append.mpr ⟨fun x hx => ?_, fun x hx => ?_⟩
    · obtain ⟨hd, hh, rfl⟩ := List.mem_map.mp hx
      exact not_gone_stmt hw.rooted (fun _ he hReleased => hw.held (k := .env) he (.inl hReleased))
        (hLive hRefills hd (Option.mem_toList.mp hh))
    · rw [hw.same] at hx
      exact hw.held (handle_of_mem_ptr (k := .error) hx)
  have hAfter : ∀ {w'}, Reading r w w' → (∃ us : List Res, w'.trace = us.map .use ++ w.trace ∧
      ∀ x ∈ us, ¬ Gone true w.trace x) → Fit conn w' := by
    rintro w' hR ⟨us, hTrace, hus⟩
    exact (hw.uses hus).of_eq (by rw [hR.same]) (by rw [hR.same]) hTrace
  exact wp_mono (wp_next_passed hPassed) (fun _ _ h => hAfter h.1 h.2) (fun _ _ h => hAfter h.1 h.2)

/-- **`Next`** on the result set of a cursor parameter, which is on its handle. -/
theorem fit_cursorNext (h : Sound w held) (hw : Fit conn w) (hHas : App.HasParam ⟨w, held⟩ s p)
    (hReady : w.StmtReady s) :
    wp (Parameter.cursorNext p) (fun _ w' => Fit conn w') (fun _ w' => Fit conn w') w := by
  rw [Parameter.cursorNext, wp_bind, wp_get]
  cases hr : (w.params p).m_resultSet with
  | none => exact hw
  | some r =>
    dsimp only
    rw [wp_bind]
    refine fit_next hw fun _ hd hh => ?_
    rw [((hReady.parameters p hHas.2).cursor r hr).2] at hh
    exact not_released_of_net (h.minted.once _) ((h.serves_cursor hw hHas).stmt hd hh)

-- ---------------------------------------------------------------------------
-- A fetch passes its handle
-- ---------------------------------------------------------------------------

/-- The resources `rs` were passed since, among others. -/
def PassedOn (rs : List Res) (w w' : World) : Prop :=
  ∃ us : List Res, w'.trace = us.map .use ++ w.trace ∧ rs ⊆ us

theorem PassedOn.reading {rs : List Res} {w₁ : World} (hP : PassedOn rs w w₁)
    (hR : Reading r w₁ w') : PassedOn rs w w' := by
  obtain ⟨us, hTrace, hrs⟩ := hP
  obtain ⟨vs, hMore, -⟩ := hR.trace
  refine ⟨vs ++ us, ?_, fun x hx => List.mem_append_right _ (hrs hx)⟩
  rw [hMore, hTrace, List.map_append, List.append_assoc]

/-- `OCIStmtFetch` is passed the statement handle. -/
theorem passedOn_fetch (rs n : Nat) (handle error : Option Nat) :
    wp (ociStmtFetch rs handle error n) (fun _ w' => PassedOn (ptr .stmt handle) w w' ∧
      w'.conn = w.conn) (fun _ _ => True) w := by
  rw [ociStmtFetch, wp_bind, wp_pass, wp_bind, wp_answer]
  have hPassed : PassedOn (ptr .stmt handle) w
      { w with trace := (ptr .stmt handle ++ ptr .error error).map .use ++ w.trace } :=
    ⟨_, rfl, List.subset_append_left _ _⟩
  cases handle with
  | none => exact ⟨hPassed, rfl⟩
  | some h =>
    simp only [wp_bind, wp_get, wp_ite, wp_modify, wp_modifyStmtState, wp_logRead, wp_pure,
      ite_self]
    split
    · exact ⟨hPassed, trivial⟩
    · exact ⟨hPassed, trivial⟩

/-- A fetch passes the handle of the result set, whatever comes of it. -/
theorem passedOn_fetchRows (r : Nat) :
    wp (ResultSet.fetchRows r) (fun _ w' => PassedOn (ptr .stmt (w.rsets r).m_rsHandle) w w')
      (fun _ w' => PassedOn (ptr .stmt (w.rsets r).m_rsHandle) w w') w := by
  rw [ResultSet.fetchRows, wp_bind, wp_get]
  dsimp only
  rw [wp_bind]
  refine wp_mono (wp_and (passedOn_fetch r _ _ _) (reading_fetch (E := fun _ _ => False) r _))
    (fun result w₁ hFetched => ?_) (fun _ _ h => h.2.elim)
  obtain ⟨⟨hPassed, hConn⟩, -⟩ := hFetched
  rw [wp_ite]
  split
  · rw [wp_bind]
    refine wp_mono (reading_rowsCount r w₁) (fun rows w₂ hR => ?_)
      (fun _ _ hR => hPassed.reading hR)
    rw [wp_modifyRs]
    exact (hPassed.reading hR).reading (reading_counters w₂ _ _ _)
  · rw [← hConn]
    exact wp_mono (reading_throw (r := r) result none) (fun _ _ hR => hPassed.reading hR)
      (fun _ _ hR => hPassed.reading hR)

/-- A `Next` that fetches from a freed handle is not safe. -/
theorem not_safe_next (hRefills : (w.rsets r).Refills) (hh : (w.rsets r).m_rsHandle = some h)
    (hFreed : Released w.trace ⟨.stmt, h⟩) :
    wp (ResultSet.next r) (fun _ w' => ¬ Safe true w'.trace) (fun _ w' => ¬ Safe true w'.trace)
      w := by
  have hHandle : ((w.moved r).rsets r).m_rsHandle = some h := by
    simpa [World.moved, ResultSet.advanced] using hh
  have hUnsafe : ∀ {w'}, PassedOn (ptr .stmt ((w.moved r).rsets r).m_rsHandle) (w.moved r) w' →
      ¬ Safe true w'.trace := by
    rintro w' ⟨us, hTrace, hus⟩ hSafe
    rw [hTrace, safe_uses] at hSafe
    rw [hHandle] at hus
    exact hSafe.1 ⟨.stmt, h⟩ (hus (List.mem_singleton_self _)) (.inl hFreed)
  have hFetches : ((w.moved r).rsets r).m_rowsFetched ≤ ((w.moved r).rsets r).m_currentRow ∧
      ((w.moved r).rsets r).m_isEod = false := by
    simpa [World.moved, ResultSet.advanced, ResultSet.Refills] using hRefills
  refine wp_next (fun _ hEod => ?_) (fun _ _ => ?_) (fun hInside => ?_)
  · rw [hFetches.2] at hEod
    cases hEod
  · exact wp_mono (passedOn_fetchRows r) (fun _ _ h => hUnsafe h) (fun _ _ h => hUnsafe h)
  · exact absurd hFetches.1 (Nat.not_le_of_lt hInside)

-- ---------------------------------------------------------------------------
-- One call
-- ---------------------------------------------------------------------------

/-- The call is a `Next` that fetches from a handle that was freed. -/
def App.Dangles (a : App) : SessionCall → Prop
  | .call (.next r) => ⟨.resultSet, r⟩ ∈ a.held ∧ (a.w.rsets r).Refills ∧
      ∃ h ∈ (a.w.rsets r).m_rsHandle, Released a.w.trace ⟨.stmt, h⟩
  | _ => False

instance (a : App) (l : SessionCall) : Decidable (a.Dangles l) :=
  match l with
  | .call (.next r) => inferInstanceAs (Decidable (⟨.resultSet, r⟩ ∈ a.held ∧
      (a.w.rsets r).Refills ∧
        ∃ h ∈ (a.w.rsets r).m_rsHandle, .release ⟨.stmt, h⟩ true ∈ a.w.trace))
  | .call (.execute _) | .call (.prepare _) | .call (.select _ _) | .call (.bind _ _ _)
  | .call (.stmtExecute _) | .call (.stmtSelect _ _) | .call (.release _) | .register _ _ _
  | .toResultSet _ _ | .cursorNext _ _ => .isFalse id

/-- No call was passed a freed handle so far, and the objects held are in order. -/
structure App.Sheltered (conn : Connection) (a : App) : Prop where
  order : InOrder a.w a.held
  fit   : Fit conn a.w

/-- **One call** that does not dangle passes no freed handle. -/
theorem fit_call (hIn : InOrder w held) (hw : Fit conn w) {l : SessionCall}
    (hPermits : App.Permits ⟨w, held⟩ l) (hNot : ¬ App.Dangles ⟨w, held⟩ l) :
    wp l.run (fun _ w' => Fit conn w') (fun _ w' => Fit conn w') w := by
  have hSound := hIn.placed.sound
  cases l with
  | call l =>
    by_cases hUse : l.tearsDown = true
    · cases l with
      | next r =>
        rw [SessionCall.run, Call.run, wp_bind]
        exact fit_next hw fun hRefills h hh hFreed =>
          hNot ⟨hPermits _ rfl, hRefills, h, hh, hFreed⟩
      | release x =>
        have hx : x ∈ held := hPermits x rfl
        have hKind : x.kind = .statement ∨ x.kind = .resultSet ∨ x.kind = .parameter := by
          have hObject := hSound.kinds x hx
          obtain ⟨kind, id⟩ := x
          cases kind <;> simp [Kind.isObject] at hObject ⊢
        rw [SessionCall.run, Call.run, wp_bind]
        exact hw.releaseObj 0 hKind hSound.cursors ((List.nodup_flatMap.mp hSound.nodup).1 x hx)
          (fun y hy => hSound.id_lt (List.mem_flatMap.mpr ⟨x, hx, hy⟩))
          fun h hm => hSound.net_pos hx hm
      | _ => cases hUse
    · refine wp_mono (hw.call hSound l (fun x hx => hPermits x hx) (Bool.eq_false_iff.mpr hUse))
        (fun _ _ h => h.1) (fun _ _ h => h)
  | register s p l =>
    rw [SessionCall.run, wp_bind]
    exact fit_registerCall hw l
  | toResultSet s p =>
    rw [SessionCall.run, wp_bind]
    exact fit_toResultSet hSound hw hPermits
  | cursorNext s p =>
    rw [SessionCall.run, wp_bind]
    exact fit_cursorNext hSound hw hPermits (hIn.ready _ hPermits.1)

theorem App.Sheltered.serve {a : App} (h : a.Sheltered conn) {l : Served}
    (hNot : ¬ a.Dangles l.1) : (a.serve l).Sheltered conn := by
  refine ⟨h.order.serve l, ?_⟩
  have hw : Fit conn (a.w.answering l.2) := h.fit.of_eq rfl rfl rfl
  refine App.serve_of_wp (P := fun b => Fit conn b.w) (fun _ => h.fit) fun hPermits =>
    fit_call (h.order.answering l.2) hw hPermits fun hDangles => hNot ?_
  obtain ⟨l, o⟩ := l
  cases l with
  | call l => cases l <;> exact hDangles
  | _ => exact hDangles

/-- A call that dangles is not safe. -/
theorem App.Dangles.not_safe {a : App} {l : Served} (hDangles : a.Dangles l.1) :
    ¬ Safe true (a.serve l).w.trace := by
  obtain ⟨l, o⟩ := l
  cases l with
  | call l =>
    cases l with
    | next r =>
      obtain ⟨hHeld, hRefills, h, hh, hFreed⟩ := hDangles
      have hPermits : a.Permits (.call (.next r)) := by
        rintro x hx
        rwa [← Option.some.inj hx]
      refine App.serve_of_wp (P := fun b => ¬ Safe true b.w.trace)
        (fun hDenied => absurd hPermits hDenied) fun _ => ?_
      rw [SessionCall.run, Call.run, wp_bind]
      exact wp_mono (not_safe_next (w := a.w.answering o) hRefills hh hFreed) (fun _ _ h => h)
        (fun _ _ h => h)
    | _ => exact hDangles.elim
  | _ => exact hDangles.elim

-- ---------------------------------------------------------------------------
-- Sessions
-- ---------------------------------------------------------------------------

/-- **The handles a session passes.** A connection was opened and closed any number
of times before, no `Close` of these stranding its service context; then the
application makes any calls of a session, with any answers of OCI, catching what
they throw. No call to OCI is handed a handle that was freed before — neither by
binding, executing and reading parameters, nor through the result sets of cursor
parameters, nor by what a throwing constructor or a release cleans up — exactly
when no `Next` that has to fetch is made on a result set whose handle was freed
with its statement. -/
theorem session_handles_live_iff (cfg : Setting) (before : List ConnCall) (calls : List Served)
    (hBefore : AllSteps ConnRun.step ConnRun.NotStranding (ConnRun.start cfg) before) :
    AllStates App.serve (fun a => Safe true a.w.trace) (.opened cfg before) calls ↔
      AllSteps App.serve (fun a l => ¬ a.Dangles l.1) (.opened cfg before) calls := by
  have hFit : Fit (App.opened cfg before).w.conn (App.opened cfg before).w :=
    (Life.ok_start cfg hBefore).fit rfl
  exact allStates_iff_allSteps (I := App.Sheltered (App.opened cfg before).w.conn)
    (fun _ _ h hNot => h.serve hNot) (fun _ h => h.fit.safe)
    (fun _ _ _ hSafe hDangles => hDangles.not_safe hSafe)
    ⟨inOrder_opened cfg before, hFit⟩

/-- A cursor parameter is executed and walked over, the statement is selected, and
then released; the rows that were fetched are still read. -/
def cursorSession : List Served :=
  [(.call (.prepare (tstr "A")), allWell), (.call (.bind 5 (tstr "cRows") .unknown), allWell),
    (.call (.stmtExecute 5), allWell), (.toResultSet 5 7, allWell), (.cursorNext 5 7, allWell),
    (.call (.stmtSelect 5 2), allWell), (.call (.release ⟨.statement, 5⟩), allWell),
    (.call (.next 12), allWell)]

theorem session_handles_live_cursor :
    AllStates App.serve (fun a => Safe true a.w.trace)
      (.opened (.serving threeRows) [.open ⟨true, true, false⟩ allWell]) cursorSession :=
  (session_handles_live_iff (.serving threeRows) [.open ⟨true, true, false⟩ allWell] _
    ⟨fun _ ho => (nomatch ho), trivial⟩).mpr (by decide +kernel)

end Epol
