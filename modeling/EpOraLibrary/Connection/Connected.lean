import EpOraLibrary.Connection.Runs

/-!
# EpOraLibrary — what `IsConnected` tells

`m_isOpened` is written at the very end of `Open` and of `Close`, while what
it stands for changes step by step in between.

* `ConnRun.Truthful` — the flags say no more than what is there.
* `ConnRun.Whole` — the `Close` calls that end the session and get through, or
  do not end it.
* `connected_truthful_iff` — **every state of a run is truthful exactly when
  all its `Close` calls are whole.**
* `half_closed_reports_connected` — a run with one that is not.
-/

namespace Epol

open Ledger Prog Runs

variable {c : Bool}

/-- A connected object has all its handles, live, with the server attached and
the session begun, in the mode of the last `Open`; only a connected object is
blocking. -/
structure ConnRun.Truthful (c : Bool) (s : ConnRun) : Prop where
  handles  : s.w.conn.m_isOpened = true → ∀ k : Kind, k.rank < 5 →
    ∃ p, s.w.conn.handle k = some p ∧ ¬ Gone c s.w.trace ⟨k, p⟩
  attached : s.w.conn.m_isOpened = true →
    ∃ p, s.w.conn.m_serverHandle = some p ∧ s.w.oci.attached p = true
  begun    : s.w.conn.m_isOpened = true →
    ∃ p, s.w.conn.m_sessionHandle = some p ∧ s.w.oci.begun p = true
  mode     : s.w.conn.m_isOpened = true → s.w.conn.m_isBlocking = !s.mode
  blocking : s.w.conn.m_isBlocking = true → s.w.conn.m_isOpened = true

/-- A `Close` of a connected object is whole when it does not end the session,
or all its releases succeed. -/
def ConnRun.Whole (s : ConnRun) (l : ConnCall) : Prop :=
  ∀ o, l = .close o → s.w.conn.m_isOpened = true →
    (o .sessionEnd).done = false ∨
    o .sessionEnd = .success ∧ o .serverDetach = .success ∧
      ∀ k p, s.w.conn.handle k = some p → o (.handleFree ⟨k, p⟩) = .success

variable {s : ConnRun}

theorem ConnRun.Truthful.of_closed (hOpened : s.w.conn.m_isOpened = false)
    (hBlocking : s.w.conn.m_isBlocking = false) : s.Truthful c where
  handles h := by rw [hOpened] at h; cases h
  attached h := by rw [hOpened] at h; cases h
  begun h := by rw [hOpened] at h; cases h
  mode h := by rw [hOpened] at h; cases h
  blocking h := by rw [hBlocking] at h; cases h

/-- `Open` leaves a truthful state, whatever happens in it. -/
theorem ConnRun.Truthful.open (h : s.Truthful c) (args : OpenArgs) (o : OciCall → OciResult)
    (hOk : HandlesOk c False s.w.conn s.w.fresh s.w.trace) :
    (s.step (.open args o)).Truthful c := by
  rw [ConnRun.step]
  split
  · exact h
  · rename_i hClosed
    have hOpen := wp_openWith (w := s.w.answering o) hOk args
    split
    · rename_i w' hRun
      obtain ⟨-, hOpened, hBlocking, hLive, hAttached, hBegun⟩ := of_wp_ok hOpen hRun
      obtain ⟨sv, hsv, -⟩ := hLive .server (by decide)
      obtain ⟨u, hu, -⟩ := hLive .session (by decide)
      exact ⟨fun _ => hLive, fun _ => ⟨sv, hsv, hAttached sv hsv⟩,
        fun _ => ⟨u, hu, hBegun u hu⟩, fun _ => hBlocking, fun _ => hOpened⟩
    · rename_i w' hRun
      have hFailed := of_wp_error hOpen hRun
      have hClosed : s.w.conn.m_isOpened = false := Bool.eq_false_iff.mpr hClosed
      refine .of_closed (hFailed.opened.trans hClosed) (hFailed.blocking.trans ?_)
      exact Bool.eq_false_iff.mpr fun hb => by
        rw [h.blocking hb] at hClosed
        cases hClosed

/-- The result with which the frees of a connected object begin. -/
theorem ConnRun.Truthful.sessionResult (h : s.Truthful c) (hOpened : s.w.conn.m_isOpened = true)
    (o : OciCall → OciResult) : (s.w.answering o).Talks ∧ (s.w.answering o).sessionResult =
      if o .sessionEnd = .success then o .serverDetach else o .sessionEnd := by
  obtain ⟨v, hv, -⟩ := h.handles hOpened .svcctx (by decide)
  obtain ⟨e, he, -⟩ := h.handles hOpened .error (by decide)
  obtain ⟨u, hu, -⟩ := h.handles hOpened .session (by decide)
  have hTalks : (s.w.answering o).Talks :=
    ⟨Option.isSome_iff_exists.mpr ⟨v, hv⟩, Option.isSome_iff_exists.mpr ⟨e, he⟩⟩
  have hSession : (s.w.answering o).conn.m_sessionHandle.isSome :=
    Option.isSome_iff_exists.mpr ⟨u, hu⟩
  refine ⟨hTalks, ?_⟩
  rw [World.sessionResult, if_pos hTalks]
  by_cases hEnd : o .sessionEnd = .success
  · rw [if_pos hEnd, if_neg fun hh => hh.2 hEnd]
    rfl
  · rw [if_neg hEnd, if_pos ⟨hSession, hEnd⟩]
    rfl

/-- A whole `Close` leaves a truthful state. -/
theorem ConnRun.Truthful.close (h : s.Truthful c) (o : OciCall → OciResult)
    (hOk : HandlesOk c False s.w.conn s.w.fresh s.w.trace) (hWhole : s.Whole (.close o)) :
    (s.step (.close o)).Truthful c := by
  obtain ⟨r, w₁, -, hClosed, -, -, -, hExec⟩ :=
    exec_close (w := s.w.answering o) hOk fun (hFalse : False) => hFalse.elim
  cases hOpened : s.w.conn.m_isOpened with
  | false =>
    have hBlocking : s.w.conn.m_isBlocking = false := Bool.eq_false_iff.mpr fun hb => by
      rw [h.blocking hb] at hOpened
      cases hOpened
    refine .of_closed ?_ ?_
    · rw [ConnRun.step, hExec]
      split
      · rfl
      · exact hClosed.opened.trans hOpened
    · rw [ConnRun.step, hExec]
      split
      · rfl
      · exact hClosed.blocking.trans hBlocking
  | true =>
    obtain ⟨hTalks, hResult⟩ := h.sessionResult hOpened o
    rcases hWhole o rfl hOpened with hEnd | ⟨hEnd, hDetach, hFree⟩
    · -- the session is not ended, so nothing else happens
      have hEnd' : o .sessionEnd ≠ .success := fun heq => by
        rw [heq] at hEnd
        cases hEnd
      rw [if_neg hEnd'] at hResult
      have hStuck : (s.w.answering o).sessionResult ≠ .success := hResult ▸ hEnd'
      obtain ⟨hConn, hReleased⟩ := hClosed.stuck hStuck
      have hConn : w₁.conn = s.w.conn := hConn
      have hGone : ∀ x, Gone c w₁.trace x → Gone c s.w.trace x := by
        rintro x (hx | ⟨hc, q, hq, hr⟩)
        · exact .inl ((hReleased x).mp hx)
        · exact .inr ⟨hc, q, (hClosed.acquired x _).mp hq, (hReleased q).mp hr⟩
      have hBegun : w₁.oci.begun = s.w.oci.begun := hClosed.begun.trans
        (if_neg fun hh => Bool.false_ne_true (hEnd.symm.trans hh.2.2))
      have hAttached : w₁.oci.attached = s.w.oci.attached := hClosed.attached.trans
        (if_neg fun hh => hEnd' (hh.2.1 (by
          obtain ⟨u, hu, -⟩ := h.begun hOpened
          exact Option.isSome_iff_exists.mpr ⟨u, hu⟩)))
      rw [ConnRun.step, hExec, if_neg fun hr => hStuck (hClosed.result.mp hr).1]
      refine ⟨fun _ k hk => ?_, fun _ => ?_, fun _ => ?_, fun _ => ?_, fun hb => ?_⟩
      · obtain ⟨p, hp, hLive⟩ := h.handles hOpened k hk
        exact ⟨p, (congrArg (·.handle k) hConn).trans hp, fun hx => hLive (hGone _ hx)⟩
      · obtain ⟨p, hp, hOn⟩ := h.attached hOpened
        exact ⟨p, (congrArg (·.m_serverHandle) hConn).trans hp, (congrFun hAttached p).trans hOn⟩
      · obtain ⟨p, hp, hOn⟩ := h.begun hOpened
        exact ⟨p, (congrArg (·.m_sessionHandle) hConn).trans hp, (congrFun hBegun p).trans hOn⟩
      · exact (congrArg (·.m_isBlocking) hConn).trans (h.mode hOpened)
      · exact (congrArg (·.m_isOpened) hConn).trans hOpened
    · have hr : r = .success := by
        rw [if_pos hEnd] at hResult
        exact hClosed.result.mpr ⟨hResult.trans hDetach, hFree⟩
      refine .of_closed ?_ ?_
      · rw [ConnRun.step, hExec, if_pos hr]
      · rw [ConnRun.step, hExec, if_pos hr]

/-- A `Close` that ends the session and then fails leaves an object that
reports being connected without a session. -/
theorem ConnRun.Truthful.whole_of_close (h : s.Truthful c) (o : OciCall → OciResult)
    (hOk : HandlesOk c False s.w.conn s.w.fresh s.w.trace)
    (hAfter : (s.step (.close o)).Truthful c) : s.Whole (.close o) := by
  rintro o' ho hOpened
  obtain rfl : o = o' := by injection ho
  obtain ⟨r, w₁, -, hClosed, -, -, -, hExec⟩ :=
    exec_close (w := s.w.answering o) hOk fun (hFalse : False) => hFalse.elim
  obtain ⟨hTalks, hResult⟩ := h.sessionResult hOpened o
  cases hEnd : (o .sessionEnd).done with
  | false => exact .inl rfl
  | true =>
    have hr : r = .success := by
      by_contra hr
      rw [ConnRun.step, hExec, if_neg hr] at hAfter
      obtain ⟨u, hu, hOn⟩ := hAfter.begun (hClosed.opened.trans hOpened)
      -- the session of the field was ended
      have hu₀ : s.w.conn.m_sessionHandle = some u := hClosed.shrunk (k := .session) hu
      have hOff : w₁.oci.begun u = false := by
        rw [hClosed.begun, if_pos ⟨hTalks, Option.isSome_iff_exists.mpr ⟨u, hu₀⟩, hEnd⟩]
        show setFlag _ s.w.conn.m_sessionHandle false u = false
        rw [hu₀]
        exact Function.update_self ..
      rw [hOff] at hOn
      cases hOn
    obtain ⟨hGood, hFree⟩ := hClosed.result.mp hr
    rw [hResult] at hGood
    split at hGood
    · rename_i hSuccess
      exact .inr ⟨hSuccess, hGood, hFree⟩
    · rename_i hFail
      exact absurd hGood hFail

/-- **When `IsConnected` tells the truth.** All states of a run of `Open` and
`Close`, whatever the outcomes, are truthful if and only if every `Close` of a
connected object that ends the session gets all its other releases done. -/
theorem connected_truthful_iff (cfg : Setting) (calls : List ConnCall) :
    AllStates ConnRun.step (ConnRun.Truthful c) (ConnRun.start cfg) calls ↔
      AllSteps ConnRun.step ConnRun.Whole (ConnRun.start cfg) calls := by
  refine allStates_iff_allSteps (I := fun s : ConnRun =>
    s.Truthful c ∧ HandlesOk c False s.w.conn s.w.fresh s.w.trace) ?_ (fun _ h => h.1) ?_
    ⟨.of_closed rfl rfl, handlesOk_start cfg⟩
  · rintro s l ⟨h, hOk⟩ hWhole
    refine ⟨?_, s.step_handlesOk l hOk fun hFalse => hFalse.elim⟩
    cases l with
    | «open» args o => exact h.open args o hOk
    | close o => exact h.close o hOk hWhole
  · rintro s l ⟨h, hOk⟩ hAfter
    cases l with
    | «open» args o => exact fun _ ho => nomatch ho
    | close o => exact h.whole_of_close o hOk hAfter

/-- `Open`, then a `Close` that ends the session but cannot detach the server. -/
def halfClosedRun : List ConnCall :=
  [.open ⟨true, true, false⟩ (failing fun _ => false), .close (failing (· = .serverDetach))]

/-- The object still reports being connected, though its session is ended. -/
theorem half_closed_reports_connected :
    let s := run ConnRun.step (ConnRun.start .plain) halfClosedRun
    s.w.conn.m_isOpened = true ∧ ¬ s.Truthful false := by
  refine ⟨by decide, fun h => ?_⟩
  have hBegun := h.begun (by decide)
  revert hBegun
  decide

end Epol
