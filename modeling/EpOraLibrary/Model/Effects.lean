import EpOraLibrary.Model.Frames

/-!
# EpOraLibrary — what executions and fetches touch

* `wp_executePrepared` — an execution opens cursors, with numbers no cursor had
  before (`Executing`, `Reopened`), and changes nothing else.
* `reading_fetchRows`, `reading_next` — a fetch for a result set changes its
  counters, the slots of columns and how far the cursor has been read
  (`Reading`).
-/

namespace Epol

open Ledger Prog

variable {w w' : World}

-- ---------------------------------------------------------------------------
-- Executions
-- ---------------------------------------------------------------------------

section Cursors

variable {answers : Nat → Query} {o o₁ o₂ : Oci} {h : Nat}

/-- A new cursor was opened on the handle `h` between `o` and `o₁`. -/
structure Reopened (answers : Nat → Query) (o o₁ : Oci) (h : Nat) : Prop where
  after     : o.execs < (o₁.stmt h).exec
  counted   : (o₁.stmt h).exec ≤ o₁.execs
  query     : (o₁.stmt h).query = answers (o₁.stmt h).exec
  delivered : (o₁.stmt h).delivered = 0

/-- Cursors were opened, and nothing else happened. -/
structure Cursors (answers : Nat → Query) (o o₁ : Oci) : Prop where
  same   : o₁ = { o with stmt := o₁.stmt, execs := o₁.execs }
  kept   : ∀ h, (o₁.stmt h).binds = (o.stmt h).binds ∧ (o₁.stmt h).defines = (o.stmt h).defines
  execs  : o.execs ≤ o₁.execs
  handle : ∀ h, o₁.stmt h = o.stmt h ∨ Reopened answers o o₁ h

theorem Cursors.refl (answers : Nat → Query) (o : Oci) : Cursors answers o o :=
  ⟨rfl, fun _ => ⟨rfl, rfl⟩, Nat.le_refl _, fun _ => .inl rfl⟩

theorem Reopened.later (h₁ : Cursors answers o o₁) (h₂ : Reopened answers o₁ o₂ h) :
    Reopened answers o o₂ h :=
  ⟨Nat.lt_of_le_of_lt h₁.execs h₂.after, h₂.counted, h₂.query, h₂.delivered⟩

/-- What was reopened stays so, maybe by yet another cursor. -/
theorem Reopened.cursors (h₁ : Reopened answers o o₁ h) (hw : Cursors answers o o₁)
    (h₂ : Cursors answers o₁ o₂) : Reopened answers o o₂ h := by
  rcases h₂.handle h with hEq | hNew
  · exact ⟨hEq ▸ h₁.after, hEq ▸ Nat.le_trans h₁.counted h₂.execs, hEq ▸ h₁.query,
      hEq ▸ h₁.delivered⟩
  · exact hNew.later hw

theorem Cursors.trans (h₁ : Cursors answers o o₁) (h₂ : Cursors answers o₁ o₂) :
    Cursors answers o o₂ where
  same := by rw [h₂.same, h₁.same]
  kept h := ⟨(h₂.kept h).1.trans (h₁.kept h).1, (h₂.kept h).2.trans (h₁.kept h).2⟩
  execs := Nat.le_trans h₁.execs h₂.execs
  handle h := by
    rcases h₁.handle h with hEq | hOld
    · rcases h₂.handle h with hEq' | hNew
      · exact .inl (hEq'.trans hEq)
      · exact .inr (hNew.later h₁)
    · exact .inr (hOld.cursors h₁ h₂)

end Cursors

section Execute

variable {E : OraError → World → Prop}

theorem wp_openCursor (h : Nat) :
    wp (openCursor h) (fun _ w' => w' = { w with oci := w'.oci } ∧
      Cursors w.cfg.answers w.oci w'.oci ∧ Reopened w.cfg.answers w.oci w'.oci h) E w := by
  have hNew : Reopened w.cfg.answers w.oci { w.oci with
      execs := w.oci.execs + 1
      stmt := Function.update w.oci.stmt h { w.oci.stmt h with
        exec := w.oci.execs + 1
        query := w.cfg.answers (w.oci.execs + 1)
        delivered := 0 } } h := by
    constructor <;> simp
  refine ⟨rfl, ⟨rfl, fun h' => ?_, Nat.le_succ _, fun h' => ?_⟩, hNew⟩
  · by_cases hh : h' = h
    · subst hh
      simp
    · simp [hh]
  · by_cases hh : h' = h
    · subst hh
      exact .inr hNew
    · exact .inl (Function.update_of_ne hh ..)

/-- Every cursor bound to a parameter is opened. -/
theorem wp_openBounds (binds : List (TString × Registration)) :
    wp (binds.forM fun e => openBound e.2) (fun _ w' => w' = { w with oci := w'.oci } ∧
      Cursors w.cfg.answers w.oci w'.oci ∧ ∀ e ∈ binds, ∀ p h, e.2.valuep = .rsHandle p →
        (w.params p).m_rsHandle = some h → Reopened w.cfg.answers w.oci w'.oci h) E w := by
  refine wp_forM (fun done (w₁ : World) => w₁ = { w with oci := w₁.oci } ∧
    Cursors w.cfg.answers w.oci w₁.oci ∧ ∀ e ∈ done, ∀ p h, e.2.valuep = .rsHandle p →
      (w.params p).m_rsHandle = some h → Reopened w.cfg.answers w.oci w₁.oci h) binds
    (fun done e rest w₁ _ ⟨hSame, hC, hDone⟩ => ?_) ⟨rfl, .refl _ _, fun _ he => nomatch he⟩
  have hLast : ∀ w₂ : World, w₂ = { w with oci := w₂.oci } →
      Cursors w.cfg.answers w.oci w₂.oci → Cursors w.cfg.answers w₁.oci w₂.oci →
      (∀ p h, e.2.valuep = .rsHandle p → (w.params p).m_rsHandle = some h →
        Reopened w.cfg.answers w.oci w₂.oci h) →
      w₂ = { w with oci := w₂.oci } ∧ Cursors w.cfg.answers w.oci w₂.oci ∧
        ∀ e' ∈ done ++ [e], ∀ p h, e'.2.valuep = .rsHandle p →
          (w.params p).m_rsHandle = some h → Reopened w.cfg.answers w.oci w₂.oci h := by
    refine fun w₂ hSame₂ hC₂ hStep hNew => ⟨hSame₂, hC₂, fun e' he' p h hp hh => ?_⟩
    rcases List.mem_append.mp he' with he' | he'
    · exact (hDone e' he' p h hp hh).cursors hC hStep
    · rw [List.mem_singleton.mp he'] at hp
      exact hNew p h hp hh
  have hParams : w₁.params = w.params := by rw [hSame]
  have hCfg : w₁.cfg = w.cfg := by rw [hSame]
  rw [openBound, wp_bind, wp_get, hParams]
  cases hAddr : e.2.valuep with
  | rsHandle p =>
    dsimp only
    cases hHandle : (w.params p).m_rsHandle with
    | none =>
      refine hLast w₁ hSame hC (.refl _ _) fun p' h hp' hh => ?_
      obtain rfl := Addr.rsHandle.inj (hAddr.symm.trans hp')
      rw [hHandle] at hh
      cases hh
    | some h =>
      refine wp_mono (wp_openCursor h) (fun _ w₂ ⟨hSame₂, hC₂, hNew⟩ => ?_) (fun _ _ h => h)
      rw [hCfg] at hC₂ hNew
      refine hLast w₂ (by rw [hSame₂, hSame]) (hC.trans hC₂) hC₂ fun p' h' hp' hh' => ?_
      obtain rfl := Addr.rsHandle.inj (hAddr.symm.trans hp')
      obtain rfl := Option.some.inj (hHandle.symm.trans hh')
      exact hNew.later hC
  | buffer => exact hLast w₁ hSame hC (.refl _ _) fun p h hp => by rw [hAddr] at hp; cases hp
  | indicator => exact hLast w₁ hSame hC (.refl _ _) fun p h hp => by rw [hAddr] at hp; cases hp
  | dataLen => exact hLast w₁ hSame hC (.refl _ _) fun p h hp => by rw [hAddr] at hp; cases hp

/-- The cursors that an execution of the handle `h` opens are open. -/
def World.AllReopened (w w' : World) (h : Nat) : Prop :=
  Reopened w.cfg.answers w.oci w'.oci h ∧ ∀ e ∈ (w.oci.stmt h).binds, ∀ p hc,
    e.2.valuep = .rsHandle p → (w.params p).m_rsHandle = some hc →
      Reopened w.cfg.answers w.oci w'.oci hc

theorem wp_ociStmtExecute (svc stmt error : Option Nat) :
    wp (ociStmtExecute svc stmt error) (fun result w' =>
      w' = { w with
        oci := w'.oci
        trace := (ptr .svcctx svc ++ ptr .stmt stmt ++ ptr .error error).map .use ++ w.trace } ∧
      Cursors w.cfg.answers w.oci w'.oci ∧
      (result = .success → ∀ h, stmt = some h → w.AllReopened w' h)) E w := by
  simp only [ociStmtExecute, wp_bind, wp_pass, wp_answer]
  rw [wp_ite]
  split
  · cases stmt with
    | none => exact ⟨rfl, .refl _ _, fun _ h hh => nomatch hh⟩
    | some h =>
      simp only [wp_bind]
      refine wp_mono (wp_openCursor h) (fun _ w₁ ⟨hSame₁, hC₁, hNew⟩ => ?_) (fun _ _ h => h)
      have hCfg : w₁.cfg = w.cfg := by rw [hSame₁]
      have hParams : w₁.params = w.params := by rw [hSame₁]
      rw [wp_get]
      refine wp_mono (wp_openBounds _) (fun _ w₂ ⟨hSame₂, hC₂, hBound⟩ => ?_) (fun _ _ h => h)
      rw [hCfg] at hC₂
      refine ⟨by rw [hSame₂, hSame₁], hC₁.trans hC₂, fun _ h' hh' => ?_⟩
      obtain rfl := Option.some.inj hh'
      refine ⟨hNew.cursors hC₁ hC₂, fun e he p hc hp hHandle => ?_⟩
      rw [← (hC₁.kept h).1] at he
      rw [hCfg, hParams] at hBound
      exact (hBound e he p hc hp hHandle).later hC₁
  · rename_i hDone
    refine ⟨rfl, .refl _ _, fun hSuccess => ?_⟩
    rw [hSuccess] at hDone
    exact absurd rfl hDone

end Execute

/-- The statement `s` was executed, or an attempt was made. -/
structure Executing (s : Nat) (w w' : World) : Prop where
  same  : w' = { w with stmts := w'.stmts, oci := w'.oci, trace := w'.trace }
  stmts : w'.stmts = Function.update w.stmts s
    { w.stmts s with m_isExecuted := (w'.stmts s).m_isExecuted }
  oci   : Cursors w.cfg.answers w.oci w'.oci
  trace : Passed (ptr .svcctx w.conn.m_svcContextHandle ++ ptr .stmt (w.stmts s).m_stmtHandle ++
    ptr .error w.conn.m_errorHandle) w.trace w'.trace

/-- **An execution** opens a cursor on the handle of the statement and on every
one bound to a parameter. -/
theorem wp_executePrepared (s : Nat) :
    wp (Statement.executePrepared s)
      (fun _ w' => Executing s w w' ∧ ∀ h, (w.stmts s).m_stmtHandle = some h → w.AllReopened w' h)
      (fun _ w' => Executing s w w') w := by
  rw [Statement.executePrepared, wp_bind, wp_get, wp_bind]
  refine wp_mono (wp_ociStmtExecute _ _ _) (fun result w₁ ⟨hSame, hC, hOpened⟩ => ?_)
    (fun _ _ h => h)
  have hPassed := passed_uses w.trace (List.Subset.refl (ptr .svcctx w.conn.m_svcContextHandle ++
    ptr .stmt (w.stmts s).m_stmtHandle ++ ptr .error w.conn.m_errorHandle))
  rw [wp_ite]
  split
  · rename_i hSuccess
    rw [wp_modifyStmt]
    refine ⟨⟨?_, ?_, hC, ?_⟩, hOpened hSuccess⟩
    · rw [hSame]
    · rw [hSame]
      simp
    · rw [hSame]
      exact hPassed
  · refine wp_throwOnError fun rs hrs => ⟨?_, ?_, hC, ?_⟩
    · rw [hSame]
    · rw [hSame]
      simp
    · rw [hSame]
      refine hPassed.trans (passed_uses _ ?_)
      rcases hrs with rfl | rfl
      · exact List.subset_append_right _ _
      · exact List.nil_subset _

-- ---------------------------------------------------------------------------
-- Fetches
-- ---------------------------------------------------------------------------

/-- The event is a read for the result set `r`, of the cursor its handle is on
and into the buffers its handle is defined on. -/
def ReadEvent.OnBehalf (w : World) (r : Nat) (e : ReadEvent) : Prop :=
  ∃ h, (w.rsets r).m_rsHandle = some h ∧ (e = .rowCount r (w.oci.stmt h).exec ∨
    ∃ wrote, wrote ⊆ (w.oci.stmt h).targets ∧ e = .fetch r (w.oci.stmt h).exec wrote)

/-- Rows may have been fetched for the result set `r`. -/
structure Reading (r : Nat) (w w' : World) : Prop where
  same  : w' = { w with
    rsets := w'.rsets
    cols := w'.cols
    oci := w'.oci
    trace := w'.trace }
  rsets : w'.rsets = Function.update w.rsets r { w.rsets r with
    m_currentRow := (w'.rsets r).m_currentRow
    m_rowsFetched := (w'.rsets r).m_rowsFetched
    m_isEod := (w'.rsets r).m_isEod }
  cols  : ∀ c, w'.cols c = { w.cols c with slots := (w'.cols c).slots }
  oci   : w'.oci = { w.oci with stmt := w'.oci.stmt, log := w'.oci.log }
  stmt  : ∀ h, w'.oci.stmt h = { w.oci.stmt h with delivered := (w'.oci.stmt h).delivered }
  log   : ∃ new, w'.oci.log = new ++ w.oci.log ∧ ∀ e ∈ new, ReadEvent.OnBehalf w r e
  trace : Passed (ptr .stmt (w.rsets r).m_rsHandle ++ ptr .error w.conn.m_errorHandle)
    w.trace w'.trace

section Reading

variable {r : Nat}

theorem Reading.handle (h : Reading r w w') :
    (w'.rsets r).m_rsHandle = (w.rsets r).m_rsHandle := by
  rw [h.rsets, Function.update_self]

/-- What is read on behalf of `r` is the same before and after a read. -/
theorem Reading.onBehalf (h : Reading r w w') {e : ReadEvent} (he : e.OnBehalf w' r) :
    e.OnBehalf w r := by
  obtain ⟨hd, hHandle, he⟩ := he
  have hStmt := h.stmt hd
  refine ⟨hd, h.handle ▸ hHandle, ?_⟩
  rw [hStmt] at he
  exact he

theorem frame_reading (r : Nat) : Frame (Reading r) where
  refl w := by
    refine ⟨rfl, ?_, fun _ => rfl, rfl, fun _ => rfl, ⟨[], rfl, fun _ he => nomatch he⟩, .refl _ _⟩
    exact (Function.update_eq_self r w.rsets).symm
  trans {s t u} hst htu := by
    have hHandle := hst.handle
    refine ⟨by rw [htu.same, hst.same], ?_, fun c => ?_, by rw [htu.oci, hst.oci], fun h => ?_,
      ?_, ?_⟩
    · rw [htu.rsets, hst.rsets]
      simp
    · rw [htu.cols, hst.cols]
    · rw [htu.stmt, hst.stmt]
    · obtain ⟨new₁, hLog₁, hNew₁⟩ := hst.log
      obtain ⟨new₂, hLog₂, hNew₂⟩ := htu.log
      refine ⟨new₂ ++ new₁, by rw [hLog₂, hLog₁, List.append_assoc], fun e he => ?_⟩
      rcases List.mem_append.mp he with he | he
      · exact hst.onBehalf (hNew₂ e he)
      · exact hNew₁ e he
    · have hConn : t.conn = s.conn := by rw [hst.same]
      have hTrace := htu.trace
      rw [hHandle, hConn] at hTrace
      exact hst.trace.trans hTrace

/-- Handles that belong to the result set and its connection are passed. -/
theorem reading_uses (w : World) {rs : List Res}
    (h : rs ⊆ ptr .stmt (w.rsets r).m_rsHandle ++ ptr .error w.conn.m_errorHandle) :
    Reading r w { w with trace := rs.map .use ++ w.trace } :=
  { (frame_reading r).refl w with
    same := rfl
    trace := passed_uses _ h }

/-- A read is put on record. -/
theorem reading_log (w : World) {e : ReadEvent} (he : e.OnBehalf w r) :
    Reading r w { w with oci := { w.oci with log := e :: w.oci.log } } :=
  { (frame_reading r).refl w with
    same := rfl
    oci := rfl
    log := ⟨[e], rfl, fun e' he' => by rw [List.mem_singleton.mp he']; exact he⟩ }

/-- The counters of the result set change. -/
theorem reading_counters (w : World) (current fetched : Nat) (eod : Bool) :
    Reading r w { w with rsets := Function.update w.rsets r { w.rsets r with
      m_currentRow := current, m_rowsFetched := fetched, m_isEod := eod } } :=
  { (frame_reading r).refl w with
    same := rfl
    rsets := by simp }

/-- Rows are delivered from the cursor of the result set. -/
theorem reading_deliver (w : World) {h : Nat} (hHandle : (w.rsets r).m_rsHandle = some h) (k : Nat)
    {wrote : List Nat} (hWrote : wrote ⊆ (w.oci.stmt h).targets) :
    Reading r w { w with
      cols := fun c => { w.cols c with slots := (w.oci.stmt h).deliver k c (w.cols c).slots }
      oci := { w.oci with
        stmt := Function.update w.oci.stmt h
          { w.oci.stmt h with delivered := (w.oci.stmt h).delivered + k }
        log := .fetch r (w.oci.stmt h).exec wrote :: w.oci.log } } :=
  { (frame_reading r).refl w with
    same := rfl
    cols := fun _ => rfl
    oci := rfl
    stmt := fun h' => by
      by_cases hh : h' = h
      · subst hh
        simp
      · simp [hh]
    log := ⟨[_], rfl, fun e he => by
      rw [List.mem_singleton.mp he]
      exact ⟨h, hHandle, .inr ⟨wrote, hWrote, rfl⟩⟩⟩ }

variable {E : OraError → World → Prop}

theorem reading_fetch (r n : Nat) :
    wp (ociStmtFetch r (w.rsets r).m_rsHandle w.conn.m_errorHandle n)
      (fun _ w' => Reading r w w') E w := by
  have hUses := reading_uses (r := r) w (List.Subset.refl _)
  rw [ociStmtFetch, wp_bind, wp_pass, wp_bind, wp_answer]
  cases hHandle : (w.rsets r).m_rsHandle with
  | none =>
    rw [hHandle] at hUses
    exact hUses
  | some h =>
    rw [hHandle] at hUses
    simp only [wp_bind, wp_get, wp_ite, wp_modify, wp_modifyStmtState, wp_logRead, wp_pure,
      ite_self]
    split
    · refine (frame_reading r).trans hUses (reading_deliver _ (by exact hHandle) _ ?_)
      split
      · exact List.Subset.refl _
      · exact List.nil_subset _
    · refine (frame_reading r).trans hUses (reading_log _ ⟨h, hHandle, .inr ⟨[], ?_, rfl⟩⟩)
      exact List.nil_subset _

theorem reading_throw {α : Type} (result : OciResult) (format : Option TString) :
    wp (throwOnError result w.conn.m_errorHandle format : M α) (fun _ w' => Reading r w w')
      (fun _ w' => Reading r w w') w := by
  refine wp_throwOnError fun rs hrs => reading_uses w ?_
  rcases hrs with rfl | rfl
  · exact List.subset_append_right _ _
  · exact List.nil_subset _

theorem reading_rowsCount (r : Nat) : Respects (Reading r) (ResultSet.rowsCount r) := by
  refine respects_get_bind fun w => ?_
  have hUses := reading_uses (r := r) w (List.Subset.refl _)
  rw [wp_bind]
  refine wp_mono (Q := fun _ w' => Reading r w w' ∧ w'.conn = w.conn) (E := fun _ _ => False) ?_
    (fun ⟨result, count⟩ w' ⟨hw', hConn⟩ => ?_) (fun _ _ hFalse => hFalse.elim)
  · rw [ociRowCount, ociStmtAttrGet, wp_bind, wp_bind, wp_pass, wp_answer]
    cases hHandle : (w.rsets r).m_rsHandle with
    | none =>
      rw [hHandle] at hUses
      exact ⟨hUses, rfl⟩
    | some h =>
      rw [hHandle] at hUses
      dsimp only
      rw [wp_ite]
      split
      · exact ⟨(frame_reading r).trans hUses (reading_log _ ⟨h, hHandle, .inl rfl⟩), rfl⟩
      · exact ⟨hUses, rfl⟩
  · dsimp only
    rw [wp_ite]
    split
    · exact hw'
    · rw [← hConn]
      exact wp_mono (reading_throw result none) (fun _ _ h => (frame_reading r).trans hw' h)
        (fun _ _ h => (frame_reading r).trans hw' h)

/-- **A fetch** for `r` touches nothing but what `Reading` says. -/
theorem reading_fetchRows (r : Nat) : Respects (Reading r) (ResultSet.fetchRows r) := by
  refine respects_get_bind fun w => ?_
  dsimp only
  rw [wp_bind]
  refine wp_mono (reading_fetch r _) (fun result w' hw' => ?_) (fun _ _ h => h)
  have hConn : w'.conn = w.conn := by rw [hw'.same]
  rw [wp_ite]
  split
  · rw [wp_bind]
    refine wp_mono (reading_rowsCount r w') (fun rows w'' hw'' => ?_)
      (fun _ _ h => (frame_reading r).trans hw' h)
    rw [wp_modifyRs]
    exact (frame_reading r).trans ((frame_reading r).trans hw' hw'') (reading_counters w'' _ _ _)
  · rw [← hConn]
    exact wp_mono (reading_throw result none) (fun _ _ h => (frame_reading r).trans hw' h)
      (fun _ _ h => (frame_reading r).trans hw' h)

theorem reading_moved (w : World) (r : Nat) : Reading r w (w.moved r) :=
  reading_counters w _ _ _

/-- So does a `Next`. -/
theorem reading_next (r : Nat) : Respects (Reading r) (ResultSet.next r) := by
  intro w
  refine wp_next (fun _ _ => reading_moved w r) (fun _ _ => ?_) (fun _ => reading_moved w r)
  exact wp_mono (reading_fetchRows r _) (fun _ _ h => (frame_reading r).trans (reading_moved w r) h)
    (fun _ _ h => (frame_reading r).trans (reading_moved w r) h)

end Reading

end Epol
