import EpOraLibrary.Session.Footprint

/-!
# EpOraLibrary — what making an object changes

* `touches_newResultSet`, `touches_selectWith` — the constructor of a result
  set and `Select`: the columns are new, and defined on the handle of their
  result set.
* `touches_newStatement`, `touches_execute` — the constructor of a statement.
* `touches_statementBind`, `touches_toResultSet` — those of parameters and of
  their result sets.
-/

namespace Epol

open Ledger Prog

variable {w w' w₁ w₂ : World} {n s p r h : Nat} {T : Place → Prop}

-- ---------------------------------------------------------------------------
-- Result sets
-- ---------------------------------------------------------------------------

/-- What is defined from `w` to `w'` is a new column. -/
structure NewDefines (n : Nat) (w w' : World) : Prop where
  fresh   : w.fresh ≤ w'.fresh
  defines : ∀ h pos c, (w'.oci.stmt h).defines pos = some c →
    (w.oci.stmt h).defines pos = some c ∨ n ≤ c ∧ c < w'.fresh

theorem frame_newDefines (n : Nat) : Frame (NewDefines n) where
  refl _ := ⟨Nat.le_refl _, fun _ _ _ hd => .inl hd⟩
  trans hst htu := by
    refine ⟨Nat.le_trans hst.fresh htu.fresh, fun h pos c hd => ?_⟩
    rcases htu.defines h pos c hd with hd | hNew
    · exact (hst.defines h pos c hd).imp_right fun hNew =>
        ⟨hNew.1, Nat.lt_of_lt_of_le hNew.2 htu.fresh⟩
    · exact .inr hNew

theorem newDefines_of_eq (hOci : w'.oci = w.oci) (hFresh : w.fresh ≤ w'.fresh) :
    NewDefines n w w' := by
  refine ⟨hFresh, fun h pos c hd => ?_⟩
  rw [hOci] at hd
  exact .inl hd

theorem newDefines_throw {α : Type} (result : OciResult) (errorHandle : Option Nat)
    (format : Option TString) :
    Respects (NewDefines n) (throwOnError result errorHandle format : M α) :=
  fun _ => wp_throwOnError fun _ _ => newDefines_of_eq rfl (Nat.le_refl _)

theorem newDefines_describe (r : Nat) : Respects (NewDefines n) (ResultSet.describe r) := by
  have hQuiet : ∀ {w w' : World}, Quiet w w' → NewDefines n w w' := fun hq =>
    newDefines_of_eq (by rw [hq.same]) hq.fresh
  have hR := frame_newDefines n
  refine respects_bind hR (fun w => ?_) fun count => respects_bind hR (respects_forM hR
    (fun i => respects_get_bind fun w => ?_) _) fun _ => respects_modify fun _ => ?_
  · exact wp_mono (wp_columnsCount rfl) (fun _ _ h => hQuiet h.1) (fun _ _ hq => hQuiet hq)
  · rw [wp_bind]
    refine wp_mono (wp_readParam _ _ _ w) (fun out w₁ h => ?_) (fun _ _ hq => hQuiet hq)
    simp only [wp_bind, wp_ite]
    split
    · exact wp_throwOnError fun rs _ =>
        hR.trans (hQuiet h.1) (newDefines_of_eq rfl (Nat.le_refl _))
    · refine wp_newColumn (fun as _ => ?_) (fun _ _ hq => hR.trans (hQuiet h.1) (hQuiet hq))
      rw [wp_modifyRs]
      exact hR.trans (hQuiet h.1) (newDefines_of_eq rfl (Nat.le_succ _))
  · exact newDefines_of_eq rfl (Nat.le_refl _)

/-- The numbers below `m` are handed out before the call. -/
def DefinesBelow (n m : Nat) (w w' : World) : Prop := m ≤ w.fresh → NewDefines n w w'

theorem frame_definesBelow (n m : Nat) : Frame (DefinesBelow n m) where
  refl w _ := (frame_newDefines n).refl w
  trans hst htu hm := (frame_newDefines n).trans (hst hm) (htu (Nat.le_trans hm (hst hm).fresh))

/-- A position is defined on a new column. -/
theorem definesBelow_defineColumn {m col : Nat} (hCol : n ≤ col) (hm : col < m)
    (position : Nat) : Respects (DefinesBelow n m) (ResultSet.defineColumn r col position) := by
  have hR := frame_definesBelow n m
  have hPass : ∀ rs call, Respects (DefinesBelow n m) (do pass rs; answer call) :=
    fun _ _ _ _ => newDefines_of_eq rfl (Nat.le_refl _)
  have hThrow : ∀ result error format, Respects (DefinesBelow n m)
      (throwOnError result error format : M Unit) := fun _ _ _ w =>
    wp_mono (newDefines_throw _ _ _ w) (fun _ _ h _ => h) (fun _ _ h _ => h)
  have hDefine : ∀ stmt error size, Respects (DefinesBelow n m)
      (ociDefineByPos stmt error position col size) := by
    intro stmt error size w
    simp only [ociDefineByPos, wp_bind, wp_pass, wp_answer, wp_ite, wp_pure]
    split
    · cases stmt with
      | none => exact fun _ => newDefines_of_eq rfl (Nat.le_refl _)
      | some hd =>
        intro hFresh
        refine ⟨Nat.le_refl _, fun h pos c hd' => ?_⟩
        by_cases hh : h = hd
        · subst hh
          simp only [Function.update_self] at hd'
          by_cases hp : pos = position
          · subst hp
            simp only [Function.update_self, Option.some.injEq] at hd'
            exact .inr (hd' ▸ ⟨hCol, Nat.lt_of_lt_of_le hm hFresh⟩)
          · simp only [Function.update_of_ne hp] at hd'
            exact .inl hd'
        · simp only [Function.update_of_ne hh] at hd'
          exact .inl hd'
    · exact fun _ => newDefines_of_eq rfl (Nat.le_refl _)
  refine respects_get_bind fun w => ?_
  refine respects_bind hR (hDefine _ _ _) (fun result => respects_bind hR ?_ fun result => ?_) w
  · exact respects_ite (respects_andThen hR _ (hPass _ _)) (respects_pure hR _)
  · exact respects_ite (hThrow _ _ _) (respects_pure hR _)

/-- The positions of a result set that is being built are defined on the columns
`describe` has made. -/
theorem newDefines_define {handle : Option Nat} {F : Nat} {ids : List Nat}
    (hB : Building w w₁ r handle F ids) :
    wp (ResultSet.define r) (fun _ w' => NewDefines r w₁ w') (fun _ w' => NewDefines r w₁ w')
      w₁ := by
  rw [ResultSet.define, wp_bind, wp_get, wp_bind, hB.rset.columns]
  refine wp_mono (respects_forM_of_mem (frame_definesBelow r w₁.fresh) (fun e he => ?_) w₁)
    (fun _ w₂ h₂ => ?_) (fun _ _ h => h (Nat.le_refl _))
  · have hId : e.1 ∈ ids := by
      rw [← List.zipIdx_map_fst 1 ids]
      exact List.mem_map_of_mem he
    obtain ⟨hOld, hLt⟩ := hB.new e.1 hId
    exact definesBelow_defineColumn (Nat.le_of_lt hOld) hLt e.2
  · rw [wp_modifyRs]
    exact (frame_newDefines r).trans (h₂ (Nat.le_refl _)) (newDefines_of_eq rfl (Nat.le_refl _))

/-- The result set has lost its columns, and is on no handle but `handle`. -/
def ResultSet.Emptied (rs : ResultSet) (handle : Option Nat) : Prop :=
  rs.m_columns = [] ∧ ∀ h, rs.m_rsHandle = some h → handle = some h

/-- The release of a result set that is being built. -/
theorem Building.newDefines_release {handle : Option Nat} {F : Nat} {ids : List Nat}
    (hB : Building w w₁ w.fresh handle F ids) (hD : NewDefines w.fresh w w₁)
    (E : OraError → World → Prop) :
    wp (releaseObj (1 + 5) ⟨.resultSet, w.fresh⟩)
      (fun _ w' => NewDefines w.fresh w w' ∧ (w'.rsets w.fresh).Emptied handle) E w₁ := by
  have hNone : ∀ s, (w₁.rsets w.fresh).m_stmt = some s → False := fun s hs => by
    rw [hB.rset.stmt] at hs
    cases hs
  refine wp_mono (wp_and (wp_releaseRs (E := fun _ _ => False) 1 w.fresh
    (fun s hs => (hNone s hs).elim) hB.gains.nodup) (wp_and (columns_releaseObj 5 w.fresh w₁)
      (sheds_releaseObj _ _ w₁))) ?_ (fun _ _ hFalse => hFalse.1.elim)
  rintro - w' ⟨hF, hColumns, hS⟩
  refine ⟨(frame_newDefines _).trans hD (newDefines_of_eq (by rw [hF.same]) (by rw [hF.same])),
    hColumns, fun h hh => ?_⟩
  rw [← hB.rset.handle]
  exact (hS.rsets w.fresh).2 h hh

/-- All that a new result set is defined on is new. -/
theorem newDefines_newResultSet {handle : Option Nat} {F : Nat} :
    wp (ResultSet.new handle F) (fun _ w' => NewDefines w.fresh w w')
      (fun _ w' => NewDefines w.fresh w w' ∧ (w'.rsets w.fresh).Emptied handle) w := by
  have hR := frame_newDefines w.fresh
  have hStart : ∀ rs : ResultSet, NewDefines w.fresh w { w with
      fresh := w.fresh + 1
      trace := .acquire ⟨.resultSet, w.fresh⟩ none :: w.trace
      rsets := Function.update w.rsets w.fresh rs } :=
    fun _ => newDefines_of_eq rfl (Nat.le_succ _)
  rw [ResultSet.new, wp_bind, wp_acquire, wp_bind, wp_modifyRs, wp_bind]
  refine wp_constructing rfl ?_
  rw [ResultSet.attach, wp_bind, wp_modifyRs, wp_bind]
  simp only [Function.update_self, Function.update_idem]
  have hBlank := building_start w handle (F % 2 ^ 16) {
    m_rsHandle := handle, m_fetchCount := F % 2 ^ 16 } ⟨rfl, rfl, rfl, rfl, rfl, rfl, rfl⟩ rfl
  refine wp_mono (wp_and (wp_describe hBlank) (newDefines_describe (n := w.fresh) w.fresh _)) ?_ ?_
  · rintro - w₁ ⟨⟨ids, hB, -⟩, h₁⟩
    have hDescribed := hR.trans (hStart _) h₁
    refine wp_mono (wp_and (wp_define hB) (newDefines_define hB)) ?_ ?_
    · rintro - w₂ ⟨-, h₂⟩
      exact hR.trans hDescribed h₂
    · rintro - w₂ ⟨hB₂, h₂⟩
      exact hB₂.newDefines_release (hR.trans hDescribed h₂) _
  · rintro - w₁ ⟨⟨ids, hB⟩, h₁⟩
    exact hB.newDefines_release (hR.trans (hStart _) h₁) _

/-- Only a new result set and the defines of its handle are new. -/
theorem Apart.touches {handle : Option Nat} (hA : Apart w w' w.fresh handle)
    (hn : n ≤ w.fresh) (hT : ∀ h, handle = some h → h < n → T (.cursor h))
    (hHandle : ∀ h, handle = some h → h < w.fresh) (hD : NewDefines w.fresh w w')
    (hReleased : ∀ x : Res, x.id < w.fresh → (Released w'.trace x ↔ Released w.trace x))
    (hColumns : (w'.rsets w.fresh).Emptied handle ∨ (w'.rsets w.fresh).m_rsHandle = handle ∧
      ∀ c ∈ (w'.rsets w.fresh).m_columns, w.fresh ≤ c ∧ c < w'.fresh) :
    Touches n T w w' := by
  refine ⟨hA.cfg, hA.outcome, hA.conn, ⟨hD.fresh, hD.defines, fun r c hc => ?_⟩,
    fun place hOld hNot => ?_, fun p _ hNone => by rw [hA.params, hNone], fun r h hh => ?_,
    fun h e he => ?_⟩
  · by_cases hr : r = w.fresh
    · subst hr
      rcases hColumns with ⟨hNone, -⟩ | ⟨hHandle, hNew⟩
      · rw [hNone] at hc
        exact absurd hc List.not_mem_nil
      · refine .inr ⟨(hNew c hc).1, (hNew c hc).2, fun h pos hd => ?_⟩
        by_cases hh : handle = some h
        · exact .inl (hHandle.trans hh)
        · rw [hA.defines h hh] at hd
          exact .inr hd
    · rw [hA.rsets r hr] at hc ⊢
      exact .inl ⟨hc, rfl⟩
  · cases place with
    | object y =>
      have hLt : y.id < w.fresh := Nat.lt_of_lt_of_le hOld hn
      refine ⟨?_, fun _ => ?_, hReleased y hLt⟩
      · obtain ⟨kind, id⟩ := y
        cases kind with
        | resultSet => exact hA.rsets id (Nat.ne_of_lt hLt)
        | statement => exact congrFun hA.stmts id
        | parameter => exact congrFun hA.params id
        | column => exact hA.cols id hLt
        | _ => trivial
      · rw [hA.oci]
    | cursor h =>
      have hne : handle ≠ some h := fun hh => hNot (hT h hh hOld)
      show w'.oci.stmt h = { w.oci.stmt h with binds := (w'.oci.stmt h).binds }
      rw [hA.stmt h, hA.defines h hne]
    | binds h =>
      show (w'.oci.stmt h).binds = _
      rw [hA.stmt h]
  · by_cases hr : r = w.fresh
    · subst hr
      refine .inr (Nat.lt_of_lt_of_le (hHandle h ?_) hD.fresh)
      rcases hColumns with ⟨-, hOn⟩ | ⟨hOn, -⟩
      · exact hOn h hh
      · exact hOn.symm.trans hh
    · rw [hA.rsets r hr] at hh
      exact .inl hh
  · rw [hA.stmt h] at he
    exact .inl he

/-- **The constructor of a result set** touches the cursor it is made on. -/
theorem touches_newResultSet {handle : Option Nat} {F : Nat} (hn : n ≤ w.fresh)
    (hT : ∀ h, handle = some h → h < n → T (.cursor h))
    (hHandle : ∀ h, handle = some h → h < w.fresh) :
    wp (ResultSet.new handle F)
      (fun r w' => Touches n T w w' ∧ r = w.fresh ∧ ∃ ids, Built w w' r handle (F % 2 ^ 16) ids)
      (fun _ w' => Touches n T w w') w := by
  refine wp_mono (wp_and (wp_newResultSet handle F) newDefines_newResultSet) ?_ ?_
  · rintro r w' ⟨⟨rfl, ids, hB⟩, hD⟩
    have hReleased := hB.building.gains.conserves.released
    refine ⟨hB.building.apart.touches hn hT hHandle hD (fun x hx => hReleased x hx hx)
      (.inr ⟨hB.building.rset.handle, ?_⟩), rfl, ids, hB⟩
    rw [hB.building.rset.columns]
    exact fun c hc => ⟨Nat.le_of_lt (hB.building.new c hc).1, (hB.building.new c hc).2⟩
  · rintro - w' ⟨hA, hD, hColumns⟩
    exact hA.apart.touches hn hT hHandle hD hA.released (.inl hColumns)

/-- A new result set's query is defined on its own columns. -/
theorem Built.targets_new {F : Nat} {ids : List Nat} (hB : Built w w' w.fresh (some h) F ids)
    {c : Nat} (hc : c ∈ (w'.oci.stmt h).targets) : w.fresh ≤ c := by
  obtain ⟨pos, hPos, hDefined⟩ := List.mem_filterMap.mp hc
  rw [List.mem_range, hB.building.apart.stmt] at hPos
  have hLt : pos < ids.length := by rw [hB.length h rfl]; exact hPos
  rw [(hB.defined h rfl pos hLt).1] at hDefined
  rw [← Option.some.inj hDefined]
  exact Nat.le_of_lt (hB.building.new _ (List.getElem_mem hLt)).1

/-- The first fetch for a new result set. -/
theorem Built.fetchesInto {handle : Option Nat} {F : Nat} {ids : List Nat}
    (hB : Built w w' w.fresh handle F ids) (hn : n ≤ w.fresh)
    (hT : ∀ h, handle = some h → h < n → T (.cursor h)) : FetchesInto n T w' w.fresh := by
  refine ⟨fun hlt => absurd hlt (Nat.not_lt_of_le hn), fun h hh hlt => hT h ?_ hlt,
    fun h hh c hc hlt => ?_⟩
  · rw [← hh, hB.building.rset.handle]
  · obtain rfl : handle = some h := hB.building.rset.handle.symm.trans hh
    exact absurd hlt (Nat.not_lt_of_le (Nat.le_trans hn (hB.targets_new hc)))

/-- What was made is released. -/
theorem Gains.touches_release {x : Res} (hG : Gains w w₁ x) (hKind : x.kind = .statement ∨
      x.kind = .resultSet ∨ x.kind = .parameter) (hn : n ≤ w.fresh)
    (hCursors : w.CursorsBelow w.fresh) (hT : Touches n T w w₁) (depth : Nat)
    (E : OraError → World → Prop) :
    wp (releaseObj (depth + 5) x) (fun _ w' => Touches n T w w') E w₁ := by
  have hCursors₁ := hG.conserves.cursors _ (Nat.le_refl _) hCursors
  refine wp_mono (wp_and (wp_releaseObj (E := fun _ _ => False) depth hKind hCursors₁ hG.nodup)
    (sheds_releaseObj _ x w₁)) ?_ (fun _ _ hFalse => hFalse.1.elim)
  rintro - w' ⟨hF, hS⟩
  exact hT.trans (hF.touches_new hS fun y hy => Nat.le_trans hn (hG.new y hy).1)

-- ---------------------------------------------------------------------------
-- Statements
-- ---------------------------------------------------------------------------

/-- A new statement handle. -/
theorem touches_allocated (hn : n ≤ w.fresh) (env : Option Nat) :
    Touches n T w (w.allocated env) := by
  have hNew : w.fresh < n → False := fun hlt => absurd hlt (Nat.not_lt_of_le hn)
  have hState := touches_stmtState (n := n) (T := T) (h := w.fresh) w {} w.oci.execs
    (fun hlt => (hNew hlt).elim) (fun hlt => (hNew hlt).elim) (.inr rfl)
    fun _ he => absurd he List.not_mem_nil
  exact (hState.trans (touches_uses _ (ptr .env env))).trans
    (touches_supply rfl (Nat.le_succ _) fun _ => released_acquire)

theorem growing_allocStmt (env : Option Nat) {store : Nat → World → World}
    (hStore : ∀ h w, Touches n T w (store h w)) :
    Respects (Growing n T) (ociHandleAlloc env .stmt store) := fun w =>
  wp_allocStmt (fun _ _ => touches_uses w _) fun _ hn =>
    (touches_allocated hn env).trans (hStore _ _)

/-- A new statement is prepared. -/
theorem growing_prepare (hs : n ≤ s) (sql : TString) :
    Respects (Growing n T) (Statement.prepare s sql) := by
  have hR := frame_growing n T
  have hNew : s < n → T (.object ⟨.statement, s⟩) := fun hlt =>
    absurd hlt (Nat.not_lt_of_le hs)
  have hThrow : ∀ {α : Type} result errorHandle, Respects (Growing n T)
      (throwOnError result errorHandle none : M α) := fun _ _ w =>
    wp_mono (touches_throw _ _ _ w) (fun _ _ h _ => h) (fun _ _ h _ => h)
  have hPass : ∀ rs call, Respects (Growing n T) (do pass rs; answer call) := fun rs call w =>
    wp_mono (touches_passAnswer rs call w) (fun _ _ h _ => h) (fun _ _ h _ => h)
  have hModify : ∀ f, Respects (Growing n T) (modifyStmt s f) := fun f =>
    respects_modify fun w _ => touches_modifyStmt w _ hNew
  refine respects_get_bind fun w => ?_
  refine respects_bind hR (growing_allocStmt _ fun h w => touches_modifyStmt w _ hNew)
    (fun result => ?_) w
  refine respects_bind hR (respects_get hR) fun w₁ => respects_bind hR ?_ fun result =>
    respects_bind hR ?_ fun result => respects_ite (hModify _) (hThrow _ _)
  · refine respects_orThrow _ (hPass _ _) fun w => ?_
    exact wp_mono (touches_throwEnv _ _ _ w) (fun _ _ h _ => h) (fun _ _ h _ => h)
  · refine respects_andThen hR _ (respects_bind hR (hPass _ _) fun result => ?_)
    exact respects_bind hR (hModify _) fun _ => respects_pure hR _

/-- **The constructor of a statement** touches nothing that was there. -/
theorem touches_newStatement (sql : TString) (hn : n ≤ w.fresh)
    (hCursors : w.CursorsBelow w.fresh) :
    wp (Statement.new sql)
      (fun s w' => Touches n T w w' ∧ s = w.fresh ∧ ∃ h, Prepared w w' s h)
      (fun _ w' => Touches n T w w') w := by
  rw [Statement.new, wp_bind, wp_acquire, wp_bind, wp_modifyStmt, wp_bind]
  have hStart : Touches n T w { w with
      fresh := w.fresh + 1
      trace := .acquire ⟨.statement, w.fresh⟩ none :: w.trace
      stmts := Function.update w.stmts w.fresh {} } :=
    (touches_modifyStmt w {} fun hlt => absurd hlt (Nat.not_lt_of_le hn)).trans
      (touches_supply rfl (Nat.le_succ _) fun _ => released_acquire)
  refine wp_constructing rfl (wp_mono (wp_and (wp_prepare (gains_startStatement w) (by simp) sql)
    (growing_prepare (T := T) hn sql _)) ?_ ?_)
  · rintro - w' ⟨hP, hT⟩
    exact ⟨hStart.trans (hT (Nat.le_succ_of_le hn)), rfl, hP⟩
  · rintro e w' ⟨hG, hT⟩
    exact hG.touches_release (.inl rfl) hn hCursors (hStart.trans (hT (Nat.le_succ_of_le hn))) 1 _

/-- What `Select` does after the execution: it makes a result set and fetches its
first block. -/
theorem touches_selectRest {we : World} (hEx : Executing s w we) (hn : n ≤ w.fresh)
    (hCursors : w.CursorsBelow w.fresh)
    (hLt : ∀ h, (w.stmts s).m_stmtHandle = some h → h < w.fresh) (F : Nat)
    (hCursor : ∀ h, (w.stmts s).m_stmtHandle = some h → h < n → T (.cursor h)) :
    wp (do
        let handle := ((← get).stmts s).m_stmtHandle
        let resultSet ← ResultSet.new handle F
        try ResultSet.fetchRows resultSet
        catch e =>
          ReleaseObj ⟨.resultSet, resultSet⟩
          throw e
        return resultSet)
      (fun _ w' => Touches n T we w') (fun _ w' => Touches n T we w') we := by
  have hHandle : (we.stmts s).m_stmtHandle = (w.stmts s).m_stmtHandle := by
    rw [hEx.stmts, Function.update_self]
  have hFresh : we.fresh = w.fresh := by rw [hEx.same]
  have hne : n ≤ we.fresh := hFresh ▸ hn
  rw [wp_bind, wp_get, wp_bind, hHandle]
  refine wp_mono (touches_newResultSet hne hCursor fun h hh => hFresh ▸ hLt h hh) ?_
    (fun _ _ h => h)
  rintro r wb ⟨hTb, rfl, ids, hB⟩
  have hInto := hB.fetchesInto hne hCursor
  rw [wp_bind, wp_tryCatch]
  refine wp_mono (wp_and (touches_fetchRows hInto) (reading_fetchRows we.fresh wb))
    (fun _ w' h' => hTb.trans h'.1) (fun e w' h' => ?_)
  rw [wp_bind]
  have hCursors' : we.CursorsBelow we.fresh := by
    rw [hEx.same]
    exact hCursors
  exact (hB.building.gains.conserve (h'.2.conserves _)).touches_release (.inr (.inl rfl)) hne
    hCursors' (hTb.trans h'.1) 0 _

/-- **`Select`** touches its statement, the cursors it opens, and the one it is
on. -/
theorem touches_selectWith (hs : s < n → T (.object ⟨.statement, s⟩)) (hn : n ≤ w.fresh)
    (hCursors : w.CursorsBelow w.fresh)
    (hLt : ∀ h, (w.stmts s).m_stmtHandle = some h → h < w.fresh) (F : Nat)
    (hOpens : ∀ h, (w.stmts s).m_stmtHandle = some h → ∀ h', w.OpensOn h h' → h' < n →
      T (.cursor h')) :
    wp (Statement.selectWith s F) (fun _ w' => Touches n T w w') (fun _ w' => Touches n T w w')
      w := by
  rw [Statement.selectWith, wp_bind]
  refine wp_mono (wp_and (wp_executePrepared s) (touches_executePrepared hs hOpens)) ?_
    (fun _ _ h => h.2)
  rintro - we ⟨⟨hEx, -⟩, hT⟩
  exact wp_mono (touches_selectRest hEx hn hCursors hLt F fun h hh => hOpens h hh h (.inl rfl))
    (fun _ _ h => hT.trans h) (fun _ _ h => hT.trans h)

/-- `Select` by its execution and what comes after it. -/
theorem executing_selectWith (hn : n ≤ w.fresh) (hCursors : w.CursorsBelow w.fresh)
    (hLt : ∀ h, (w.stmts s).m_stmtHandle = some h → h < w.fresh) (F : Nat)
    (hCursor : ∀ h, (w.stmts s).m_stmtHandle = some h → h < n → T (.cursor h)) :
    wp (Statement.selectWith s F) (fun _ w' => ∃ we, Executing s w we ∧ Touches n T we w')
      (fun _ w' => ∃ we, Executing s w we ∧ Touches n T we w') w := by
  rw [Statement.selectWith, wp_bind]
  refine wp_mono (wp_executePrepared s) ?_ (fun _ we hEx => ⟨we, hEx, .refl n T we⟩)
  rintro - we ⟨hEx, -⟩
  exact wp_mono (touches_selectRest hEx hn hCursors hLt F hCursor) (fun _ _ h => ⟨we, hEx, h⟩)
    (fun _ _ h => ⟨we, hEx, h⟩)

/-- A statement that was just prepared opens cursors on nothing that was there. -/
theorem Prepared.opensOn_new {h h₁ h' : Nat} (hP : Prepared w w' s h)
    (hHandle : (w'.stmts s).m_stmtHandle = some h₁) (hOpens : w'.OpensOn h₁ h') : w.fresh ≤ h' := by
  obtain rfl := Option.some.inj (hP.handle.symm.trans hHandle)
  rcases hOpens with rfl | ⟨e, he, -⟩
  · refine (hP.gains.new ⟨.stmt, h'⟩ ?_).1
    simp [World.owned, World.stmtOwned, ptr, hP.handle]
  · rw [hP.state] at he
    exact absurd he List.not_mem_nil

/-- Its handle is there. -/
theorem Prepared.handle_lt {h h₁ : Nat} (hP : Prepared w w' s h)
    (hHandle : (w'.stmts s).m_stmtHandle = some h₁) : h₁ < w'.fresh :=
  (hP.gains.new ⟨.stmt, h₁⟩ (by simp [World.owned, World.stmtOwned, ptr, hHandle])).2

/-- **`Connection::Execute`** touches nothing that was there. -/
theorem touches_execute (sql : TString) (hn : n ≤ w.fresh) (hCursors : w.CursorsBelow w.fresh) :
    wp (Connection.execute sql) (fun _ w' => Touches n T w w') (fun _ w' => Touches n T w w')
      w := by
  rw [Connection.execute, wp_bind]
  refine wp_mono (touches_newStatement sql hn hCursors) ?_ (fun _ _ h => h)
  rintro s w₁ ⟨hT, rfl, h, hP⟩
  have hExecute := touches_executePrepared (n := n) (T := T) (w := w₁) (s := w.fresh)
    (fun hlt => absurd hlt (Nat.not_lt_of_le hn)) fun h₁ hh h' hOpens hlt =>
      absurd hlt (Nat.not_lt_of_le (Nat.le_trans hn (hP.opensOn_new hh hOpens)))
  have hRelease : ∀ {w₂}, Executing w.fresh w₁ w₂ → Touches n T w₁ w₂ →
      wp (ReleaseObj ⟨.statement, w.fresh⟩) (fun _ w' => Touches n T w w')
        (fun _ w' => Touches n T w w') w₂ := fun hEx h₂ =>
    (hP.gains.conserve (hEx.conserves _)).touches_release (.inl rfl) hn hCursors (hT.trans h₂) 0 _
  rw [wp_bind, wp_tryCatch]
  refine wp_mono (wp_and (wp_executePrepared w.fresh) hExecute)
    (fun _ w₂ h₂ => hRelease h₂.1.1 h₂.2) (fun e w₂ h₂ => ?_)
  rw [wp_bind]
  exact wp_mono (hRelease h₂.1 h₂.2) (fun _ _ h => h) (fun _ _ h => h)

/-- **`Connection::Select`** touches nothing that was there. -/
theorem touches_connectionSelect (sql : TString) (F : Nat) (hn : n ≤ w.fresh)
    (hCursors : w.CursorsBelow w.fresh) :
    wp (Connection.selectWith sql F) (fun _ w' => Touches n T w w') (fun _ w' => Touches n T w w')
      w := by
  rw [Connection.selectWith, wp_bind]
  refine wp_mono (touches_newStatement sql hn hCursors) ?_ (fun _ _ h => h)
  rintro s w₁ ⟨hT, rfl, h, hP⟩
  have hC := hP.gains.conserves
  have hCursors₁ := (hC.cursors _ (Nat.le_refl _) hCursors).mono hC.fresh
  have hSelect := touches_selectWith (n := n) (T := T) (w := w₁) (s := w.fresh)
    (fun hlt => absurd hlt (Nat.not_lt_of_le hn)) (Nat.le_trans hn hC.fresh) hCursors₁
    (fun _ hh => hP.handle_lt hh) F
    fun h₁ hh h' hOpens hlt =>
      absurd hlt (Nat.not_lt_of_le (Nat.le_trans hn (hP.opensOn_new hh hOpens)))
  rw [wp_tryCatch, wp_bind]
  refine wp_mono (wp_and (gains_selectWith w.fresh F hCursors₁) hSelect) ?_ (fun e w₂ h₂ => ?_)
  · rintro r w₂ ⟨⟨hR, -⟩, h₂⟩
    rw [wp_bind, ResultSet.attachStatement, wp_modifyRs, wp_pure]
    have hNew : w₁.fresh ≤ r := (hR.new ⟨.resultSet, r⟩ (mem_owned_self _ _)).1
    exact (hT.trans h₂).trans (touches_modifyRs w₂ _ (fun hlt =>
      absurd hlt (Nat.not_lt_of_le (Nat.le_trans (Nat.le_trans hn hC.fresh) hNew))) (.same rfl rfl))
  · rw [wp_bind]
    exact (hP.gains.conserve h₂.1).touches_release (.inl rfl) hn hCursors (hT.trans h₂.2) 0 _

-- ---------------------------------------------------------------------------
-- Parameters
-- ---------------------------------------------------------------------------

/-- The parameter `p` is being made: the statements stay as they are, and it does
not get a result set. -/
def Attaches (n : Nat) (T : Place → Prop) (p : Nat) (w w' : World) : Prop :=
  p < w.fresh → Touches n T w w' ∧ w'.stmts = w.stmts ∧
    ((w.params p).m_resultSet = none → (w'.params p).m_resultSet = none)

theorem frame_attaches (n : Nat) (T : Place → Prop) (p : Nat) : Frame (Attaches n T p) where
  refl w _ := ⟨.refl n T w, rfl, id⟩
  trans hst htu hp := by
    obtain ⟨hT, hStmts, hNone⟩ := hst hp
    obtain ⟨hT', hStmts', hNone'⟩ := htu (Nat.lt_of_lt_of_le hp hT.fresh)
    exact ⟨hT.trans hT', hStmts'.trans hStmts, fun h => hNone' (hNone h)⟩

theorem attaches_uses (w : World) (rs : List Res) :
    Attaches n T p w { w with trace := rs.map .use ++ w.trace } :=
  fun _ => ⟨touches_uses w rs, rfl, id⟩

theorem attaches_throw {α : Type} (result : OciResult) (errorHandle : Option Nat)
    (format : Option TString) :
    Respects (Attaches n T p) (throwOnError result errorHandle format : M α) :=
  fun w => wp_throwOnError fun rs _ => attaches_uses w rs

theorem attaches_passAnswer (rs : List Res) (call : OciCall) :
    Respects (Attaches n T p) (do pass rs; answer call) :=
  fun w => attaches_uses w rs

/-- A placeholder is registered for a new parameter. -/
theorem attaches_bindByName {stmt : Option Nat} (hT : ∀ h, stmt = some h → h < n → T (.binds h))
    {reg : Registration} (hp : n ≤ p) (hReg : reg.BelongsTo p) (error : Option Nat)
    (name : TString) : Respects (Attaches n T p) (ociBindByName stmt error name reg) := by
  intro w
  have hUses := attaches_uses (n := n) (T := T) (p := p) w (ptr .stmt stmt ++ ptr .error error)
  simp only [ociBindByName, wp_bind, wp_pass, wp_answer, wp_ite, wp_get, wp_pure]
  split
  · cases stmt with
    | none => exact hUses
    | some h =>
      refine (frame_attaches n T p).trans hUses fun hLt => ⟨?_, rfl, id⟩
      refine touches_stmtState _ _ _ (fun _ => .inr rfl) (fun hlt => .inl (hT h rfl hlt))
        (.inl rfl) fun e he => ?_
      rcases List.mem_cons.mp he with rfl | he
      · exact .inr ⟨p, hp, hLt, hReg⟩
      · exact .inl (List.mem_filter.mp he).1
  · exact hUses

theorem attaches_setCharset (result : OciResult) :
    Respects (Attaches n T p) (Parameter.setCharset result) := by
  have hR := frame_attaches n T p
  refine respects_get_bind fun w => ?_
  rw [wp_ite]
  split
  · exact respects_andThen hR _ (attaches_passAnswer _ _) w
  · exact hR.refl w

section Attach

variable (hp : n ≤ p)
include hp

theorem attaches_modifyParam (f : Parameter → Parameter)
    (hf : ∀ param : Parameter, param.m_resultSet = none → (f param).m_resultSet = none) :
    Respects (Attaches n T p) (modifyParam p f) := by
  refine respects_modify fun w _ =>
    ⟨touches_modifyParam w _ (fun hlt => absurd hlt (Nat.not_lt_of_le hp))
      fun hlt => absurd hlt (Nat.not_lt_of_le hp), rfl, fun hNone => ?_⟩
  simpa using hf _ hNone

theorem attaches_setupType (name : TString) (type : DataType) :
    Respects (Attaches n T p) (Parameter.setupType p name type) := by
  have hR := frame_attaches n T p
  refine respects_get_bind fun w => ?_
  dsimp only
  generalize (if firstChar name = ':'.toNat then name.tail else name) = bare
  by_cases hArray : firstChar bare = PP_ARRAY
  · rw [if_pos hArray]
    refine respects_bind hR (attaches_modifyParam hp _ fun _ h => by exact h) (fun _ => ?_) w
    split
    · exact attaches_modifyParam hp _ fun _ h => by exact h
    · exact respects_throw hR _
  · rw [if_neg hArray]
    split
    · exact attaches_modifyParam hp _ (fun _ h => by exact h) w
    · exact hR.refl w

/-- The calls both kinds of bind end with. -/
theorem attaches_bindTail {stmt error : Option Nat}
    (hT : ∀ h, stmt = some h → h < n → T (.binds h)) {reg : Registration}
    (hReg : reg.BelongsTo p) (name : TString) :
    Respects (Attaches n T p) (do
      let result ← ociBindByName stmt error name reg
      Parameter.setCharset result) :=
  respects_bind (frame_attaches n T p) (attaches_bindByName hT hp hReg _ _) fun _ =>
    attaches_setCharset _

theorem attaches_bindEnd (result : OciResult) (error : Option Nat) (format : Option TString)
    (s : Nat) :
    Respects (Attaches n T p) (do
      if result ≠ .success then throwOnError result error format
      modifyParam p fun param => { param with m_stmt := some s }) := by
  dsimp only
  refine respects_ite ?_ (attaches_modifyParam hp _ fun _ h => by exact h)
  exact respects_bind (frame_attaches n T p) (attaches_throw _ _ _) fun _ =>
    attaches_modifyParam hp _ fun _ h => by exact h

variable (hT : ∀ h, (w.stmts s).m_stmtHandle = some h → h < n → T (.binds h))
include hT

theorem attaches_bind :
    wp (Parameter.bind p s) (fun _ w' => Attaches n T p w w') (fun _ w' => Attaches n T p w w')
      w := by
  have hR := frame_attaches n T p
  have hReg : Registration.BelongsTo
      { valuep := .buffer p, indp := some (.indicator p), alenp := some (.dataLen p) } p :=
    ⟨.text, rfl⟩
  rw [Parameter.bind, wp_bind, wp_get]
  dsimp only
  split
  · exact hR.refl w
  · have hTail : ∀ f,
        (∀ param : Parameter, param.m_resultSet = none → (f param).m_resultSet = none) →
        ∀ error name, Respects (Attaches n T p) (do
        modifyParam p f
        let result ← (do
          let result ← ociBindByName (w.stmts s).m_stmtHandle error name
            { valuep := .buffer p, indp := some (.indicator p), alenp := some (.dataLen p) }
          Parameter.setCharset result)
        if result ≠ .success then throwOnError result error (some name)
        modifyParam p fun param => { param with m_stmt := some s }) := fun f hf error name =>
      respects_bind hR (attaches_modifyParam hp f hf) fun _ => respects_bind hR
        (attaches_bindTail hp hT hReg name) fun _ => attaches_bindEnd hp _ _ _ _
    simp only [bind_assoc] at hTail
    rw [wp_ite]
    split
    · have hPass : Respects (Attaches n T p) (pass (ptr .error w.conn.m_errorHandle)) :=
        fun w => attaches_uses w _
      exact respects_bind hR hPass (fun _ => hTail _ (fun _ h => by exact h) _ _) w
    · exact hTail _ (fun _ h => by exact h) _ _ w

theorem attaches_bindResultSet :
    wp (Parameter.bindResultSet p s) (fun _ w' => Attaches n T p w w')
      (fun _ w' => Attaches n T p w w') w := by
  have hR := frame_attaches n T p
  have hReg : Registration.BelongsTo { valuep := .rsHandle p, indp := none, alenp := none } p :=
    ⟨.resultSet, rfl⟩
  have hStore : ∀ h w, Touches n T w (setRsHandle p h w) := fun h w =>
    touches_modifyParam w _ (fun hlt => absurd hlt (Nat.not_lt_of_le hp))
      fun hlt => absurd hlt (Nat.not_lt_of_le hp)
  have hAlloc : ∀ env, Respects (Attaches n T p) (ociHandleAlloc env .stmt (setRsHandle p)) :=
    fun env w => wp_allocStmt (fun _ => attaches_uses w _) fun _ hLt =>
      ⟨(touches_allocated (Nat.le_of_lt (Nat.lt_of_le_of_lt hp hLt)) env).trans (hStore _ _), rfl,
        fun hNone => by simpa [setRsHandle, World.allocated] using hNone⟩
  have hThrow : ∀ result env, Respects (Attaches n T p)
      (throwOnEnv result env none : M OciResult) := fun _ _ _ =>
    wp_throwOnEnv fun rs _ => attaches_uses _ rs
  rw [Parameter.bindResultSet, wp_bind, wp_get]
  refine respects_bind hR (hAlloc _) (fun result => respects_bind hR ?_ fun result =>
    attaches_bindEnd hp _ _ _ _) w
  exact respects_orThrow _ (attaches_bindTail hp hT hReg _) (hThrow _ _)

theorem attaches_attach (hLt : p < w.fresh) (name : TString) (type : DataType) :
    wp (Parameter.attach p s name type) (fun _ w' => Attaches n T p w w')
      (fun _ w' => Attaches n T p w w') w := by
  have hR := frame_attaches n T p
  rw [Parameter.attach, wp_bind]
  refine wp_mono (attaches_modifyParam hp _ (fun _ h => by exact h) w) (fun _ w₁ h₁ => ?_)
    (fun _ _ h => h)
  rw [wp_bind]
  refine wp_mono (attaches_setupType hp name type w₁) (fun _ w₂ h₂ => ?_)
    (fun _ _ h => hR.trans h₁ h)
  rw [wp_bind]
  refine wp_mono (attaches_modifyParam hp _ (fun _ _ => by rfl) w₂) (fun _ w₃ h₃ => ?_)
    (fun _ _ h => hR.trans (hR.trans h₁ h₂) h)
  have hDone := hR.trans (hR.trans h₁ h₂) h₃
  rw [← (hDone hLt).2.1] at hT
  rw [wp_bind, wp_get, wp_ite]
  split
  · exact wp_mono (attaches_bindResultSet hp hT) (fun _ _ h => hR.trans hDone h)
      (fun _ _ h => hR.trans hDone h)
  · exact wp_mono (attaches_bind hp hT) (fun _ _ h => hR.trans hDone h)
      (fun _ _ h => hR.trans hDone h)

end Attach

/-- **`Bind`** touches its statement and the placeholders of its handle, and
registers the new parameter only, which has no result set. -/
theorem touches_statementBind (hn : n ≤ w.fresh) (hCursors : w.CursorsBelow w.fresh)
    (hs : s < n → T (.object ⟨.statement, s⟩))
    (hT : ∀ h, (w.stmts s).m_stmtHandle = some h → h < n → T (.binds h)) (name : TString)
    (type : DataType) :
    wp (Statement.bind s name type)
      (fun p w' => Touches n T w w' ∧ (w'.params p).m_resultSet = none)
      (fun _ w' => Touches n T w w') w := by
  have hStart : Touches n T w { w with
      fresh := w.fresh + 1
      trace := .acquire ⟨.parameter, w.fresh⟩ none :: w.trace
      params := Function.update w.params w.fresh {} } :=
    (touches_modifyParam w {} (fun hlt => absurd hlt (Nat.not_lt_of_le hn))
      fun hlt => absurd hlt (Nat.not_lt_of_le hn)).trans
      (touches_supply rfl (Nat.le_succ _) fun _ => released_acquire)
  have hNew : w.fresh < w.fresh + 1 := Nat.lt_succ_self _
  rw [Statement.bind, wp_bind, Parameter.new, wp_bind, wp_acquire, wp_bind, wp_modifyParam, wp_bind]
  refine wp_constructing rfl (wp_mono (wp_and (wp_attachParameter (attaching_start w s) name type)
    (attaches_attach (T := T) (w := { w with
      fresh := w.fresh + 1
      trace := .acquire ⟨.parameter, w.fresh⟩ none :: w.trace
      params := Function.update w.params w.fresh {} }) hn hT hNew name type)) ?_ ?_)
  · rintro - w₁ ⟨-, h₁⟩
    rw [wp_pure, wp_bind, wp_get, wp_bind, wp_modifyStmt, wp_pure]
    refine ⟨(hStart.trans (h₁ hNew).1).trans (touches_modifyStmt w₁ _ hs), (h₁ hNew).2.2 ?_⟩
    simp
  · rintro e w₁ ⟨⟨-, param, t, done, -, hA⟩, h₁⟩
    exact hA.gains.touches_release (.inr (.inr rfl)) hn hCursors
      (hStart.trans (h₁ hNew).1) 1 _

/-- **`ToResultSet`** touches its parameter, the cursor of this one, and the
result set of its own it may make. -/
theorem touches_toResultSet (hn : n ≤ w.fresh) (hp : p < n → T (.object ⟨.parameter, p⟩))
    (hLt : ∀ h, (w.params p).m_rsHandle = some h → h < w.fresh)
    (hT : ∀ h, (w.params p).m_rsHandle = some h → h < n → T (.cursor h)) :
    wp (Parameter.toResultSet p) (fun _ w' => Touches n T w w') (fun _ w' => Touches n T w w')
      w := by
  rw [Parameter.toResultSet, wp_bind, wp_get, wp_ite]
  split
  · split
    · exact .refl n T w
    · rw [wp_bind]
      refine wp_mono (touches_newResultSet hn hT hLt) ?_ (fun _ _ h => h)
      rintro r wb ⟨hTb, rfl, ids, hB⟩
      rw [wp_bind, wp_modifyParam, wp_bind]
      have hModified := hTb.trans (touches_modifyParam wb
        { wb.params p with m_resultSet := some w.fresh } hp fun _ => rfl)
      have hInto : FetchesInto n T { wb with
          params := Function.update wb.params p { wb.params p with m_resultSet := some w.fresh } }
          w.fresh :=
        ⟨(hB.fetchesInto hn hT).object, (hB.fetchesInto hn hT).cursor, (hB.fetchesInto hn hT).cols⟩
      exact wp_mono (touches_fetchRows hInto) (fun _ _ h => hModified.trans h)
        (fun _ _ h => hModified.trans h)
  · exact .refl n T w

end Epol
