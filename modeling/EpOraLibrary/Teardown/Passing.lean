import EpOraLibrary.Teardown.Fit

/-!
# EpOraLibrary — what the calls pass

* `Serves` — handles may be passed, one statement handle among them.
* `Talks` — a call that passes only such handles and leaves statements and
  result sets alone.
* `fit_newStatement`, `fit_newResultSet`, `fit_newParameter` — the constructors
  pass no freed handle, whether they return or throw.
-/

namespace Epol

open Ledger Prog

variable {w w₁ w₂ : World} {conn : Connection} {handle : Option Nat} {x : Res} {rs : List Res}
variable {r s p : Nat} {α : Type}

-- ---------------------------------------------------------------------------
-- Handles a call is served with
-- ---------------------------------------------------------------------------

/-- The handle is one of the connection, or the statement handle. -/
def Usable (conn : Connection) (handle : Option Nat) (x : Res) : Prop :=
  conn.handle x.kind = some x.id ∨ x.kind = .stmt ∧ handle = some x.id

theorem usable_ptr {k : Kind} : ∀ x ∈ ptr k (conn.handle k), Usable conn handle x :=
  fun _ hx => .inl (handle_of_mem_ptr hx)

theorem usable_stmt : ∀ x ∈ ptr .stmt handle, Usable conn handle x := by
  intro x hx
  obtain ⟨h, hh, rfl⟩ := List.mem_map.mp hx
  exact .inr ⟨rfl, Option.mem_toList.mp hh⟩

/-- What most calls on a statement handle are passed. -/
theorem usable_call : ∀ x ∈ ptr .stmt handle ++ ptr .error conn.m_errorHandle,
    Usable conn handle x :=
  List.forall_mem_append.mpr ⟨usable_stmt, usable_ptr (k := .error)⟩

/-- Handles may be passed, and the statement handle is accounted for. -/
structure Serves (conn : Connection) (handle : Option Nat) (w : World) : Prop where
  fit  : Fit conn w
  stmt : ∀ h, handle = some h → 0 < net w.trace ⟨.stmt, h⟩

theorem Fit.serves (hw : Fit conn w) : Serves conn none w := ⟨hw, fun _ hh => nomatch hh⟩

theorem Serves.there (hs : Serves conn handle w) (hx : Usable conn handle x) :
    ¬ Gone true w.trace x := by
  obtain ⟨kind, id⟩ := x
  rcases hx with hx | ⟨rfl, hx⟩
  · exact hs.fit.held hx
  · exact hs.fit.live (hs.stmt id hx)

theorem Serves.uses (hs : Serves conn handle w) (hrs : ∀ x ∈ rs, Usable conn handle x) :
    Serves conn handle { w with trace := rs.map .use ++ w.trace } where
  fit := hs.fit.uses fun x hx => hs.there (hrs x hx)
  stmt h hh := by
    rw [net_uses]
    exact hs.stmt h hh

theorem Serves.of_eq (hs : Serves conn handle w) (hConn : w₁.conn = w.conn)
    (hFresh : w₁.fresh = w.fresh) (hTrace : w₁.trace = w.trace) : Serves conn handle w₁ where
  fit := hs.fit.of_eq hConn hFresh hTrace
  stmt h hh := hTrace ▸ hs.stmt h hh

theorem Serves.passed (hs : Serves conn handle w) {allowed : List Res} (hConn : w₁.conn = w.conn)
    (hFresh : w₁.fresh = w.fresh) (hPassed : Passed allowed w.trace w₁.trace)
    (hAllowed : ∀ x ∈ allowed, Usable conn handle x) : Serves conn handle w₁ where
  fit := hs.fit.passed hConn hFresh hPassed fun x hx => hs.there (hAllowed x hx)
  stmt h hh := by
    rw [hPassed.net]
    exact hs.stmt h hh

/-- What is acquired takes nothing from the account. -/
theorem Serves.acquire (hs : Serves conn handle w) (kind : Kind) (parent : Option Res)
    (hParent : ∀ p, parent = some p → p.kind = kind.parent)
    (hKind : kind.isLeaf = true ∨
      kind = .stmt ∧ parent = conn.m_envHandle.map (Res.mk .env)) :
    Serves conn handle { w with
      fresh := w.fresh + 1
      trace := .acquire ⟨kind, w.fresh⟩ parent :: w.trace } where
  fit := hs.fit.acquire kind parent hParent hKind
  stmt h hh := by
    rw [net_acquire]
    have := hs.stmt h hh
    split <;> omega

theorem Serves.release (hs : Serves conn handle w) (hx : x.kind.isLeaf = true)
    (hLt : x.id < w.fresh) (done : Bool) :
    Serves conn handle { w with trace := .release x done :: w.trace } where
  fit := hs.fit.release hx hLt done
  stmt h hh := by
    have hNe : x ≠ ⟨.stmt, h⟩ := fun heq => by
      rw [heq] at hx
      cases hx
    rw [net_release, if_neg hNe, Int.sub_zero]
    exact hs.stmt h hh

/-- The statement handle is a new one. -/
theorem Serves.allocated (hs : Serves conn handle w) :
    Serves conn handle (w.allocated conn.m_envHandle) := by
  have hAcquire := (hs.uses (usable_ptr (k := .env))).acquire .stmt
    (conn.m_envHandle.map (Res.mk .env)) (fun p hp => by
      obtain ⟨e, -, rfl⟩ := Option.map_eq_some_iff.mp hp
      rfl) (.inr ⟨rfl, rfl⟩)
  exact hAcquire.of_eq rfl rfl rfl

theorem Fit.allocated (hw : Fit conn w) :
    Serves conn (some w.fresh) (w.allocated conn.m_envHandle) where
  fit := hw.serves.allocated.fit
  stmt h hh := by
    obtain rfl := Option.some.inj hh
    have := hw.counted w.fresh
    simp only [World.allocated, net_acquire, net_uses, if_true]
    omega

-- ---------------------------------------------------------------------------
-- Calls that only talk to OCI
-- ---------------------------------------------------------------------------

/-- Handles that may be passed were, and no statement or result set changed. -/
structure Talks (conn : Connection) (handle : Option Nat) (w w' : World) : Prop where
  same   : w'.conn = w.conn
  rsets  : w'.rsets = w.rsets
  stmts  : w'.stmts = w.stmts
  serves : Serves conn handle w → Serves conn handle w'

theorem frame_talks (conn : Connection) (handle : Option Nat) : Frame (Talks conn handle) where
  refl _ := ⟨rfl, rfl, rfl, id⟩
  trans hst htu := ⟨htu.same.trans hst.same, htu.rsets.trans hst.rsets,
    htu.stmts.trans hst.stmts, fun h => htu.serves (hst.serves h)⟩

section Talks

variable (conn handle)

theorem talks_pure (a : α) : Respects (Talks conn handle) (pure a : M α) :=
  respects_pure (frame_talks conn handle) a

theorem talks_modify {f : World → World} (hRsets : ∀ w, (f w).rsets = w.rsets)
    (hStmts : ∀ w, (f w).stmts = w.stmts) (hConn : ∀ w, (f w).conn = w.conn)
    (hFresh : ∀ w, (f w).fresh = w.fresh) (hTrace : ∀ w, (f w).trace = w.trace) :
    Respects (Talks conn handle) (modify f : M Unit) :=
  respects_modify fun w => ⟨hConn w, hRsets w, hStmts w, fun hs =>
    hs.of_eq (hConn w) (hFresh w) (hTrace w)⟩

theorem talks_modifyParam (p : Nat) (f : Parameter → Parameter) :
    Respects (Talks conn handle) (modifyParam p f) :=
  talks_modify conn handle (fun _ => rfl) (fun _ => rfl) (fun _ => rfl) (fun _ => rfl) fun _ => rfl

theorem talks_modifyStmtState (h : Nat) (f : StmtState → StmtState) :
    Respects (Talks conn handle) (modifyStmtState h f) :=
  talks_modify conn handle (fun _ => rfl) (fun _ => rfl) (fun _ => rfl) (fun _ => rfl) fun _ => rfl

variable {conn handle}

theorem talks_pass (hrs : ∀ x ∈ rs, Usable conn handle x) :
    Respects (Talks conn handle) (pass rs) :=
  fun _ => ⟨rfl, rfl, rfl, fun hs => hs.uses hrs⟩

theorem talks_passAnswer (hrs : ∀ x ∈ rs, Usable conn handle x) (call : OciCall) :
    Respects (Talks conn handle) (do pass rs; answer call) :=
  respects_bind (frame_talks conn handle) (talks_pass hrs) fun _ w =>
    (frame_talks conn handle).refl w

/-- `OraError` asks for the details. -/
theorem talks_thrown (w : World) {k : Kind} (hrs : rs = ptr k (conn.handle k) ∨ rs = []) :
    Talks conn handle w { w with trace := rs.map .use ++ w.trace } := by
  refine ⟨rfl, rfl, rfl, fun hs => hs.uses ?_⟩
  rcases hrs with rfl | rfl
  · exact usable_ptr
  · exact fun _ hx => nomatch hx

theorem talks_throwOnError (result : OciResult) (format : Option TString) :
    Respects (Talks conn handle) (throwOnError result conn.m_errorHandle format : M α) :=
  fun w => wp_throwOnError fun _ hrs => talks_thrown w (k := .error) hrs

/-- A call that only talks to OCI. -/
theorem serves_of_talks {x : M α} (hx : Respects (Talks conn handle) x) :
    Respects (Keep (Serves conn handle)) x :=
  respects_mono hx fun _ _ ht => ht.serves

theorem serves_modifyStmt (s : Nat) (f : Statement → Statement) :
    Respects (Keep (Serves conn handle)) (modifyStmt s f) :=
  fun _ hs => hs.of_eq rfl rfl rfl

end Talks

-- ---------------------------------------------------------------------------
-- Result sets
-- ---------------------------------------------------------------------------

/-- The descriptor `d` was acquired since, and may be passed as well. -/
structure Describing (conn : Connection) (handle : Option Nat) (d : Nat) (w w' : World) :
    Prop where
  talks      : Talks conn handle w w'
  descriptor : Serves conn handle w → d < w'.fresh ∧ ¬ Gone true w'.trace ⟨.descriptor, d⟩

section Descriptors

variable {d : Nat} {error : Option Nat}

theorem Describing.uses (h : Describing conn handle d w w₁)
    (hrs : ∀ x ∈ rs, x = ⟨.descriptor, d⟩ ∨ Usable conn handle x) :
    Describing conn handle d w { w₁ with trace := rs.map .use ++ w₁.trace } := by
  refine ⟨⟨h.talks.same, h.talks.rsets, h.talks.stmts, fun hs => ?_⟩, fun hs => ?_⟩
  · have hs₁ := h.talks.serves hs
    refine ⟨hs₁.fit.uses fun x hx => ?_, fun hd hh => ?_⟩
    · rcases hrs x hx with rfl | hx
      · exact (h.descriptor hs).2
      · exact hs₁.there hx
    · rw [net_uses]
      exact hs₁.stmt hd hh
  · rw [gone_uses]
    exact h.descriptor hs

/-- A descriptor of the statement handle is acquired. -/
theorem describing_acquire (conn : Connection) (handle : Option Nat) (w : World) :
    Describing conn handle w.fresh w { w with
      fresh := w.fresh + 1
      trace := .acquire ⟨.descriptor, w.fresh⟩ (handle.map (Res.mk .stmt)) :: w.trace } := by
  refine ⟨⟨rfl, rfl, rfl, fun hs => hs.acquire _ _ (fun p hp => ?_) (.inl rfl)⟩, fun hs =>
    ⟨Nat.lt_succ_self _, not_gone_acquire (fun q hm => ?_) (fun hr => ?_) fun p hp => ?_⟩⟩
  · obtain ⟨h, -, rfl⟩ := Option.map_eq_some_iff.mp hp
    rfl
  · exact Nat.lt_irrefl _ (hs.fit.minted.acquired hm)
  · exact Nat.lt_irrefl _ (hs.fit.minted.released hr)
  · obtain ⟨h, hh, rfl⟩ := Option.map_eq_some_iff.mp hp
    exact fun hr => hs.fit.live (hs.stmt h hh) (.inl hr)

/-- A turn of `describe` passes the descriptor only while it is there. -/
theorem talks_readParam (i : Nat) :
    Respects (Talks conn handle) (ResultSet.readParam handle conn.m_errorHandle i) := by
  intro w
  have hUses : Talks conn handle w { w with
      trace := (ptr .stmt handle ++ ptr .error conn.m_errorHandle).map .use ++ w.trace } :=
    talks_pass usable_call w
  rw [ResultSet.readParam, wp_bind]
  simp only [ociParamGet, wp_bind, wp_pass, wp_answer, wp_ite, wp_acquire, wp_pure]
  split
  · -- the descriptor is there until the turn frees it
    have hStart := describing_acquire conn handle { w with
      trace := (ptr .stmt handle ++ ptr .error conn.m_errorHandle).map .use ++ w.trace }
    refine wp_mono (respects_readAttrs (frame_keep _) (fun w₁ (h₁ : Describing conn handle w.fresh
      _ w₁) => h₁.uses fun x hx => ?_) _ _ _) (fun result w₁ hKeep => ?_)
      (fun _ w₁ hKeep => (frame_talks conn handle).trans hUses (hKeep hStart).talks)
    · rcases List.mem_append.mp hx with hx | hx
      · exact .inl (List.mem_singleton.mp hx)
      · exact .inr (usable_ptr (k := .error) x hx)
    · have hEnd : Describing conn handle w.fresh _ { w₁ with
          trace := [(⟨.descriptor, w.fresh⟩ : Res)].map .use ++ w₁.trace } :=
        (hKeep hStart).uses fun x hx => .inl (List.mem_singleton.mp hx)
      simp only [ociDescriptorFree, wp_bind, wp_pass, wp_answer, wp_release, wp_pure]
      refine (frame_talks conn handle).trans hUses
        ⟨hEnd.talks.same, hEnd.talks.rsets, hEnd.talks.stmts, fun hs => ?_⟩
      exact (hEnd.talks.serves hs).release rfl (hEnd.descriptor hs).1 _
  · refine wp_mono (respects_readAttrs (frame_talks conn handle) (talks_pass ?_) _ _ _)
      (fun _ _ ht => (frame_talks conn handle).trans hUses ht)
      (fun _ _ ht => (frame_talks conn handle).trans hUses ht)
    exact usable_ptr (k := .error)

end Descriptors

theorem talks_newColumn (name : TString) (ociDataType maxDataSize fetchSize : Nat) :
    Respects (Talks conn handle) (Column.new r name ociDataType maxDataSize fetchSize) := by
  intro w
  have hAcquire : ∀ hs : Serves conn handle w, _ := fun hs =>
    hs.acquire .column none (fun _ hp => nomatch hp) (.inl rfl)
  rw [Column.new, wp_bind, wp_acquire, wp_bind, wp_get]
  dsimp only
  split
  · rw [wp_bind, wp_modifyCol, wp_pure]
    exact ⟨rfl, rfl, rfl, fun hs => (hAcquire hs).of_eq rfl rfl rfl⟩
  · rw [wp_bind, wp_release, wp_throw]
    exact ⟨rfl, rfl, rfl, fun hs => (hAcquire hs).release rfl (Nat.lt_succ_self _) true⟩

/-- The result set `r` is on the statement handle that may be passed. -/
structure ServesRs (conn : Connection) (handle : Option Nat) (r : Nat) (w : World) : Prop where
  serves : Serves conn handle w
  handle : (w.rsets r).m_rsHandle = handle

section ServesRs

variable {E : OraError → World → Prop}

theorem ServesRs.talks (h : ServesRs conn handle r w) (ht : Talks conn handle w w₁) :
    ServesRs conn handle r w₁ :=
  ⟨ht.serves h.serves, by rw [ht.rsets, h.handle]⟩

theorem ServesRs.wp_talks {x : M α} (h : ServesRs conn handle r w)
    (hx : Respects (Talks conn handle) x) :
    wp x (fun _ w' => ServesRs conn handle r w') (fun _ w' => ServesRs conn handle r w') w :=
  wp_mono (hx w) (fun _ _ ht => h.talks ht) (fun _ _ ht => h.talks ht)

theorem ServesRs.modifyRs (h : ServesRs conn handle r w) (rs : ResultSet)
    (hHandle : rs.m_rsHandle = (w.rsets r).m_rsHandle) :
    ServesRs conn handle r { w with rsets := Function.update w.rsets r rs } :=
  ⟨h.serves.of_eq rfl rfl rfl, by simp [hHandle, h.handle]⟩

theorem keeps_columnsCount :
    Respects (Keep (ServesRs conn handle r)) (ResultSet.columnsCount r) := by
  refine respects_keep fun w h => ?_
  rw [ResultSet.columnsCount, wp_bind, wp_get, h.handle, h.serves.fit.same]
  have hCount : Respects (Talks conn handle) (ociParamCount handle conn.m_errorHandle) :=
    respects_bind (frame_talks conn handle) (talks_passAnswer usable_call _) fun _ =>
      respects_get_bind fun w => by cases handle <;> exact (frame_talks conn _).refl w
  exact h.wp_talks (respects_bind (frame_talks conn handle) hCount fun _ =>
    respects_ite (talks_pure conn handle _) (talks_throwOnError _ _))

theorem keeps_describeColumn (i : Nat) :
    Respects (Keep (ServesRs conn handle r)) (ResultSet.describeColumn r i) := by
  refine respects_keep fun w h => ?_
  rw [ResultSet.describeColumn, wp_bind, wp_get, h.handle, h.serves.fit.same, wp_bind]
  refine wp_mono (h.wp_talks (talks_readParam i)) ?_ (fun _ _ h => h)
  rintro ⟨result, freed⟩ w₁ h₁
  simp only [wp_bind, wp_ite]
  split
  · exact wp_throwOnError fun rs hrs => h₁.talks (talks_thrown w₁ (k := .error) hrs)
  · refine wp_mono (h₁.wp_talks (talks_newColumn _ _ _ _)) (fun col w₂ h₂ => ?_) (fun _ _ h => h)
    rw [wp_modifyRs]
    exact h₂.modifyRs _ rfl

theorem keeps_describe (conn : Connection) (handle : Option Nat) (r : Nat) :
    Respects (Keep (ServesRs conn handle r)) (ResultSet.describe r) := by
  refine respects_bind (frame_keep _) keeps_columnsCount fun count => ?_
  refine respects_bind (frame_keep _)
    (respects_forM (frame_keep _) (fun i => keeps_describeColumn i) _) fun _ => ?_
  exact fun w h => h.modifyRs _ rfl

theorem keeps_defineColumn (col position : Nat) :
    Respects (Keep (ServesRs conn handle r)) (ResultSet.defineColumn r col position) := by
  have hF := frame_talks conn handle
  refine respects_keep fun w h => ?_
  rw [ResultSet.defineColumn, wp_bind, wp_get, h.handle, h.serves.fit.same]
  have hDefine : Respects (Talks conn handle)
      (ociDefineByPos handle conn.m_errorHandle position col (w.cols col).m_size) := by
    refine respects_bind hF (talks_pass usable_call) fun _ => ?_
    refine respects_bind hF (fun w => hF.refl w) fun result => ?_
    refine respects_ite ?_ (talks_pure conn handle _)
    cases handle with
    | none => exact talks_pure conn none _
    | some hd =>
      refine respects_bind hF ?_ fun _ =>
        respects_bind hF (talks_modifyStmtState conn _ hd _) fun _ => talks_pure conn _ _
      exact talks_modify conn _ (fun _ => rfl) (fun _ => rfl) (fun _ => rfl) (fun _ => rfl)
        fun _ => rfl
  have hCharset : Respects (Talks conn handle)
      (ociAttrSet .charsetId position (ptr .error conn.m_errorHandle)) :=
    talks_passAnswer (usable_ptr (k := .error)) _
  refine h.wp_talks (respects_bind hF hDefine fun result => respects_bind hF
    (respects_ite (respects_andThen hF _ hCharset) (talks_pure conn handle _)) fun result => ?_)
  exact respects_ite (talks_throwOnError result _) (talks_pure conn handle _)

theorem keeps_define (conn : Connection) (handle : Option Nat) (r : Nat) :
    Respects (Keep (ServesRs conn handle r)) (ResultSet.define r) := by
  refine respects_get_bind fun w => ?_
  refine respects_bind (frame_keep _)
    (respects_forM (frame_keep _) (fun e : Nat × Nat => keeps_defineColumn e.1 e.2) _)
    (fun _ => ?_) w
  exact fun w h => h.modifyRs _ rfl

/-- **The constructor of a result set** passes no freed handle. -/
theorem fit_newResultSet (hs : Serves conn handle w) (hCursors : w.CursorsBelow w.fresh)
    (fetchSize : Nat) :
    wp (ResultSet.new handle fetchSize) (fun r w' => ServesRs conn handle r w')
      (fun _ w' => Fit conn w') w := by
  rw [ResultSet.new, wp_bind, wp_acquire, wp_bind, wp_modifyRs, wp_bind]
  refine wp_constructing rfl ?_
  rw [ResultSet.attach, wp_bind, wp_modifyRs]
  simp only [Function.update_self, Function.update_idem]
  have hBuilding := building_start w handle (fetchSize % 2 ^ 16) {
    m_rsHandle := handle, m_fetchCount := fetchSize % 2 ^ 16 }
    ⟨rfl, rfl, rfl, rfl, rfl, rfl, rfl⟩ rfl
  have hAcquired := hs.acquire .resultSet none (fun _ hp => by cases hp) (.inl rfl)
  have hStart : ServesRs conn handle w.fresh { w with
      fresh := w.fresh + 1
      trace := .acquire ⟨.resultSet, w.fresh⟩ none :: w.trace
      rsets := Function.update w.rsets w.fresh {
        m_rsHandle := handle, m_fetchCount := fetchSize % 2 ^ 16 } } :=
    ⟨hAcquired.of_eq rfl rfl rfl, by simp⟩
  -- what was built so far can be released
  have hClean : ∀ w₁ ids, Building w w₁ w.fresh handle (fetchSize % 2 ^ 16) ids →
      ServesRs conn handle w.fresh w₁ → wp (releaseObj (1 + 5) ⟨.resultSet, w.fresh⟩)
        (fun _ w' => Fit conn w') (fun _ w' => Fit conn w') w₁ := fun w₁ ids hB hOn =>
    hB.gains.fit_release hs.fit hOn.serves.fit 1 (.inr (.inl rfl)) hCursors
  rw [wp_bind]
  refine wp_mono (wp_and (wp_describe hBuilding) (keeps_describe conn handle _ _)) ?_ ?_
  · rintro _ w₁ ⟨⟨ids, hB, -⟩, hKeep⟩
    have hOn := hKeep hStart
    exact wp_mono (wp_and (wp_define hB) (keeps_define conn handle _ _)) (fun _ w₂ h => h.2 hOn)
      (fun _ w₂ h => hClean w₂ ids h.1 (h.2 hOn))
  · rintro _ w₁ ⟨⟨ids, hB⟩, hKeep⟩
    exact hClean w₁ ids hB (hKeep hStart)

end ServesRs

-- ---------------------------------------------------------------------------
-- Executions, fetches and selects
-- ---------------------------------------------------------------------------

theorem Executing.serves (h : Executing s w w₁) (hs : Serves conn (w.stmts s).m_stmtHandle w) :
    Serves conn (w.stmts s).m_stmtHandle w₁ := by
  have hTrace := h.trace
  rw [hs.fit.same] at hTrace
  refine hs.passed (by rw [h.same]) (by rw [h.same]) hTrace ?_
  rw [List.append_assoc]
  exact List.forall_mem_append.mpr ⟨usable_ptr (k := .svcctx), usable_call⟩

theorem Reading.serves (h : Reading r w w₁) (hs : Serves conn (w.rsets r).m_rsHandle w) :
    Serves conn (w.rsets r).m_rsHandle w₁ := by
  have hTrace := h.trace
  rw [hs.fit.same] at hTrace
  exact hs.passed (by rw [h.same]) (by rw [h.same]) hTrace usable_call

section Calls

variable {E : OraError → World → Prop}

/-- **`Statement::Select`** passes no freed handle. -/
theorem fit_selectWith (hs : Serves conn (w.stmts s).m_stmtHandle w)
    (hCursors : w.CursorsBelow w.fresh) (fetchSize : Nat) :
    wp (Statement.selectWith s fetchSize)
      (fun r w' => Fit conn w' ∧ (w'.rsets r).m_rsHandle = (w.stmts s).m_stmtHandle)
      (fun _ w' => Fit conn w') w := by
  rw [Statement.selectWith, wp_bind]
  refine wp_mono (wp_executePrepared s) ?_ (fun _ we hEx => (hEx.serves hs).fit)
  rintro _ we ⟨hEx, -⟩
  have hse := hEx.serves hs
  have hHandle : (we.stmts s).m_stmtHandle = (w.stmts s).m_stmtHandle := by
    rw [hEx.stmts, Function.update_self]
  have hFresh : we.fresh = w.fresh := by rw [hEx.same]
  have hCursors' : we.CursorsBelow we.fresh :=
    hFresh ▸ (hEx.conserves w.fresh).cursors _ (Nat.le_refl _) hCursors
  rw [wp_bind, wp_get, wp_bind, hHandle]
  refine wp_mono (wp_and (wp_newResultSet _ fetchSize) (fit_newResultSet hse hCursors' fetchSize))
    ?_ (fun _ _ h => h.2)
  rintro r wb ⟨⟨rfl, ids, hB⟩, hOn⟩
  have hFetch : ∀ w', Reading we.fresh wb w' → Fit conn w' := fun w' hw' =>
    (hw'.serves (hOn.handle ▸ hOn.serves)).fit
  rw [wp_bind, wp_tryCatch]
  refine wp_mono (reading_fetchRows _ wb) (fun _ w' hw' => ?_) (fun e w' hw' => ?_)
  · exact ⟨hFetch w' hw', hw'.handle.trans hOn.handle⟩
  · rw [wp_bind]
    exact (hB.building.gains.conserve (hw'.conserves _)).fit_release hse.fit (hFetch w' hw') 0
      (.inr (.inl rfl)) hCursors'

/-- `prepare` allocates a handle and passes it. -/
theorem fit_prepare (hw : Fit conn w) (sql : TString) :
    wp (Statement.prepare s sql) (fun _ w' => Fit conn w') (fun _ w' => Fit conn w') w := by
  rw [Statement.prepare, wp_bind, wp_get, hw.same, wp_bind]
  refine wp_allocStmt (fun hFailed => ?_) (fun _ => ?_)
  · rw [wp_bind, wp_get, wp_bind, wp_orThrow, if_neg hFailed]
    have hUses := hw.serves.uses (usable_ptr (k := .env))
    exact wp_throwOnEnv fun rs hrs => ((talks_thrown _ (k := .env) hrs).serves hUses).fit
  · have hs : Serves conn (some w.fresh)
        (setStmtHandle s w.fresh (w.allocated conn.m_envHandle)) :=
      hw.allocated.of_eq rfl rfl rfl
    have hHandle : ((setStmtHandle s w.fresh (w.allocated conn.m_envHandle)).stmts
        s).m_stmtHandle = some w.fresh := by
      simp [setStmtHandle]
    rw [wp_bind, wp_get, hHandle]
    dsimp only
    rw [OciResult.orThrow, if_pos rfl]
    have hF := frame_keep (Serves conn (some w.fresh))
    have hType : Respects (Keep (Serves conn (some w.fresh)))
        (ociStmtAttrGet .stmtType (some w.fresh) conn.m_errorHandle) :=
      serves_of_talks (talks_passAnswer usable_call _)
    have hThrow : ∀ result : OciResult, Respects (Keep (Serves conn (some w.fresh)))
        (throwOnError result conn.m_errorHandle none : M Unit) := fun result =>
      serves_of_talks (talks_throwOnError result none)
    refine wp_mono (respects_bind hF (serves_of_talks (talks_passAnswer usable_call _))
      (fun r₁ => respects_bind hF (respects_andThen hF r₁ (respects_bind hF hType fun r₂ => ?_))
        fun r₃ => respects_ite (serves_modifyStmt s _) (hThrow r₃)) _)
      (fun _ _ h => (h hs).fit) (fun _ _ h => (h hs).fit)
    exact respects_bind hF (serves_modifyStmt s _) fun _ => respects_pure hF r₂

/-- **The constructor of a statement** passes no freed handle. -/
theorem fit_newStatement (hw : Fit conn w) (hCursors : w.CursorsBelow w.fresh) (sql : TString) :
    wp (Statement.new sql) (fun s w' => Fit conn w' ∧ ∃ h, Prepared w w' s h)
      (fun _ w' => Fit conn w') w := by
  rw [Statement.new, wp_bind, wp_acquire, wp_bind, wp_modifyStmt, wp_bind]
  have hStart : Fit conn { w with
      fresh := w.fresh + 1
      trace := .acquire ⟨.statement, w.fresh⟩ none :: w.trace
      stmts := Function.update w.stmts w.fresh {} } :=
    (hw.acquire .statement none (fun _ hp => by cases hp) (.inl rfl)).of_eq rfl rfl rfl
  refine wp_constructing rfl (wp_mono (wp_and (wp_prepare (gains_startStatement w) (by simp) sql)
    (fit_prepare hStart sql)) (fun _ w' h => ⟨h.2, h.1⟩) (fun e w' h => ?_))
  exact h.1.fit_release hw h.2 1 (.inl rfl) hCursors

/-- What `Prepare` made can be used. -/
theorem Prepared.serves {h : Nat} (hP : Prepared w w₁ s h) (hw : Fit conn w) (hw₁ : Fit conn w₁) :
    Serves conn (w₁.stmts s).m_stmtHandle w₁ := by
  refine ⟨hw₁, fun h' hh => hP.gains.stmt_pos hw ?_⟩
  simp [World.owned, World.stmtOwned, hh, ptr]

/-- **`Connection::Execute`** passes no freed handle. -/
theorem fit_execute (hw : Fit conn w) (hCursors : w.CursorsBelow w.fresh) (sql : TString) :
    wp (Connection.execute sql) (fun _ w' => Fit conn w') (fun _ w' => Fit conn w') w := by
  rw [Connection.execute, wp_bind]
  refine wp_mono (fit_newStatement hw hCursors sql) ?_ (fun _ _ h => h)
  rintro s w₁ ⟨hw₁, h, hP⟩
  have hRelease : ∀ w', Executing s w₁ w' → wp (ReleaseObj ⟨.statement, s⟩)
      (fun _ w'' => Fit conn w'') (fun _ w'' => Fit conn w'') w' := fun w' hEx =>
    (hP.gains.conserve (hEx.conserves _)).fit_release hw (hEx.serves (hP.serves hw hw₁)).fit 0
      (.inl rfl) hCursors
  rw [wp_bind, wp_tryCatch]
  refine wp_mono (wp_executePrepared s) (fun _ w₂ hEx => hRelease w₂ hEx.1)
    (fun e w₂ hEx => ?_)
  rw [wp_bind]
  exact hRelease w₂ hEx

/-- **`Connection::Select`** passes no freed handle. -/
theorem fit_connectionSelect (hw : Fit conn w) (hCursors : w.CursorsBelow w.fresh) (sql : TString)
    (fetchSize : Nat) :
    wp (Connection.selectWith sql fetchSize)
      (fun r w' => Fit conn w' ∧ ptr .stmt (w'.rsets r).m_rsHandle ⊆ w'.owned ⟨.resultSet, r⟩)
      (fun _ w' => Fit conn w') w := by
  rw [Connection.selectWith, wp_bind]
  refine wp_mono (fit_newStatement hw hCursors sql) ?_ (fun _ _ h => h)
  rintro s w₁ ⟨hw₁, h, hP⟩
  have hG := hP.gains
  have hCursors₁ := (hG.conserves.cursors _ (Nat.le_refl _) hCursors).mono hG.conserves.fresh
  rw [wp_tryCatch, wp_bind]
  refine wp_mono (wp_and (gains_selectWith s fetchSize hCursors₁)
    (fit_selectWith (hP.serves hw hw₁) hCursors₁ fetchSize)) ?_ ?_
  · rintro r w₂ ⟨⟨hR, hNone⟩, hw₂, hHandle⟩
    rw [wp_bind, ResultSet.attachStatement, wp_modifyRs, wp_pure]
    refine ⟨hw₂.of_eq rfl rfl rfl, fun y hy => (owned_attached hNone).mem_iff.mpr ?_⟩
    -- the handle is that of the statement, which is as it was when it was made
    have hLinked := hR.conserves.linked ⟨.statement, s⟩ (hG.new _ (mem_owned_self w₁ _)).2
    have hStmt : (w₂.stmts s).m_stmtHandle = (w₁.stmts s).m_stmtHandle := hLinked.1
    simp only [Function.update_self] at hy
    rw [hHandle, ← hStmt] at hy
    simp only [World.stmtOwned, List.mem_append]
    exact .inl (.inl (.inl hy))
  · rintro e w₂ ⟨hC, hw₂⟩
    rw [wp_bind]
    exact (hG.conserve hC).fit_release hw hw₂ 0 (.inl rfl) hCursors

end Calls

-- ---------------------------------------------------------------------------
-- Parameters
-- ---------------------------------------------------------------------------

section Parameters

variable {name : TString}

theorem talks_setupType (p : Nat) (type : DataType) :
    Respects (Talks conn handle) (Parameter.setupType p name type) := by
  have hF := frame_talks conn handle
  refine respects_get_bind fun w => ?_
  dsimp only
  refine respects_ite (respects_bind hF (talks_modifyParam conn handle p _) fun _ => ?_) ?_ w
  · split
    · exact talks_modifyParam conn handle p _
    · exact respects_throw hF _
  · split
    · exact talks_modifyParam conn handle p _
    · exact respects_throw hF _

theorem talks_setCharset (result : OciResult) (w : World) (hConn : w.conn = conn) :
    wp (Parameter.setCharset result) (fun _ w' => Talks conn handle w w')
      (fun _ w' => Talks conn handle w w') w := by
  rw [Parameter.setCharset, wp_bind, wp_get, hConn]
  have hSet : Respects (Talks conn handle)
      (ociAttrSet .charsetId 0 (ptr .error conn.m_errorHandle)) :=
    talks_passAnswer (usable_ptr (k := .error)) _
  exact respects_ite (respects_andThen (frame_talks conn handle) result hSet)
    (talks_pure conn handle result) w

theorem talks_ociBindByName (reg : Registration) :
    Respects (Talks conn handle) (ociBindByName handle conn.m_errorHandle name reg) := by
  have hF := frame_talks conn handle
  refine respects_bind hF (talks_pass usable_call) fun _ => ?_
  refine respects_bind hF (fun w => hF.refl w) fun result => ?_
  refine respects_ite (respects_get_bind fun w => ?_) (talks_pure conn handle _)
  cases handle with
  | none => exact talks_pure conn none _ w
  | some h =>
    exact respects_bind hF (talks_modifyStmtState conn _ h _) (fun _ => talks_pure conn _ _) w

/-- What both kinds of bind end with. -/
theorem talks_bindTail (p s : Nat) (name : TString) (reg : Registration) (w : World)
    (hConn : w.conn = conn) :
    wp (do
        let result ← (do
          let result ← ociBindByName handle conn.m_errorHandle name reg
          Parameter.setCharset result)
        if result ≠ .success then throwOnError result conn.m_errorHandle (some name)
        modifyParam p fun param => { param with m_stmt := some s })
      (fun _ w' => Talks conn handle w w') (fun _ w' => Talks conn handle w w') w := by
  have hF := frame_talks conn handle
  rw [wp_bind, wp_bind]
  refine wp_mono (talks_ociBindByName reg w) (fun result w₁ h₁ => ?_) (fun _ _ h => h)
  refine wp_mono (talks_setCharset result w₁ (h₁.same.trans hConn)) (fun result w₂ h₂ => ?_)
    (fun _ _ h => hF.trans h₁ h)
  have hEnd : Respects (Talks conn handle) (do
      if result ≠ .success then throwOnError result conn.m_errorHandle (some name)
      modifyParam p fun param => { param with m_stmt := some s }) := by
    have hStore := talks_modifyParam conn handle p fun param => { param with m_stmt := some s }
    exact respects_ite (respects_bind hF (talks_throwOnError result _) fun _ => hStore) hStore
  exact wp_mono (hEnd w₂) (fun _ _ h => hF.trans (hF.trans h₁ h₂) h)
    (fun _ _ h => hF.trans (hF.trans h₁ h₂) h)

/-- `bind` of a number, a date or a text. -/
theorem talks_bind (w : World) (hConn : w.conn = conn)
    (hHandle : (w.stmts s).m_stmtHandle = handle) :
    wp (Parameter.bind p s) (fun _ w' => Talks conn handle w w')
      (fun _ w' => Talks conn handle w w') w := by
  have hF := frame_talks conn handle
  rw [Parameter.bind, wp_bind, wp_get, hConn, hHandle]
  dsimp only
  cases Parameter.initial w.cfg (w.params p).m_paramType with
  | none => exact hF.refl w
  | some buffer =>
    have hTail : ∀ w₁, Talks conn handle w w₁ → _ := fun w₁ h₁ =>
      wp_mono (talks_bindTail p s (w.params p).m_paramName {
          valuep := .buffer p
          indp := some (.indicator p)
          alenp := some (.dataLen p) } w₁ (h₁.same.trans hConn))
        (fun _ _ h => hF.trans h₁ h) (fun _ _ h => hF.trans h₁ h)
    have hStore := talks_modifyParam conn handle p fun param => { param with
      m_fetchBuffer := some buffer
      m_dataLen := (w.params p).m_size % 2 ^ 16 }
    simp only [bind_assoc] at hTail ⊢
    rw [wp_ite]
    split
    · have hPass : Talks conn handle w { w with
          trace := (ptr .error conn.m_errorHandle).map .use ++ w.trace } :=
        talks_pass (usable_ptr (k := .error)) w
      rw [wp_bind, wp_pass, wp_bind, wp_modifyParam]
      exact hTail _ (hF.trans hPass (hStore _))
    · rw [wp_bind, wp_modifyParam]
      exact hTail _ (hStore w)

/-- `bindResultSet`. -/
theorem talks_bindResultSet (w : World) (hConn : w.conn = conn)
    (hHandle : (w.stmts s).m_stmtHandle = handle) :
    wp (Parameter.bindResultSet p s) (fun _ w' => Talks conn handle w w')
      (fun _ w' => Talks conn handle w w') w := by
  have hF := frame_talks conn handle
  rw [Parameter.bindResultSet, wp_bind, wp_get, hConn, hHandle]
  dsimp only
  rw [wp_bind]
  refine wp_allocStmt (fun hFailed => ?_) (fun _ => ?_)
  · have hPass : Talks conn handle w { w with
        trace := (ptr .env conn.m_envHandle).map .use ++ w.trace } :=
      talks_pass (usable_ptr (k := .env)) w
    rw [wp_bind, wp_orThrow, if_neg hFailed]
    exact wp_throwOnEnv fun rs hrs => hF.trans hPass (talks_thrown _ (k := .env) hrs)
  · have hNew : Talks conn handle w (setRsHandle p w.fresh (w.allocated conn.m_envHandle)) :=
      ⟨rfl, rfl, rfl, fun hs => hs.allocated.of_eq rfl rfl rfl⟩
    rw [OciResult.orThrow, if_pos rfl]
    exact wp_mono (talks_bindTail _ _ _ _ _ (hNew.same.trans hConn)) (fun _ _ h => hF.trans hNew h)
      (fun _ _ h => hF.trans hNew h)

theorem talks_attachParameter (w : World) (hConn : w.conn = conn)
    (hHandle : (w.stmts s).m_stmtHandle = handle) (type : DataType) :
    wp (Parameter.attach p s name type) (fun _ w' => Talks conn handle w w')
      (fun _ w' => Talks conn handle w w') w := by
  have hF := frame_talks conn handle
  have hStart : Respects (Talks conn handle) (do
      modifyParam p fun param => { param with m_paramName := name }
      Parameter.setupType p name type
      modifyParam p fun param => { param with
        m_indicator := ORADATA_NULL
        m_dataLen := 0
        m_fetchBuffer := none
        m_stmt := none
        m_rsHandle := none
        m_resultSet := none }) :=
    respects_bind hF (talks_modifyParam conn handle p _) fun _ =>
      respects_bind hF (talks_setupType p type) fun _ => talks_modifyParam conn handle p _
  have hBind : ∀ w₁, Talks conn handle w w₁ →
      wp (if (w₁.params p).m_paramType = .resultSet then Parameter.bindResultSet p s
        else Parameter.bind p s) (fun _ w' => Talks conn handle w w')
        (fun _ w' => Talks conn handle w w') w₁ := by
    intro w₁ h₁
    have hConn₁ := h₁.same.trans hConn
    have hHandle₁ : (w₁.stmts s).m_stmtHandle = handle := by rw [h₁.stmts, hHandle]
    rw [wp_ite]
    split
    · exact wp_mono (talks_bindResultSet w₁ hConn₁ hHandle₁) (fun _ _ h => hF.trans h₁ h)
        (fun _ _ h => hF.trans h₁ h)
    · exact wp_mono (talks_bind w₁ hConn₁ hHandle₁) (fun _ _ h => hF.trans h₁ h)
        (fun _ _ h => hF.trans h₁ h)
  have hRun := wp_mono (hStart w) (fun _ w₁ h₁ => hBind w₁ h₁) (fun _ _ h => h)
  simp only [wp_bind] at hRun
  simp only [Parameter.attach, wp_bind, wp_get]
  exact hRun

/-- **The constructor of a parameter** passes no freed handle. -/
theorem fit_newParameter (hs : Serves conn (w.stmts s).m_stmtHandle w)
    (hCursors : w.CursorsBelow w.fresh) (type : DataType) :
    wp (Parameter.new s name type) (fun _ w' => Fit conn w') (fun _ w' => Fit conn w') w := by
  rw [Parameter.new, wp_bind, wp_acquire, wp_bind, wp_modifyParam, wp_bind]
  have hStart : Serves conn (w.stmts s).m_stmtHandle { w with
      fresh := w.fresh + 1
      trace := .acquire ⟨.parameter, w.fresh⟩ none :: w.trace
      params := Function.update w.params w.fresh {} } :=
    (hs.acquire .parameter none (fun _ hp => by cases hp) (.inl rfl)).of_eq rfl rfl rfl
  refine wp_constructing rfl (wp_mono (wp_and (wp_attachParameter (attaching_start w s) name type)
    (talks_attachParameter _ hStart.fit.same rfl type))
    (fun _ w' h => (h.2.serves hStart).fit) (fun e w' h => ?_))
  obtain ⟨⟨-, param, t, done, -, hA⟩, hT⟩ := h
  exact hA.gains.fit_release hs.fit (hT.serves hStart).fit 1 (.inr (.inr rfl)) hCursors

/-- **`Statement::Bind`** passes no freed handle. -/
theorem fit_statementBind (hs : Serves conn (w.stmts s).m_stmtHandle w)
    (hCursors : w.CursorsBelow w.fresh) (type : DataType) :
    wp (Statement.bind s name type) (fun _ w' => Fit conn w') (fun _ w' => Fit conn w') w := by
  rw [Statement.bind, wp_bind]
  refine wp_mono (fit_newParameter hs hCursors type) (fun p w₁ hw₁ => ?_) (fun _ _ h => h)
  rw [wp_bind, wp_get, wp_bind, wp_modifyStmt, wp_pure]
  exact hw₁.of_eq rfl rfl rfl

end Parameters

end Epol
