import EpOraLibrary.Session.Locality

/-!
# EpOraLibrary — objects are ready for use

What the `EP_ASSERT`s of the library ask of its own state: a statement is
prepared on a handle; its parameters point back to it, a cursor has a handle and
any other parameter its buffer; a result set is described and defined on a
handle, and its columns point back to it. What they ask of the application —
that a statement is a query before `Select`, and executed before `ToResultSet` —
is not part of it.

* `Steady` — an object keeps what readiness rests on.
* `steady_call` — a call keeps it of the objects the application holds, but for
  the parameters of a `Bind` and the result set of a `ToResultSet`.
* `ready_returned` — the object a call returns is ready.
* `session_objects_ready` — **every object of a session is ready.**
-/

namespace Epol

open Ledger Prog Runs

variable {w w' w₁ w₂ : World} {n s p r h : Nat} {held : List Res}

-- ---------------------------------------------------------------------------
-- Readiness
-- ---------------------------------------------------------------------------

/-- The result set can be fetched from, and its columns read. -/
structure World.RsReady (w : World) (r : Nat) : Prop where
  handle    : ∃ h, (w.rsets r).m_rsHandle = some h
  described : (w.rsets r).m_isDescribed = true
  defined   : (w.rsets r).m_isDefined = true
  columns   : ∀ c ∈ (w.rsets r).m_columns, (w.cols c).m_resultSet = some r

/-- The parameter `p` of the statement `s` can be assigned to and read; the
result set of a cursor was made on its handle. -/
structure World.ParamReady (w : World) (s p : Nat) : Prop where
  stmt   : (w.params p).m_stmt = some s
  value  : (w.params p).m_paramType ≠ .resultSet → (w.params p).m_fetchBuffer.isSome
  handle : (w.params p).m_paramType = .resultSet → ∃ h, (w.params p).m_rsHandle = some h
  cursor : ∀ r, (w.params p).m_resultSet = some r →
    w.RsReady r ∧ (w.rsets r).m_rsHandle = (w.params p).m_rsHandle

/-- The statement can be executed and bound to. -/
structure World.StmtReady (w : World) (s : Nat) : Prop where
  handle     : ∃ h, (w.stmts s).m_stmtHandle = some h
  prepared   : (w.stmts s).m_isPrepared = true
  parameters : ∀ p ∈ (w.stmts s).m_parameters, w.ParamReady s p

/-- The object is ready, with all it leads to. -/
def World.Ready (w : World) (o : Res) : Prop :=
  match o.kind with
  | .resultSet => w.RsReady o.id ∧ ∀ s, (w.rsets o.id).m_stmt = some s → w.StmtReady s
  | .statement => w.StmtReady o.id
  | _ => True

-- ---------------------------------------------------------------------------
-- What readiness rests on
-- ---------------------------------------------------------------------------

/-- The object owns the same in both worlds, and what its `EP_ASSERT`s look at is
the same. -/
def Steady (w w' : World) (x : Res) : Prop :=
  match x.kind with
  | .resultSet => w'.rsets x.id = { w.rsets x.id with
      m_currentRow := (w'.rsets x.id).m_currentRow
      m_rowsFetched := (w'.rsets x.id).m_rowsFetched
      m_isEod := (w'.rsets x.id).m_isEod }
  | .statement => w'.stmts x.id = { w.stmts x.id with
      m_isExecuted := (w'.stmts x.id).m_isExecuted }
  | .parameter => (w.params x.id).Revalued (w'.params x.id)
  | .column => (w'.cols x.id).m_resultSet = (w.cols x.id).m_resultSet
  | _ => True

theorem Parameter.Revalued.refl (param : Parameter) : param.Revalued param := ⟨rfl, rfl⟩

theorem Parameter.Revalued.trans {p₀ p₁ p₂ : Parameter} (h : p₀.Revalued p₁)
    (h' : p₁.Revalued p₂) : p₀.Revalued p₂ where
  same := by rw [h'.same, h.same]
  buffer := h'.buffer.trans h.buffer

theorem SameAt.steady {x : Res} (h : SameAt w w' x) : Steady w w' x := by
  obtain ⟨kind, id⟩ := x
  cases kind with
  | resultSet =>
    show w'.rsets id = _
    rw [show w'.rsets id = w.rsets id from h]
  | statement =>
    show w'.stmts id = _
    rw [show w'.stmts id = w.stmts id from h]
  | parameter =>
    show (w.params id).Revalued (w'.params id)
    rw [show w'.params id = w.params id from h]
    exact .refl _
  | column => exact congrArg Column.m_resultSet h
  | _ => trivial

theorem Steady.refl (w : World) (x : Res) : Steady w w x := (SameAt.refl w x).steady

theorem Steady.trans {x : Res} (h : Steady w w₁ x) (h' : Steady w₁ w₂ x) : Steady w w₂ x := by
  obtain ⟨kind, id⟩ := x
  cases kind with
  | resultSet =>
    show w₂.rsets id = _
    rw [show w₂.rsets id = _ from h', show w₁.rsets id = _ from h]
  | statement =>
    show w₂.stmts id = _
    rw [show w₂.stmts id = _ from h', show w₁.stmts id = _ from h]
  | parameter => exact Parameter.Revalued.trans h h'
  | column => exact Eq.trans h' h
  | _ => trivial

/-- All objects are steady. -/
theorem frame_steady : Frame fun w w' => ∀ x, Steady w w' x where
  refl w x := .refl w x
  trans hst htu x := (hst x).trans (htu x)

theorem World.RsReady.steady (hR : w.RsReady r)
    (hSteady : ∀ x ∈ w.owned ⟨.resultSet, r⟩, Steady w w' x) : w'.RsReady r := by
  have hRs : w'.rsets r = _ := hSteady ⟨.resultSet, r⟩ (mem_owned_self w _)
  constructor
  · rw [hRs]
    exact hR.handle
  · rw [hRs]
    exact hR.described
  · rw [hRs]
    exact hR.defined
  · intro c hc
    rw [hRs] at hc
    have hColumn : Steady w w' ⟨.column, c⟩ :=
      hSteady _ (by simp [World.owned, World.rsOwned, World.columnsOwned, hc])
    exact Eq.trans hColumn (hR.columns c hc)

/-- What the result set of a cursor parameter owns belongs to the parameter. -/
theorem rsOwned_sub_param (hr : (w.params p).m_resultSet = some r)
    (hNone : (w.rsets r).m_stmt = none) :
    w.owned ⟨.resultSet, r⟩ ⊆ w.owned ⟨.parameter, p⟩ := by
  intro x hx
  have hCursor : w.owned ⟨.resultSet, r⟩ = w.cursorOwned r := by
    simp [World.owned, World.rsOwned, World.cursorOwned, hNone]
  rw [hCursor] at hx
  simp [World.owned, World.paramOwned, hr, hx]

theorem World.ParamReady.steady (hP : w.ParamReady s p) (hCursors : w.CursorsBelow n)
    (hSteady : ∀ x ∈ w.owned ⟨.parameter, p⟩, Steady w w' x) : w'.ParamReady s p := by
  have hParam : (w.params p).Revalued (w'.params p) := hSteady ⟨.parameter, p⟩ (mem_owned_self w _)
  have hType : (w'.params p).m_paramType = (w.params p).m_paramType := by rw [hParam.same]
  constructor
  · rw [hParam.same]
    exact hP.stmt
  · intro hValue
    rw [hParam.buffer]
    exact hP.value (hType ▸ hValue)
  · intro hKind
    rw [hParam.owns.2]
    exact hP.handle (hType ▸ hKind)
  · intro r hr
    rw [hParam.owns.1] at hr
    obtain ⟨hReady, hHandle⟩ := hP.cursor r hr
    have hOwned := rsOwned_sub_param hr (hCursors p r hr).2
    have hRs : w'.rsets r = _ := hSteady ⟨.resultSet, r⟩ (hOwned (mem_owned_self w _))
    refine ⟨hReady.steady fun x hx => hSteady x (hOwned hx), ?_⟩
    rw [hRs, hParam.owns.2]
    exact hHandle

theorem World.StmtReady.steady (hS : w.StmtReady s) (hCursors : w.CursorsBelow n)
    (hSteady : ∀ x ∈ w.owned ⟨.statement, s⟩, Steady w w' x) : w'.StmtReady s := by
  have hStmt : w'.stmts s = _ := hSteady ⟨.statement, s⟩ (mem_owned_self w _)
  constructor
  · rw [hStmt]
    exact hS.handle
  · rw [hStmt]
    exact hS.prepared
  · intro p hp
    rw [hStmt] at hp
    exact (hS.parameters p hp).steady hCursors fun x hx => hSteady x (paramOwned_sub_stmt hp hx)

/-- **An object stays ready** where all it owns is steady. -/
theorem World.Ready.steady {o : Res} (hR : w.Ready o) (hCursors : w.CursorsBelow n)
    (hSteady : ∀ x ∈ w.owned o, Steady w w' x) : w'.Ready o := by
  obtain ⟨kind, id⟩ := o
  cases kind with
  | resultSet =>
    obtain ⟨hRs, hStmt⟩ := hR
    have hSame : w'.rsets id = _ := hSteady ⟨.resultSet, id⟩ (mem_owned_self w _)
    refine ⟨hRs.steady hSteady, fun s hs => ?_⟩
    rw [hSame] at hs
    refine (hStmt s hs).steady hCursors fun x hx => hSteady x ?_
    have hAttached : (w.rsets id).m_stmt = some s := hs
    simp only [World.owned, World.rsOwned, hAttached, Option.toList_some, List.flatMap_singleton,
      List.mem_append]
    exact .inl (.inr hx)
  | statement => exact World.StmtReady.steady hR hCursors hSteady
  | _ => trivial

-- ---------------------------------------------------------------------------
-- What a call leaves steady
-- ---------------------------------------------------------------------------

theorem Executing.steady (hEx : Executing s w w') (x : Res) : Steady w w' x := by
  obtain ⟨kind, id⟩ := x
  cases kind with
  | statement =>
    show w'.stmts id = _
    by_cases hs : id = s
    · subst hs
      rw [hEx.stmts, Function.update_self]
    · rw [hEx.stmts, Function.update_of_ne hs]
  | _ =>
    refine SameAt.steady ?_
    rw [hEx.same]
    first | rfl | trivial

theorem Reading.steady (hR : Reading r w w') (x : Res) : Steady w w' x := by
  obtain ⟨kind, id⟩ := x
  cases kind with
  | resultSet =>
    show w'.rsets id = _
    by_cases hr : id = r
    · subst hr
      rw [hR.rsets, Function.update_self]
    · rw [hR.rsets, Function.update_of_ne hr]
  | column =>
    show (w'.cols id).m_resultSet = _
    rw [hR.cols]
  | _ =>
    refine SameAt.steady ?_
    rw [hR.same]
    first | rfl | trivial

theorem Touches.steady {T : Place → Prop} (hT : Touches n T w w') {x : Res} (hOld : x.id < n)
    (hx : ¬ T (.object x)) : Steady w w' x :=
  (hT.same (.object x) hOld hx).1.steady

/-- A call on the value of a parameter. -/
theorem steady_registerCall (l : RegisterCall) :
    Respects (fun w w' => ∀ x, Steady w w' x) (l.exec p) := by
  refine respects_registerCall frame_steady (fun w rs _ x => ?_) l
    fun f hf _ => respects_modify fun w x => ?_
  · exact SameAt.steady (.refl w x)
  · obtain ⟨kind, id⟩ := x
    cases kind with
    | parameter =>
      show (w.params id).Revalued _
      by_cases hp : id = p
      · subst hp
        simpa using hf (w.params id)
      · simpa [hp] using .refl _
    | resultSet => rfl
    | statement => rfl
    | column => rfl
    | _ => trivial

/-- The call makes no part of the held object `o` other than it was: neither a
`Bind` nor a `ToResultSet` on it, nor its release. -/
def SessionCall.Keeps (o : Res) : SessionCall → Prop
  | .call (.bind s _ _) => o ≠ ⟨.statement, s⟩
  | .call (.release x) => o ≠ x
  | .toResultSet s _ => o ≠ ⟨.statement, s⟩
  | _ => True

/-- **A call** leaves the parts of the other objects steady, and of its own
unless it is a `Bind` or a `ToResultSet`. -/
theorem steady_call (hP : Placed w held) {l : SessionCall} (hPermits : App.Permits ⟨w, held⟩ l)
    {o : Res} (ho : o ∈ held) (hKeeps : l.Keeps o) :
    wp l.run (fun _ w' => ∀ x ∈ w.owned o, Steady w w' x)
      (fun _ w' => ∀ x ∈ w.owned o, Steady w w' x) w := by
  have hOld : ∀ x ∈ w.owned o, x.id < w.fresh := fun x hx => hP.below (P := .object x) ho hx
  -- calls that reach no object that `o` owns
  have hApart : (∀ x ∈ w.owned o, ¬ w.Reaches l (.object x)) →
      wp l.run (fun _ w' => ∀ x ∈ w.owned o, Steady w w' x)
        (fun _ w' => ∀ x ∈ w.owned o, Steady w w' x) w := fun hNot =>
    wp_mono (hP.sound.touches l hPermits)
      (fun _ _ hT x hx => hT.steady (hOld x hx) (hNot x hx))
      (fun _ _ hT x hx => hT.steady (hOld x hx) (hNot x hx))
  have hOwner : ∀ {s x}, ⟨.statement, s⟩ ∈ held → x ∈ w.owned ⟨.statement, s⟩ → x ∈ w.owned o →
      o = ⟨.statement, s⟩ := fun hs hxs hx => hP.sound.owner_unique hs ho hxs hx
  have hNext : ∀ r, wp (ResultSet.next r) (fun _ w' => ∀ x ∈ w.owned o, Steady w w' x)
      (fun _ w' => ∀ x ∈ w.owned o, Steady w w' x) w := fun r =>
    wp_mono (reading_next r w) (fun _ _ hR x _ => hR.steady x) (fun _ _ hR x _ => hR.steady x)
  cases l with
  | call l =>
    cases l with
    | execute sql => exact hApart fun _ _ hReach => hReach
    | prepare sql => exact hApart fun _ _ hReach => hReach
    | select sql F => exact hApart fun _ _ hReach => hReach
    | bind s name type =>
      refine hApart fun x hx hReach => ?_
      rcases hReach with hSelf | ⟨_, _, hBinds⟩
      · obtain rfl := Place.object.inj hSelf
        exact hKeeps (hOwner (hPermits _ rfl) (mem_owned_self w _) hx)
      · cases hBinds
    | stmtExecute s =>
      rw [SessionCall.run, Call.run, wp_bind]
      exact wp_mono (wp_executePrepared s) (fun _ _ hEx x _ => hEx.1.steady x)
        (fun _ _ hEx x _ => hEx.steady x)
    | stmtSelect s F =>
      rw [SessionCall.run, Call.run, wp_bind]
      have hRest : ∀ {w'}, (∃ we, Executing s w we ∧
          Touches w.fresh (fun place => ∃ h, place = .cursor h) we w') →
          ∀ x ∈ w.owned o, Steady w w' x := by
        rintro w' ⟨we, hEx, hT⟩ x hx
        refine (hEx.steady x).trans (hT.steady (hOld x hx) ?_)
        rintro ⟨_, hCursor⟩
        cases hCursor
      exact wp_mono (executing_selectWith (Nat.le_refl _) hP.sound.cursors
        (hP.statement_below (hPermits _ rfl)).2 F fun h _ _ => ⟨h, rfl⟩)
        (fun _ _ hExecuted => hRest hExecuted) (fun _ _ hExecuted => hRest hExecuted)
    | next r =>
      rw [SessionCall.run, Call.run, wp_bind]
      exact hNext r
    | release y =>
      refine hApart fun x hx hReach => ?_
      obtain ⟨x', hx', hSame⟩ := hReach
      obtain rfl := Place.object.inj hSame
      exact hKeeps (hP.sound.owner_unique (hPermits y rfl) ho hx' hx)
  | register s p l =>
    rw [SessionCall.run, wp_bind]
    exact wp_mono (steady_registerCall l w) (fun _ _ h x _ => h x) (fun _ _ h x _ => h x)
  | toResultSet s p =>
    refine hApart fun x hx hReach => ?_
    rcases hReach with hSelf | ⟨_, _, hCursor⟩
    · obtain rfl := Place.object.inj hSelf
      exact hKeeps (hOwner hPermits.1 (paramOwned_sub_stmt hPermits.2 (mem_owned_self w _)) hx)
    · cases hCursor
  | cursorNext s p =>
    rw [SessionCall.run, Parameter.cursorNext, wp_bind, wp_bind, wp_get]
    cases (w.params p).m_resultSet with
    | none => exact fun x _ => .refl w x
    | some r =>
      dsimp only
      rw [wp_bind]
      exact hNext r

-- ---------------------------------------------------------------------------
-- New objects
-- ---------------------------------------------------------------------------

/-- `prepare` that returns has set its flag. -/
theorem prepared_prepare (sql : TString) :
    wp (Statement.prepare s sql) (fun _ w' => (w'.stmts s).m_isPrepared = true) (fun _ _ => True)
      w := by
  have hSkip : ∀ {α : Type} (x : M α) {Q : α → World → Prop} (w : World),
      (∀ a w', Q a w') → wp x Q (fun _ _ => True) w := fun x _ w hQ =>
    wp_mono (wp_trivial x w) (fun a w' _ => hQ a w') (fun _ _ _ => trivial)
  rw [Statement.prepare, wp_bind, wp_get, wp_bind]
  refine hSkip _ _ fun _ w₁ => ?_
  rw [wp_bind, wp_get, wp_bind]
  refine hSkip _ _ fun _ w₂ => ?_
  rw [wp_bind]
  refine hSkip _ _ fun result w₃ => ?_
  rw [wp_ite]
  split
  · rw [wp_modifyStmt]
    simp
  · exact wp_throwOnError fun _ _ => trivial

/-- A new statement. -/
theorem ready_newStatement (sql : TString) (hCursors : w.CursorsBelow w.fresh) :
    wp (Statement.new sql) (fun s w' => w'.StmtReady s) (fun _ _ => True) w := by
  have hPrepared : wp (Statement.new sql) (fun s w' => (w'.stmts s).m_isPrepared = true)
      (fun _ _ => True) w := by
    rw [Statement.new, wp_bind, wp_acquire, wp_bind, wp_modifyStmt, wp_bind]
    exact wp_constructing rfl (wp_mono (prepared_prepare sql) (fun _ _ h => h)
      fun _ w' _ => wp_trivial _ w')
  refine wp_mono (wp_and (wp_newStatement sql hCursors) hPrepared) ?_ (fun _ _ _ => trivial)
  rintro s w' ⟨⟨-, h, hP⟩, hFlag⟩
  refine ⟨⟨h, hP.handle⟩, hFlag, fun p hp => ?_⟩
  rw [hP.parameters] at hp
  exact absurd hp List.not_mem_nil

/-- The records of the result sets are the same. -/
def SameRsets (w w' : World) : Prop := w'.rsets = w.rsets

theorem frame_sameRsets : Frame SameRsets where
  refl _ := rfl
  trans hst htu := Eq.trans htu hst

theorem sameRsets_defineColumn (col position : Nat) :
    Respects SameRsets (ResultSet.defineColumn r col position) := by
  have hR := frame_sameRsets
  have hPass : ∀ rs call, Respects SameRsets (do pass rs; answer call) := fun _ _ _ => by rfl
  have hThrow : ∀ result error format, Respects SameRsets
      (throwOnError result error format : M Unit) := fun _ _ _ _ => wp_throwOnError fun _ _ => rfl
  have hDefine : ∀ stmt error size,
      Respects SameRsets (ociDefineByPos stmt error position col size) := by
    intro stmt error size w
    simp only [ociDefineByPos, wp_bind, wp_pass, wp_answer, wp_ite, wp_pure]
    split
    · cases stmt <;> exact rfl
    · rfl
  refine respects_get_bind fun w => ?_
  refine respects_bind hR (hDefine _ _ _) (fun result => respects_bind hR ?_ fun result => ?_) w
  · exact respects_ite (respects_andThen hR _ (hPass _ _)) (respects_pure hR _)
  · exact respects_ite (hThrow _ _ _) (respects_pure hR _)

/-- `define` sets its flag. -/
theorem defined_define (hDescribed : (w.rsets r).m_isDescribed = true) :
    wp (ResultSet.define r)
      (fun _ w' => (w'.rsets r).m_isDescribed = true ∧ (w'.rsets r).m_isDefined = true)
      (fun _ _ => True) w := by
  rw [ResultSet.define, wp_bind, wp_get, wp_bind]
  refine wp_mono (respects_forM frame_sameRsets
      (fun e : Nat × Nat => sameRsets_defineColumn e.1 e.2) _ w)
    (fun _ w' hSame => ?_) (fun _ _ _ => trivial)
  rw [wp_modifyRs, show w'.rsets = w.rsets from hSame]
  simpa using hDescribed

/-- A new result set. -/
theorem ready_newResultSet (handle : Option Nat) (F : Nat) (hHandle : ∃ h, handle = some h) :
    wp (ResultSet.new handle F) (fun r w' => w'.RsReady r) (fun _ _ => True) w := by
  have hFlags : wp (ResultSet.new handle F)
      (fun r w' => (w'.rsets r).m_isDescribed = true ∧ (w'.rsets r).m_isDefined = true)
      (fun _ _ => True) w := by
    rw [ResultSet.new, wp_bind, wp_acquire, wp_bind, wp_modifyRs, wp_bind]
    refine wp_constructing rfl ?_
    have hDone : ∀ (e : OraError) (w' : World), wp (releaseObj (1 + 5) ⟨.resultSet, w.fresh⟩)
        (fun _ _ => True) (fun _ _ => True) w' := fun _ w' => wp_trivial _ w'
    rw [ResultSet.attach, wp_bind, wp_modifyRs, wp_bind, ResultSet.describe, wp_bind]
    refine wp_mono (wp_trivial _ _) (fun count w₁ _ => ?_) (fun e w' _ => hDone e w')
    rw [wp_bind]
    refine wp_mono (wp_trivial _ _) (fun _ w₂ _ => ?_) (fun e w' _ => hDone e w')
    rw [wp_modifyRs]
    exact wp_mono (defined_define (by simp)) (fun _ _ h => h) (fun e w' _ => hDone e w')
  refine wp_mono (wp_and (wp_newResultSet handle F) hFlags) ?_ (fun _ _ _ => trivial)
  rintro r w' ⟨⟨-, ids, hB⟩, hDescribed, hDefined⟩
  refine ⟨?_, hDescribed, hDefined, ?_⟩
  · rw [hB.building.rset.handle]
    exact hHandle
  · rw [hB.building.rset.columns]
    exact hB.building.owner

/-- The first fetch leaves a new result set ready. -/
theorem Reading.rsReady (hR : Reading r w w') (h : w.RsReady r) : w'.RsReady r :=
  h.steady fun x _ => hR.steady x

/-- A result set that `Statement::Select` returns. -/
theorem ready_selectWith (F : Nat) (hHandle : ∃ h, (w.stmts s).m_stmtHandle = some h) :
    wp (Statement.selectWith s F) (fun r w' => w'.RsReady r) (fun _ _ => True) w := by
  rw [Statement.selectWith, wp_bind]
  refine wp_mono (wp_executePrepared s) ?_ (fun _ _ _ => trivial)
  rintro - we ⟨hEx, -⟩
  have hSame : (we.stmts s).m_stmtHandle = (w.stmts s).m_stmtHandle := by
    rw [hEx.stmts, Function.update_self]
  rw [wp_bind, wp_get, wp_bind, hSame]
  refine wp_mono (ready_newResultSet _ F hHandle) (fun r wb hReady => ?_) (fun _ _ _ => trivial)
  rw [wp_bind, wp_tryCatch]
  refine wp_mono (reading_fetchRows r wb) (fun _ w' hR => hR.rsReady hReady) (fun _ w' _ => ?_)
  rw [wp_bind]
  exact wp_mono (wp_trivial _ w') (fun _ _ _ => trivial) (fun _ _ _ => trivial)

/-- A result set that `Connection::Select` returns, with its statement. -/
theorem ready_connectionSelect (sql : TString) (F : Nat) (hCursors : w.CursorsBelow w.fresh) :
    wp (Connection.selectWith sql F) (fun r w' => w'.Ready ⟨.resultSet, r⟩) (fun _ _ => True)
      w := by
  rw [Connection.selectWith, wp_bind]
  refine wp_mono (wp_and (wp_newStatement sql hCursors) (ready_newStatement sql hCursors)) ?_
    (fun _ _ _ => trivial)
  rintro s w₁ ⟨⟨-, h, hP⟩, hReady⟩
  have hC := hP.gains.conserves
  have hCursors₁ := (hC.cursors _ (Nat.le_refl _) hCursors).mono hC.fresh
  have hOld : s < w₁.fresh := (hP.gains.new _ (mem_owned_self _ _)).2
  rw [wp_tryCatch, wp_bind]
  refine wp_mono (wp_and (ready_selectWith F ⟨h, hP.handle⟩) (executing_selectWith
    (T := fun place => ∃ h, place = .cursor h) (Nat.le_refl _) hCursors₁
    (fun _ hh => hP.handle_lt hh) F fun h _ _ => ⟨h, rfl⟩)) ?_ (fun e w₂ _ => ?_)
  · rintro r w₂ ⟨hRs, we, hEx, hT⟩
    have hNot : ¬ ∃ h, Place.object ⟨.statement, s⟩ = .cursor h := by
      rintro ⟨_, hCursor⟩
      cases hCursor
    have hSame : w₂.stmts s = _ := (hEx.steady ⟨.statement, s⟩).trans (hT.steady hOld hNot)
    rw [wp_bind, ResultSet.attachStatement, wp_modifyRs, wp_pure]
    refine ⟨⟨?_, ?_, ?_, ?_⟩, fun s' hs' => ?_⟩
    · simpa using hRs.handle
    · simpa using hRs.described
    · simpa using hRs.defined
    · simpa using hRs.columns
    · obtain rfl : s = s' := by simpa using hs'
      refine ⟨?_, ?_, fun p hp => ?_⟩
      · rw [hSame]
        exact hReady.handle
      · rw [hSame]
        exact hReady.prepared
      · rw [hSame] at hp
        exact absurd (hP.parameters ▸ hp) List.not_mem_nil
  · rw [wp_bind]
    exact wp_mono (wp_trivial _ w₂) (fun _ _ _ => trivial) (fun _ _ _ => trivial)

-- ---------------------------------------------------------------------------
-- New parameters
-- ---------------------------------------------------------------------------

/-- A parameter that was attached points back to its statement. -/
theorem stmt_attach (name : TString) (type : DataType) :
    wp (Parameter.attach p s name type) (fun _ w' => (w'.params p).m_stmt = some s)
      (fun _ _ => True) w := by
  have hEnd : ∀ (result : OciResult) error format (w : World), wp (do
        if result ≠ .success then throwOnError result error format
        modifyParam p fun param => { param with m_stmt := some s })
      (fun _ w' => (w'.params p).m_stmt = some s) (fun _ _ => True) w := by
    intro result error format w
    simp only [wp_bind, wp_ite]
    split
    · exact wp_throwOnError fun _ _ => trivial
    · rw [wp_modifyParam]
      simp
  rw [Parameter.attach, wp_bind]
  refine wp_mono (wp_trivial _ w) (fun _ w₁ _ => ?_) (fun _ _ _ => trivial)
  rw [wp_bind]
  refine wp_mono (wp_trivial _ w₁) (fun _ w₂ _ => ?_) (fun _ _ _ => trivial)
  rw [wp_bind]
  refine wp_mono (wp_trivial _ w₂) (fun _ w₃ _ => ?_) (fun _ _ _ => trivial)
  rw [wp_bind, wp_get, wp_ite]
  split
  · rw [Parameter.bindResultSet, wp_bind, wp_get, wp_bind]
    refine wp_mono (wp_trivial _ w₃) (fun _ w₄ _ => ?_) (fun _ _ _ => trivial)
    rw [wp_bind]
    exact wp_mono (wp_trivial _ w₄) (fun _ w₅ _ => hEnd _ _ _ w₅) (fun _ _ _ => trivial)
  · rw [Parameter.bind, wp_bind, wp_get]
    dsimp only
    split
    · trivial
    · rw [wp_ite]
      have hRest : ∀ (f : Parameter → Parameter) (stmt error : Option Nat) name reg w, wp (do
            modifyParam p f
            let result ← ociBindByName stmt error name reg
            let result ← Parameter.setCharset result
            if result ≠ .success then throwOnError result error (some name)
            modifyParam p fun param => { param with m_stmt := some s })
          (fun _ w' => (w'.params p).m_stmt = some s) (fun _ _ => True) w := by
        intro f stmt error name reg w
        rw [wp_bind, wp_modifyParam, wp_bind]
        refine wp_mono (wp_trivial _ _) (fun _ w₄ _ => ?_) (fun _ _ _ => trivial)
        rw [wp_bind]
        exact wp_mono (wp_trivial _ w₄) (fun _ w₅ _ => hEnd _ _ _ w₅) (fun _ _ _ => trivial)
      split
      · rw [wp_bind, wp_pass]
        exact hRest _ _ _ _ _ _
      · exact hRest _ _ _ _ _ _

/-- A parameter that was bound. -/
theorem ready_newParam (s : Nat) (name : TString) (type : DataType)
    (hCursors : w.CursorsBelow w.fresh) :
    wp (Statement.bind s name type) (fun p w' => w'.ParamReady s p) (fun _ _ => True) w := by
  have hStmt : wp (Statement.bind s name type) (fun p w' => (w'.params p).m_stmt = some s)
      (fun _ _ => True) w := by
    rw [Statement.bind, wp_bind, Parameter.new, wp_bind, wp_acquire, wp_bind, wp_modifyParam,
      wp_bind]
    refine wp_constructing rfl (wp_mono (stmt_attach name type) (fun _ w' hs => ?_)
      fun _ w' _ => wp_trivial _ w')
    rw [wp_pure, wp_bind, wp_get, wp_bind, wp_modifyStmt, wp_pure]
    exact hs
  have hNone := touches_statementBind (T := fun _ => True) (Nat.le_refl _) hCursors
    (fun _ => trivial) (fun _ _ _ => trivial) (s := s) name type
  refine wp_mono (wp_and (wp_and (wp_statementBind s name type hCursors) hStmt)
    (wp_and (wp_self _ w) (wp_mono hNone (fun _ _ h => h) (fun _ _ _ => trivial)))) ?_
    (fun _ _ _ => trivial)
  rintro p w' ⟨⟨⟨-, -, w₁, param, t, hTyped, hA, rfl⟩, hs⟩, hRun, -, hCursor⟩
  have hParam : ((w₁.withParam s p name).params p) = param := hA.param
  refine ⟨hs, fun hValue => ?_, fun hKind => ?_, fun r hr => ?_⟩
  · obtain ⟨buf, hBuf, -⟩ := (bind_holding hRun hValue).buffer
    rw [hBuf]
    rfl
  · rw [hParam] at hKind ⊢
    exact hTyped.handle (hTyped.type.symm.trans hKind)
  · rw [hCursor] at hr
    cases hr

-- ---------------------------------------------------------------------------
-- One call
-- ---------------------------------------------------------------------------

/-- No statement belongs to a parameter. -/
theorem stmt_not_paramOwned (w : World) (s p : Nat) :
    ⟨.statement, s⟩ ∉ w.owned ⟨.parameter, p⟩ := by
  simp [World.owned, World.paramOwned, World.cursorOwned, World.columnsOwned, ptr]

/-- **`Bind`** on a statement that is ready. -/
theorem ready_bind (hP : Placed w held) (hs : ⟨.statement, s⟩ ∈ held) (hReady : w.StmtReady s)
    (name : TString) (type : DataType) :
    wp (Statement.bind s name type) (fun _ w' => w'.StmtReady s) (fun _ w' => w'.StmtReady s)
      w := by
  have hCursors := hP.sound.cursors
  have hOld : ∀ x ∈ w.owned ⟨.statement, s⟩, x.id < w.fresh := fun x hx =>
    hP.below (P := .object x) hs hx
  -- all but the record of the statement itself is the same
  have hSame : ∀ {w'}, Touches w.fresh (fun place => place = .object ⟨.statement, s⟩ ∨
      ∃ h, place = .binds h) w w' → ∀ p ∈ (w.stmts s).m_parameters, w'.ParamReady s p := by
    intro w' hT p hp
    refine (hReady.parameters p hp).steady hCursors fun x hx =>
      hT.steady (hOld x (paramOwned_sub_stmt hp hx)) ?_
    rintro (hSelf | ⟨_, hBinds⟩)
    · obtain rfl := Place.object.inj hSelf
      exact stmt_not_paramOwned w s p hx
    · cases hBinds
  have hTouches := touches_statementBind (T := fun place => place = .object ⟨.statement, s⟩ ∨
    ∃ h, place = .binds h) (Nat.le_refl _) hCursors (s := s) (fun _ => .inl rfl)
    (fun h _ _ => .inr ⟨h, rfl⟩) name type
  have hNew := ready_newParam s name type hCursors
  refine wp_mono (wp_and (wp_and (wp_statementBind s name type hCursors) hNew) hTouches) ?_ ?_
  · rintro p w' ⟨⟨⟨rfl, -, w₁, param, t, -, hA, rfl⟩, hParam⟩, hT, -⟩
    have hStmt : (w₁.withParam s w.fresh name).stmts s = { w.stmts s with
        m_parameters := (w.stmts s).m_parameters ++ [w.fresh]
        m_parametersMap := mapInsert name w.fresh (w.stmts s).m_parametersMap } := by
      simp [World.withParam, hA.stmts]
    refine ⟨?_, ?_, fun p' hp' => ?_⟩
    · rw [hStmt]
      exact hReady.handle
    · rw [hStmt]
      exact hReady.prepared
    · rw [hStmt] at hp'
      rcases List.mem_append.mp hp' with hp' | hp'
      · exact hSame hT p' hp'
      · rw [List.mem_singleton.mp hp']
        exact hParam
  · rintro e w' ⟨⟨⟨-, -, w₁, param, t, done, own, -, hA, rfl, hF⟩, -⟩, hT⟩
    have hStmt : w'.stmts s = w.stmts s := by
      rw [← hA.stmts]
      refine hF.untouched ⟨.statement, s⟩ fun hMem => ?_
      exact absurd (hA.gains.new _ hMem).1 (Nat.not_le_of_lt (hOld _ (mem_owned_self w _)))
    refine ⟨?_, ?_, fun p' hp' => ?_⟩
    · rw [hStmt]
      exact hReady.handle
    · rw [hStmt]
      exact hReady.prepared
    · rw [hStmt] at hp'
      exact hSame hT p' hp'

/-- Objects that were there are steady while a result set is being built. -/
theorem Apart.steady {handle : Option Nat} (hA : Apart w w' w.fresh handle) {x : Res}
    (hx : x.id < w.fresh) : Steady w w' x := by
  refine SameAt.steady ?_
  obtain ⟨kind, id⟩ := x
  cases kind with
  | resultSet => exact hA.rsets id (Nat.ne_of_lt hx)
  | statement => exact congrFun hA.stmts id
  | parameter => exact congrFun hA.params id
  | column => exact hA.cols id hx
  | _ => trivial

/-- A parameter of the statement gets a result set that is ready, on its handle. -/
theorem World.StmtReady.cached (hS : w.StmtReady s) (hRs : w.RsReady r)
    (hHandle : (w.rsets r).m_rsHandle = (w.params p).m_rsHandle) : (w.cached p r).StmtReady s := by
  refine ⟨hS.handle, hS.prepared, fun p' hp' => ?_⟩
  have hParam := hS.parameters p' hp'
  by_cases heq : p' = p
  · subst heq
    have hCached : (w.cached p' r).params p' = { w.params p' with m_resultSet := some r } :=
      Function.update_self ..
    constructor
    · rw [hCached]
      exact hParam.stmt
    · rw [hCached]
      exact hParam.value
    · rw [hCached]
      exact hParam.handle
    · intro r' hr'
      rw [hCached] at hr' ⊢
      obtain rfl := Option.some.inj hr'
      exact ⟨⟨hRs.handle, hRs.described, hRs.defined, hRs.columns⟩, hHandle⟩
  · have hOther : (w.cached p r).params p' = w.params p' := Function.update_of_ne heq ..
    constructor
    · rw [hOther]
      exact hParam.stmt
    · rw [hOther]
      exact hParam.value
    · rw [hOther]
      exact hParam.handle
    · intro r' hr'
      rw [hOther] at hr' ⊢
      obtain ⟨h, hHandle'⟩ := hParam.cursor r' hr'
      exact ⟨⟨h.handle, h.described, h.defined, h.columns⟩, hHandle'⟩

/-- A new result set that a parameter gets has no statement of its own. -/
theorem Built.cursorsBelow_cached {handle : Option Nat} {F : Nat} {ids : List Nat}
    (hB : Built w w₁ w.fresh handle F ids) (hCursors : w.CursorsBelow w.fresh) :
    (w₁.cached p w.fresh).CursorsBelow w₁.fresh := by
  have hC := hB.building.gains.conserves
  intro p' r hr
  by_cases heq : p' = p
  · subst heq
    obtain rfl : w.fresh = r := by simpa [World.cached] using hr
    exact ⟨hB.building.fresh, hB.building.rset.stmt⟩
  · refine (hC.cursors _ (Nat.le_refl _) hCursors).mono hC.fresh p' r ?_
    simpa [World.cached, heq] using hr

/-- **`ToResultSet`** on a parameter of a statement that is ready. -/
theorem ready_toResultSet (hP : Placed w held) (hs : ⟨.statement, s⟩ ∈ held)
    (hp : p ∈ (w.stmts s).m_parameters) (hReady : w.StmtReady s) :
    wp (Parameter.toResultSet p) (fun _ w' => w'.StmtReady s) (fun _ w' => w'.StmtReady s) w := by
  have hCursors := hP.sound.cursors
  have hApart : ∀ {w' handle}, Apart w w' w.fresh handle → w'.StmtReady s := fun hA =>
    hReady.steady hCursors fun x hx => hA.steady (hP.below (P := .object x) hs hx)
  rw [Parameter.toResultSet, wp_bind, wp_get]
  dsimp only
  rw [wp_ite]
  split
  · rename_i hKind
    cases (w.params p).m_resultSet with
    | some r => exact hReady
    | none =>
      dsimp only
      rw [wp_bind]
      have hHandle := (hReady.parameters p hp).handle hKind
      refine wp_mono (wp_and (wp_newResultSet _ _) (ready_newResultSet _ FETCH_SIZE hHandle)) ?_
        (fun _ _ h => hApart h.1.apart)
      rintro r w₁ ⟨⟨rfl, ids, hB⟩, hRs⟩
      have hCached : (w₁.cached p w.fresh).StmtReady s := by
        refine (hApart hB.building.apart).cached hRs ?_
        rw [hB.building.rset.handle, hB.building.apart.params]
      have hRead : ∀ {w'}, Reading w.fresh (w₁.cached p w.fresh) w' → w'.StmtReady s := fun hR =>
        hCached.steady (hB.cursorsBelow_cached hCursors) fun x _ => hR.steady x
      rw [wp_bind, wp_modifyParam, wp_bind]
      exact wp_mono (reading_fetchRows w.fresh (w₁.cached p w.fresh)) (fun _ _ h => hRead h)
        (fun _ _ h => hRead h)
  · exact hReady

/-- **The object a call returns** is ready. -/
theorem ready_returned (hP : Placed w held) (hReady : ∀ o ∈ held, w.Ready o) {l : SessionCall}
    (hPermits : App.Permits ⟨w, held⟩ l) :
    wp l.run (fun x w' => ∀ o, x = some o → w'.Ready o) (fun _ _ => True) w := by
  have hCursors := hP.sound.cursors
  refine wp_returned l (fun sql _ => ready_newStatement sql hCursors)
    (fun sql F _ => ready_connectionSelect sql F hCursors) ?_
  rintro s F rfl
  have hs : w.StmtReady s := hReady ⟨.statement, s⟩ (hPermits _ rfl)
  refine wp_mono (wp_and (ready_selectWith F hs.handle) (gains_selectWith s F hCursors)) ?_
    (fun _ _ _ => trivial)
  rintro r w' ⟨hRs, -, hNone⟩
  refine ⟨hRs, fun s' hs' => ?_⟩
  rw [show (w'.rsets r).m_stmt = none from hNone] at hs'
  cases hs'

/-- What is held after a call was held before, and is not what was released. -/
theorem Sound.mem_of_keeps (h : Sound w held) {l : SessionCall}
    (hPermits : App.Permits ⟨w, held⟩ l) {o : Res} (ho : o ∈ l.keeps held) :
    o ∈ held ∧ l ≠ .call (.release o) := by
  cases l with
  | call l =>
    cases l with
    | release x =>
      have hMem := List.mem_of_mem_erase ho
      refine ⟨hMem, fun heq => ?_⟩
      obtain rfl : x = o := by injection heq with heq; injection heq
      exact h.apart hMem ho _ (mem_owned_self w _) (mem_owned_self w _)
    | _ => exact ⟨ho, fun heq => by cases heq⟩
  | _ => exact ⟨ho, fun heq => by cases heq⟩

/-- **One call** keeps the objects that are held ready. -/
theorem ready_call (hP : Placed w held) (hReady : ∀ o ∈ held, w.Ready o) {l : SessionCall}
    (hPermits : App.Permits ⟨w, held⟩ l) :
    wp l.run (fun x w' => ∀ o ∈ x.toList ++ l.keeps held, w'.Ready o)
      (fun _ w' => ∀ o ∈ held, w'.Ready o) w := by
  have hCursors := hP.sound.cursors
  have hKept : wp l.run (fun _ w' => ∀ o, o ∈ held → l.Keeps o → w'.Ready o)
      (fun _ w' => ∀ o, o ∈ held → l.Keeps o → w'.Ready o) w := by
    refine wp_forall fun o => wp_forall fun ho => wp_forall fun hKeeps => ?_
    exact wp_mono (steady_call hP hPermits ho hKeeps)
      (fun _ _ hSteady => (hReady o ho).steady hCursors hSteady)
      (fun _ _ hSteady => (hReady o ho).steady hCursors hSteady)
  -- the object whose parts the call changes
  have hOwn : wp l.run
      (fun _ w' => ∀ o, o ∈ held → ¬ l.Keeps o → l ≠ .call (.release o) → w'.Ready o)
      (fun _ w' => ∀ o, o ∈ held → ¬ l.Keeps o → w'.Ready o) w := by
    have hAll : (∀ o, l.Keeps o) → wp l.run
        (fun _ w' => ∀ o, o ∈ held → ¬ l.Keeps o → l ≠ .call (.release o) → w'.Ready o)
        (fun _ w' => ∀ o, o ∈ held → ¬ l.Keeps o → w'.Ready o) w := fun hKeeps =>
      wp_mono (wp_trivial _ w) (fun _ _ _ o _ hNot => absurd (hKeeps o) hNot)
        (fun _ _ _ o _ hNot => absurd (hKeeps o) hNot)
    cases l with
    | call l =>
      cases l with
      | bind s name type =>
        have hs : (⟨.statement, s⟩ : Res) ∈ held := hPermits _ rfl
        rw [SessionCall.run, Call.run, wp_bind]
        refine wp_mono (ready_bind hP hs (hReady _ hs) name type)
          (fun _ w' h' o _ hNot _ => ?_) (fun _ w' h' o _ hNot => ?_)
        · obtain rfl : o = ⟨.statement, s⟩ := Classical.not_not.mp hNot
          exact h'
        · obtain rfl : o = ⟨.statement, s⟩ := Classical.not_not.mp hNot
          exact h'
      | release x =>
        rw [SessionCall.run, Call.run, wp_bind]
        refine wp_mono (hP.sound.touches_release (hPermits x rfl))
          (fun _ w' _ o _ hNot hOther => ?_) (fun _ _ hFalse => hFalse.elim)
        obtain rfl : o = x := Classical.not_not.mp hNot
        exact absurd rfl hOther
      | _ => exact hAll fun _ => trivial
    | toResultSet s p =>
      rw [SessionCall.run, wp_bind]
      refine wp_mono (ready_toResultSet hP hPermits.1 hPermits.2 (hReady _ hPermits.1))
        (fun _ w' h' o _ hNot _ => ?_) (fun _ w' h' o _ hNot => ?_)
      · obtain rfl : o = ⟨.statement, s⟩ := Classical.not_not.mp hNot
        exact h'
      · obtain rfl : o = ⟨.statement, s⟩ := Classical.not_not.mp hNot
        exact h'
    | _ => exact hAll fun _ => trivial
  refine wp_mono (wp_and (wp_and hKept hOwn) (wp_mono (ready_returned hP hReady hPermits)
    (fun _ _ h => h) (fun _ _ h => h))) ?_ ?_
  · rintro x w' ⟨⟨hKept, hOwn⟩, hNew⟩ o ho
    rcases List.mem_append.mp ho with ho | ho
    · exact hNew o (Option.mem_toList.mp ho)
    · obtain ⟨hMem, hOther⟩ := hP.sound.mem_of_keeps hPermits ho
      by_cases hKeeps : l.Keeps o
      · exact hKept o hMem hKeeps
      · exact hOwn o hMem hKeeps hOther
  · rintro e w' ⟨⟨hKept, hOwn⟩, -⟩ o ho
    by_cases hKeeps : l.Keeps o
    · exact hKept o ho hKeeps
    · exact hOwn o ho hKeeps

-- ---------------------------------------------------------------------------
-- Every state of a session
-- ---------------------------------------------------------------------------

/-- The objects held are in place and ready. -/
structure InOrder (w : World) (held : List Res) : Prop where
  placed : Placed w held
  ready  : ∀ o ∈ held, w.Ready o

theorem World.Ready.answering {o : Res} (hR : w.Ready o) (answers : OciCall → OciResult)
    (hCursors : w.CursorsBelow n) : (w.answering answers).Ready o :=
  hR.steady hCursors fun x _ => SameAt.steady (.refl w x)

theorem InOrder.answering (h : InOrder w held) (answers : OciCall → OciResult) :
    InOrder (w.answering answers) held :=
  ⟨h.placed.answering answers, fun o ho => (h.ready o ho).answering answers h.placed.sound.cursors⟩

theorem InOrder.serve {a : App} (h : InOrder a.w a.held) (l : Served) :
    InOrder (a.serve l).w (a.serve l).held := by
  have hw := h.answering l.2
  refine ⟨h.placed.serve l, ?_⟩
  exact App.serve_of_wp (P := fun b => ∀ o ∈ b.held, b.w.Ready o) (fun _ => h.ready)
    fun hPermits => ready_call hw.placed hw.ready hPermits

theorem inOrder_opened (cfg : Setting) (before : List ConnCall) :
    InOrder (App.opened cfg before).w (App.opened cfg before).held :=
  ⟨placed_opened cfg before, fun _ ho => absurd ho List.not_mem_nil⟩

/-- **Every object of a session is ready.** A connection was opened and closed
any number of times before; then the application makes any calls of a session,
with any answers of OCI, catching what they throw. In every state, each object
the application holds is ready: its statements are prepared on a handle, their
parameters point back to them and have the buffer or the handle of their type,
and its result sets — also those of cursor parameters, whose first fetch may
have thrown — are described and defined on a handle, their columns pointing back
to them. -/
theorem session_objects_ready (cfg : Setting) (before : List ConnCall) (calls : List Served) :
    AllStates App.serve (fun a => ∀ o ∈ a.held, a.w.Ready o) (.opened cfg before) calls :=
  allStates_mono (fun _ h => h.ready)
    (allStates_of_invariant (I := fun a : App => InOrder a.w a.held) (fun _ l h => h.serve l)
      (inOrder_opened cfg before) calls)

end Epol
