import EpOraLibrary.Teardown.Passing

/-!
# EpOraLibrary — what a call does to what is there

* `Older` — a call that frees nothing that was there before, and leaves the
  objects on their handles; `Sound.older` — so does every call of an application
  but a release.
* `Fit.call` — a call on a connection whose environment is there passes no freed
  handle; a result set it returns is on a handle that one held object frees.
* `Beside` — what `Close` leaves alone: all that statements and result sets are
  made of.
* `HandlesOk.deletes`, `wp_next_passed` — releases and `Next`.
-/

namespace Epol

open Ledger Prog

variable {w w' w₁ w₂ : World} {conn : Connection} {held : List Res} {x y o : Res}
variable {xs ts : List Res} {hs : List Nat} {r s p : Nat} {c : Bool} {tidy : Prop}

-- ---------------------------------------------------------------------------
-- What is older than the call
-- ---------------------------------------------------------------------------

/-- From `w` to `w'` no older resource was freed, the older objects stay on
their handles, and the objects `held` own nothing older that they did not own. -/
structure Older (held : List Res) (w w' : World) : Prop where
  fresh    : w.fresh ≤ w'.fresh
  stmts    : ∀ s < w.fresh, (w'.stmts s).m_stmtHandle = (w.stmts s).m_stmtHandle
  handles  : ∀ r < w.fresh, (w'.rsets r).m_rsHandle = (w.rsets r).m_rsHandle
  owned    : ∀ o ∈ held, ∀ y ∈ w'.owned o, y.id < w.fresh → y ∈ w.owned o
  released : ∀ x, x.id < w.fresh → (Released w'.trace x ↔ Released w.trace x)

theorem Conserves.older (hC : Conserves w.fresh w w' xs) (h : Sound w held) : Older held w w' where
  fresh := hC.fresh
  stmts s hs := (hC.linked ⟨.statement, s⟩ hs).1
  handles := hC.handles
  owned o ho y hy _ := by
    have hOwned : w'.owned o = w.owned o := owned_congr fun z hz =>
      hC.linked z (h.id_lt (List.mem_flatMap.mpr ⟨o, ho, hz⟩))
    rwa [hOwned] at hy
  released x hx := hC.released x hx hx

/-- The new parameter of a held statement. -/
theorem Older.adopt {name : TString} (hOlder : Older held w w₁)
    (hGains : Gains w w₁ ⟨.parameter, p⟩) (h : Sound w held) (hs : ⟨.statement, s⟩ ∈ held) :
    Older held w (w₁.withParam s p name) where
  fresh := hOlder.fresh
  stmts s' hs' := by
    have hSame := hOlder.stmts s' hs'
    by_cases heq : s' = s
    · subst heq
      simpa [World.withParam] using hSame
    · simpa [World.withParam, heq] using hSame
  handles := hOlder.handles
  owned o ho y hy hLt := by
    refine hOlder.owned o ho y ?_ hLt
    by_cases heq : o = ⟨.statement, s⟩
    · subst heq
      rcases List.mem_append.mp ((owned_withParam w₁ s p name).mem_iff.mp hy) with hy | hy
      · exact absurd hLt (Nat.not_lt_of_le (hGains.new y hy).1)
      · exact hy
    · rwa [(h.gain hGains rfl).owned_others hs ((List.mem_erase_of_ne heq).mpr ho)] at hy
  released := hOlder.released

/-- **A call that is no release** frees nothing older, and what it returns owns
nothing older. -/
theorem Sound.older (h : Sound w held) (l : Call) (hObject : ∀ x ∈ l.object, x ∈ held)
    (hUse : ∀ x, l ≠ .release x) :
    wp l.run (fun x w' => Older held w w' ∧ ∀ o ∈ x, ∀ y ∈ w'.owned o, w.fresh ≤ y.id)
      (fun _ w' => Older held w w') w := by
  have hGained : ∀ {x w'}, Gains w w' x →
      Older held w w' ∧ ∀ o ∈ some x, ∀ y ∈ w'.owned o, w.fresh ≤ y.id := fun hG =>
    ⟨hG.conserves.older h, fun o ho y hy => (hG.new y (Option.some.inj ho ▸ hy)).1⟩
  have hNothing : ∀ {w'}, Older held w w' →
      Older held w w' ∧ ∀ o ∈ (none : Option Res), ∀ y ∈ w'.owned o, w.fresh ≤ y.id := fun hO =>
    ⟨hO, fun _ ho => by cases ho⟩
  cases l with
  | execute sql =>
    rw [Call.run, wp_bind]
    exact wp_mono (wp_execute sql h.cursors) (fun _ _ hC => hNothing (hC.older h))
      (fun _ _ hC => hC.older h)
  | prepare sql =>
    rw [Call.run, wp_bind]
    refine wp_mono (wp_newStatement sql h.cursors) ?_ (fun _ _ hC => hC.older h)
    rintro s w' ⟨-, _, hP⟩
    exact hGained hP.gains
  | select sql fetchSize =>
    rw [Call.run, wp_bind]
    exact wp_mono (gains_connectionSelect sql fetchSize h.cursors) (fun _ _ hG => hGained hG)
      (fun _ _ hC => hC.older h)
  | bind s name type =>
    rw [Call.run, wp_bind]
    refine wp_mono (wp_statementBind s name type h.cursors) ?_ (fun _ _ hC => hC.2.1.older h)
    rintro p w' ⟨-, -, w₁, param', t, -, h₁, hw'⟩
    rw [wp_pure, hw']
    exact hNothing ((h₁.gains.conserves.older h).adopt h₁.gains h (hObject _ rfl))
  | stmtExecute s =>
    rw [Call.run, wp_bind]
    exact wp_mono (wp_executePrepared s)
      (fun _ _ hEx => hNothing ((hEx.1.conserves _).older h))
      (fun _ _ hEx => (hEx.conserves _).older h)
  | stmtSelect s fetchSize =>
    rw [Call.run, wp_bind]
    exact wp_mono (gains_selectWith s fetchSize h.cursors) (fun _ _ hG => hGained hG.1)
      (fun _ _ hC => hC.older h)
  | next r =>
    rw [Call.run, wp_bind]
    exact wp_mono (reading_next r w) (fun _ _ hR => hNothing ((hR.conserves _).older h))
      (fun _ _ hR => (hR.conserves _).older h)
  | release x => exact absurd rfl (hUse x)

-- ---------------------------------------------------------------------------
-- Calls while the environment is there
-- ---------------------------------------------------------------------------

/-- The calls that may still be made once the connection has been closed. -/
def Call.tearsDown : Call → Bool
  | .next _ | .release _ => true
  | _ => false

/-- The object whose release frees the handle that the returned result set `x`
is on: a result set of `Statement::Select` does not own its statement. -/
def Call.keeper (x : Res) : Call → Res
  | .stmtSelect s _ => ⟨.statement, s⟩
  | _ => x

/-- The release of `o` frees the handle. -/
structure Keeper (w : World) (o : Res) (handle : Option Nat) : Prop where
  owned : ptr .stmt handle ⊆ w.owned o
  stmt  : ∀ s, o = ⟨.statement, s⟩ → (w.stmts s).m_stmtHandle = handle

/-- The handle of a held statement may be passed. -/
theorem Sound.serves (h : Sound w held) (hw : Fit conn w) (hs : ⟨.statement, s⟩ ∈ held) :
    Serves conn (w.stmts s).m_stmtHandle w where
  fit := hw
  stmt hd hh := by
    refine h.net_pos hs ?_
    simp [World.owned, World.stmtOwned, hh, ptr]

theorem keeper_statement (w : World) (s : Nat) :
    Keeper w ⟨.statement, s⟩ (w.stmts s).m_stmtHandle where
  owned y hy := by
    simp only [World.owned, World.stmtOwned, List.mem_append]
    exact .inl (.inl hy)
  stmt s' heq := by rw [(Res.mk.inj heq).2]

/-- **A call on a connection that is open** passes no freed handle. -/
theorem Fit.call (hw : Fit conn w) (h : Sound w held) (l : Call)
    (hObject : ∀ x ∈ l.object, x ∈ held) (hUse : l.tearsDown = false) :
    wp l.run (fun x w' => Fit conn w' ∧ ∀ r, x = some ⟨.resultSet, r⟩ →
        Keeper w' (l.keeper ⟨.resultSet, r⟩) (w'.rsets r).m_rsHandle)
      (fun _ w' => Fit conn w') w := by
  cases l with
  | execute sql =>
    rw [Call.run, wp_bind]
    exact wp_mono (fit_execute hw h.cursors sql)
      (fun _ _ hw' => ⟨hw', fun _ heq => by cases heq⟩) (fun _ _ hw' => hw')
  | prepare sql =>
    rw [Call.run, wp_bind]
    exact wp_mono (fit_newStatement hw h.cursors sql)
      (fun _ _ hw' => ⟨hw'.1, fun _ heq => by cases heq⟩) (fun _ _ hw' => hw')
  | select sql fetchSize =>
    rw [Call.run, wp_bind]
    refine wp_mono (fit_connectionSelect hw h.cursors sql fetchSize) ?_ (fun _ _ hw' => hw')
    rintro r w' ⟨hw', hOwned⟩
    refine ⟨hw', fun r' heq => ?_⟩
    obtain rfl : r = r' := (Res.mk.inj (Option.some.inj heq)).2
    exact ⟨hOwned, fun s heq => by cases heq⟩
  | bind s name type =>
    rw [Call.run, wp_bind]
    exact wp_mono (fit_statementBind (h.serves hw (hObject _ rfl)) h.cursors type)
      (fun _ _ hw' => ⟨hw', fun _ heq => by cases heq⟩) (fun _ _ hw' => hw')
  | stmtExecute s =>
    rw [Call.run, wp_bind]
    have hs := h.serves hw (hObject _ rfl)
    exact wp_mono (wp_executePrepared s)
      (fun _ _ hEx => ⟨(hEx.1.serves hs).fit, fun _ heq => by cases heq⟩)
      (fun _ _ hEx => (hEx.serves hs).fit)
  | stmtSelect s fetchSize =>
    rw [Call.run, wp_bind]
    have hHeld : ⟨.statement, s⟩ ∈ held := hObject _ rfl
    have hOld : s < w.fresh :=
      h.id_lt (List.mem_flatMap.mpr ⟨_, hHeld, mem_owned_self w ⟨.statement, s⟩⟩)
    refine wp_mono (wp_and (gains_selectWith s fetchSize h.cursors)
      (fit_selectWith (h.serves hw hHeld) h.cursors fetchSize)) ?_ (fun _ _ hw' => hw'.2)
    rintro r w' ⟨⟨hG, -⟩, hw', hHandle⟩
    refine ⟨hw', fun r' heq => ?_⟩
    obtain rfl : r = r' := (Res.mk.inj (Option.some.inj heq)).2
    have hStmt : (w'.stmts s).m_stmtHandle = (w.stmts s).m_stmtHandle :=
      (hG.conserves.linked ⟨.statement, s⟩ hOld).1
    rw [hHandle, ← hStmt]
    exact keeper_statement w' s
  | next r => cases hUse
  | release x => cases hUse

/-- Where handles may be passed the handles of the connection are in order. -/
theorem HandlesOk.of_fit (h : HandlesOk c tidy w.conn w.fresh w.trace) (hw' : Fit w.conn w')
    (hFresh : w.fresh ≤ w'.fresh) {tidy' : Prop} :
    HandlesOk true tidy' w'.conn w'.fresh w'.trace where
  acquired hm := hw'.minted.acquired hm
  parent {k p} hm := by
    rw [hw'.minted.parent hm]
    unfold Kind.parent
    split
    · exact .inr rfl
    · exact .inl rfl
  released hr := hw'.minted.released hr
  owned hh := Nat.lt_of_lt_of_le (h.owned (hw'.same ▸ hh)) hFresh
  order := by
    rw [hw'.same]
    exact h.order
  live hh _ := hw'.held (hw'.same ▸ hh)
  safe _ := hw'.safe

-- ---------------------------------------------------------------------------
-- Close
-- ---------------------------------------------------------------------------

/-- All that statements and result sets are made of is as it was. -/
structure Beside (w w' : World) : Prop where
  stmts    : w'.stmts = w.stmts
  params   : w'.params = w.params
  rsets    : w'.rsets = w.rsets
  cols     : w'.cols = w.cols
  fresh    : w'.fresh = w.fresh
  minted   : Minted w'.fresh w'.trace
  handles  : ∀ {k h}, w'.conn.handle k = some h → h < w'.fresh
  acquired : ∀ x q, .acquire x q ∈ w'.trace ↔ .acquire x q ∈ w.trace
  net      : ∀ x, x.kind.ofStatement = true → net w'.trace x = net w.trace x
  released : ∀ x, x.kind.ofStatement = true → (Released w'.trace x ↔ Released w.trace x)

theorem beside_keeps (w : World) : ConnKeeps (Beside w) where
  uses h rs :=
    { h with
      minted := h.minted.uses rs
      handles := h.handles
      acquired := fun x q => (by simpa using h.acquired x q)
      net := fun x hx => (net_uses rs).trans (h.net x hx)
      released := fun x hx => (released_uses rs).trans (h.released x hx) }
  modify h oci hConn := { h with handles := fun hh => h.handles (hConn _ _ hh) }
  owned h hh := h.handles hh
  free h hk hp done :=
    { h with
      minted := h.minted.release hp done
      handles := h.handles
      acquired := fun x q => (by simpa using h.acquired x q)
      net := fun x hx => by
        rw [net_release, if_neg (ne_of_ofStatement hk hx _), h.net x hx, Int.sub_zero]
      released := fun x hx => by
        rw [released_release, h.released x hx]
        exact or_iff_right fun heq => ne_of_ofStatement hk hx _ heq.1.symm }

/-- **`Close`** leaves alone all that statements and result sets are made of. -/
theorem beside_close (hMinted : Minted w.fresh w.trace)
    (h : HandlesOk c tidy w.conn w.fresh w.trace) : Beside w (exec Connection.close w) :=
  wp_exec.mp (keeps_close (beside_keeps w) w) ⟨rfl, rfl, rfl, rfl, rfl, hMinted, h.owned,
    fun _ _ => Iff.rfl, fun _ _ => rfl, fun _ _ => Iff.rfl⟩

theorem Beside.owned (hB : Beside w w') (o : Res) : w'.owned o = w.owned o := by
  refine owned_congr fun y _ => SameAt.linked ?_
  obtain ⟨kind, id⟩ := y
  cases kind <;> first
    | exact congrFun hB.stmts id
    | exact congrFun hB.params id
    | exact congrFun hB.rsets id
    | exact congrFun hB.cols id
    | trivial

theorem Sound.beside (h : Sound w held) (hB : Beside w w') : Sound w' held where
  minted := hB.minted
  cursors := by
    rw [hB.fresh]
    exact h.cursors.of_eq (fun p => by rw [hB.params]) fun r _ => by rw [hB.rsets]
  kinds := h.kinds
  net x hx := by
    rw [hB.net x hx, h.net x hx, funext hB.owned]

-- ---------------------------------------------------------------------------
-- Release and Next
-- ---------------------------------------------------------------------------

/-- Where objects are deleted the handles of the connection stay in order. -/
theorem HandlesOk.deletes (h : HandlesOk true tidy w.conn w.fresh w.trace)
    (hMinted : Minted w.fresh w.trace) (hD : Deletes hs w w') (hF : Frees w w' xs ts)
    (hMinted' : Minted w'.fresh w'.trace) (hSafe : Safe true w'.trace) :
    HandlesOk true tidy w'.conn w'.fresh w'.trace := by
  have hConn : w'.conn = w.conn := by rw [hF.same]
  have hFresh : w'.fresh = w.fresh := by rw [hF.same]
  refine ⟨fun hm => hMinted'.acquired hm, fun hm => h.parent (hD.cleanup.acquired.mp hm),
    fun hr => hMinted'.released hr, ?_, ?_, fun hh hSvc => ?_, fun _ => hSafe⟩
  · rw [hConn, hFresh]
    exact h.owned
  · rw [hConn]
    exact h.order
  · rw [hConn] at hh hSvc
    rw [hD.gone hMinted (handle_rank hh)]
    exact h.live hh hSvc

/-- **`Next`** passes the handle of the result set when it has to fetch. -/
theorem wp_next_passed (hLive : (w.rsets r).Refills → ∀ x ∈ ptr .stmt (w.rsets r).m_rsHandle ++
      ptr .error w.conn.m_errorHandle, ¬ Gone c w.trace x) :
    wp (ResultSet.next r)
      (fun _ w' => Reading r w w' ∧ ∃ us : List Res, w'.trace = us.map .use ++ w.trace ∧
        ∀ x ∈ us, ¬ Gone c w.trace x)
      (fun _ w' => Reading r w w' ∧ ∃ us : List Res, w'.trace = us.map .use ++ w.trace ∧
        ∀ x ∈ us, ¬ Gone c w.trace x) w := by
  have hIdle : Reading r w (w.moved r) ∧ ∃ us : List Res,
      (w.moved r).trace = us.map .use ++ w.trace ∧ ∀ x ∈ us, ¬ Gone c w.trace x :=
    ⟨reading_moved w r, [], rfl, fun _ hx => nomatch hx⟩
  refine wp_next (fun _ _ => hIdle) (fun hLe hEod => ?_) (fun _ => hIdle)
  have hRefills : (w.rsets r).Refills := by
    simpa [World.moved, ResultSet.advanced, ResultSet.Refills] using And.intro hLe hEod
  have hFetch : ∀ w', Reading r (w.moved r) w' → Reading r w w' ∧ ∃ us : List Res,
      w'.trace = us.map .use ++ w.trace ∧ ∀ x ∈ us, ¬ Gone c w.trace x := fun w' hw' => by
    obtain ⟨us, hTrace, hus⟩ := hw'.trace
    refine ⟨(frame_reading r).trans (reading_moved w r) hw', us, hTrace, fun x hx => ?_⟩
    have hPassed := hus hx
    simp only [World.moved, Function.update_self, ResultSet.advanced] at hPassed
    exact hLive hRefills x hPassed
  exact wp_mono (reading_fetchRows r _) (fun _ w' hw' => hFetch w' hw')
    (fun _ w' hw' => hFetch w' hw')

end Epol
