import EpOraLibrary.Ownership.Parameters

/-!
# EpOraLibrary — what whole calls gain

* `wp_execute` — `Connection::Execute` gains nothing, whatever happens.
* `gains_connectionSelect` — `Connection::Select` gains a result set that owns
  its statement.
* `wp_statementBind` — `Statement::Bind` makes a parameter and adds it to the statement.
-/

namespace Epol

open Ledger Prog

variable {w w₁ w₂ : World} {s p r : Nat}

-- ---------------------------------------------------------------------------
-- Connection::Execute and Connection::Select
-- ---------------------------------------------------------------------------

/-- **`Connection::Execute`** releases its statement, whether it returns or
throws. -/
theorem wp_execute (sql : TString) (hCursors : w.CursorsBelow w.fresh) :
    wp (Connection.execute sql) (fun _ w' => Conserves w.fresh w w' [])
      (fun _ w' => Conserves w.fresh w w' []) w := by
  rw [Connection.execute, wp_bind]
  refine wp_mono (wp_newStatement sql hCursors) (fun s w₁ ⟨_, h, hP⟩ => ?_) (fun _ _ hE => hE)
  rw [wp_bind, wp_tryCatch]
  refine wp_mono (wp_executePrepared s) (fun _ w₂ ⟨hEx, _⟩ => ?_) (fun e w₂ hEx => ?_)
  · exact (hP.gains.conserve (hEx.conserves _)).release 0 (.inl rfl) hCursors
  · rw [wp_bind]
    exact (hP.gains.conserve (hEx.conserves _)).release 0 (.inl rfl) hCursors

/-- The world in which the statement `s` belongs to the result set `r`. -/
def World.attached (w : World) (r s : Nat) : World :=
  { w with rsets := Function.update w.rsets r { w.rsets r with m_stmt := some s } }

/-- What statements own does not depend on who owns them. -/
theorem stmtOwned_attached (w : World) (r s s' : Nat) :
    (w.attached r s).stmtOwned s' = w.stmtOwned s' := by
  have hColumns : (w.attached r s).columnsOwned = w.columnsOwned := by
    funext r'
    by_cases hr : r' = r
    · subst hr
      simp [World.columnsOwned, World.attached]
    · simp [World.columnsOwned, World.attached, hr]
  have hParams : (w.attached r s).paramOwned = w.paramOwned := by
    funext p
    rw [World.paramOwned, World.paramOwned]
    congr 2
    refine List.flatMap_congr fun r' _ => ?_
    rw [World.cursorOwned, World.cursorOwned, hColumns]
  rw [World.stmtOwned, World.stmtOwned, hParams]
  rfl

/-- What a result set owns once a statement is attached to it. -/
theorem owned_attached (hNone : (w.rsets r).m_stmt = none) :
    ((w.attached r s).owned ⟨.resultSet, r⟩).Perm
      (w.stmtOwned s ++ w.owned ⟨.resultSet, r⟩) := by
  have hOwned : (w.attached r s).owned ⟨.resultSet, r⟩ =
      w.columnsOwned r ++ w.stmtOwned s ++ [⟨.resultSet, r⟩] := by
    rw [← stmtOwned_attached w r s s]
    simp [World.owned, World.rsOwned, World.columnsOwned, World.attached]
  have hPlain : w.owned ⟨.resultSet, r⟩ = w.columnsOwned r ++ [⟨.resultSet, r⟩] := by
    simp [World.owned, World.rsOwned, hNone]
  rw [hOwned, hPlain, ← List.append_assoc]
  exact List.Perm.append_right _ List.perm_append_comm

theorem conserves_attached {n : Nat} (hr : n ≤ r) : Conserves n w (w.attached r s) [] where
  conn := rfl
  fresh := Nat.le_refl _
  linked := by
    rintro ⟨kind, id⟩ hid
    cases kind with
    | resultSet =>
      have hne : id ≠ r := Nat.ne_of_lt (Nat.lt_of_lt_of_le hid hr)
      show _ ∧ _
      simp [World.attached, hne]
    | _ => first | exact ⟨rfl, rfl⟩ | trivial
  handles r' hr' := by
    have hne : r' ≠ r := Nat.ne_of_lt (Nat.lt_of_lt_of_le hr' hr)
    simp [World.attached, hne]
  cursors _ hm hc := hc.of_eq (fun _ => rfl) fun r' hr' => by
    have hne : r' ≠ r := Nat.ne_of_lt (Nat.lt_of_lt_of_le (Nat.lt_of_lt_of_le hr' hm) hr)
    simp [World.attached, hne]
  net x := by simp [World.attached]
  minted := id
  released _ _ _ := Iff.rfl

/-- **`Connection::Select`** gains the result set it returns, which owns the
statement; when it throws, what it made has been released. -/
theorem gains_connectionSelect (sql : TString) (fetchSize : Nat)
    (hCursors : w.CursorsBelow w.fresh) :
    wp (Connection.selectWith sql fetchSize) (fun r w' => Gains w w' ⟨.resultSet, r⟩)
      (fun _ w' => Conserves w.fresh w w' []) w := by
  rw [Connection.selectWith, wp_bind]
  refine wp_mono (wp_newStatement sql hCursors) ?_ (fun _ _ hE => hE)
  rintro s w₁ ⟨-, h, hP⟩
  have hG := hP.gains
  have hCursors₁ := (hG.conserves.cursors _ (Nat.le_refl _) hCursors).mono hG.conserves.fresh
  rw [wp_tryCatch, wp_bind]
  refine wp_mono (gains_selectWith s fetchSize hCursors₁) ?_ (fun e w₂ hC => ?_)
  · rintro r w₂ ⟨hR, hNone⟩
    rw [wp_bind, ResultSet.attachStatement, wp_modifyRs, wp_pure]
    have hStmt : w₂.stmtOwned s = w₁.stmtOwned s :=
      owned_congr (x := ⟨.statement, s⟩) fun y hy => hR.conserves.linked y (hG.new y hy).2
    have hOld : w₁.fresh ≤ r := (hR.new ⟨.resultSet, r⟩ (by
      rw [World.owned, World.rsOwned]
      exact List.mem_append_right _ (List.mem_singleton_self _))).1
    have hTrans := (hG.conserves.trans (hR.conserves.mono hG.conserves.fresh)).trans
      (conserves_attached (s := s) (Nat.le_trans hG.conserves.fresh hOld))
    rw [List.append_nil] at hTrans
    refine hTrans.made ?_ (fun y hy => ?_) ?_
    · rw [← show w₂.stmtOwned s = w₁.owned ⟨.statement, s⟩ from hStmt]
      exact owned_attached hNone
    · rcases List.mem_append.mp hy with hy | hy
      · exact ⟨(hG.new y hy).1, Nat.lt_of_lt_of_le (hG.new y hy).2 hR.conserves.fresh⟩
      · exact ⟨Nat.le_trans hG.conserves.fresh (hR.new y hy).1, (hR.new y hy).2⟩
    · -- the statement is older than all that the result set owns
      refine List.nodup_append.mpr ⟨hG.nodup, hR.nodup, fun y hy y' hy' heq => ?_⟩
      subst heq
      exact absurd (hG.new y hy).2 (Nat.not_lt_of_le (hR.new y hy').1)
  · rw [wp_bind]
    exact (hG.conserve hC).release 0 (.inl rfl) hCursors

-- ---------------------------------------------------------------------------
-- Statement::Bind
-- ---------------------------------------------------------------------------

/-- The world in which the statement `s` has one more parameter. -/
def World.withParam (w : World) (s p : Nat) (name : TString) : World :=
  { w with stmts := Function.update w.stmts s { w.stmts s with
      m_parameters := (w.stmts s).m_parameters ++ [p]
      m_parametersMap := mapInsert name p (w.stmts s).m_parametersMap } }

/-- **`Statement::Bind`** adds the parameter it makes, or throws as the
constructor does. -/
theorem wp_statementBind (s : Nat) (name : TString) (type : DataType)
    (hCursors : w.CursorsBelow w.fresh) :
    wp (Statement.bind s name type)
      (fun p w' => p = w.fresh ∧ w.BindCompletes name type ∧ ∃ w₁ param' t,
        param'.Typed name t ∧
        Attaching w w₁ s p param' (registered w.cfg true name (.of p t)) ∧
        w' = w₁.withParam s p name)
      (fun _ w' => ¬ w.BindCompletes name type ∧ Conserves w.fresh w w' [] ∧
        ∃ w₁ param' t done own, (done = true ↔ w.BindRegisters name type) ∧
          Attaching w w₁ s w.fresh param' (registered w.cfg done name (.of w.fresh t)) ∧
          own = w₁.owned ⟨.parameter, w.fresh⟩ ∧ Frees w₁ w' own own) w := by
  rw [Statement.bind, wp_bind]
  refine wp_mono (wp_newParameter s name type hCursors)
    (fun p w₁ ⟨hp, hDone, param', t, hTyped, h₁⟩ => ?_) (fun _ _ hE => hE)
  rw [wp_bind, wp_get, wp_bind, wp_modifyStmt, wp_pure, h₁.param, hTyped.name]
  exact ⟨hp, hDone, w₁, param', t, hTyped, h₁, rfl⟩

end Epol
