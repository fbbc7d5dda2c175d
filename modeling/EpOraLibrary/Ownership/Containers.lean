import EpOraLibrary.Cursor.CursorParam
import EpOraLibrary.Ownership.Binding

/-!
# EpOraLibrary — a `Bind` whose containers fail

`Bind` makes a `Parameter`, appends it to `m_parameters` and puts it into
`m_parametersMap`; any of the three may throw, and one handler releases the
parameter for both insertions.

* `wp_bindFaulty` — `Bind` by its outcomes.
* `Sound.object` — the calls that keep the account of what is owned, now with
  `ToResultSet` and the assignments among them.
* `binds_atomic_iff` — **`Bind` is atomic, and every parameter is released
  once**, in every run exactly when no insertion into the map throws after the
  parameter was appended.
* `insert_fails_after_append` — a run in which one does.
-/

namespace Epol

open Ledger Prog Runs

variable {w w₁ w₂ : World} {x y : Res} {s p r : Nat} {name : TString} {type : DataType}
  {held : List Res} {faults : BindFaults}

-- ---------------------------------------------------------------------------
-- Bind
-- ---------------------------------------------------------------------------

/-- `Bind` without faults. -/
theorem bindFaulty_none (s : Nat) (name : TString) (type : DataType) :
    Statement.bindFaulty {} s name type = liftError .oraError (Statement.bind s name type) := by
  funext w
  unfold Statement.bindFaulty Statement.bind liftError
  simp only [bind, EStateM.bind, tryCatch, tryCatchThe, MonadExceptOf.tryCatch, EStateM.tryCatch,
    modify, modifyGet, MonadStateOf.modifyGet, EStateM.modifyGet, get, getThe, MonadStateOf.get,
    EStateM.get, pure, EStateM.pure, modifyStmt]
  cases Parameter.new s name type w <;> simp [EStateM.bind, EStateM.modifyGet]

/-- The parameter is made and appended, and then the map throws. -/
def World.InsertFails (w : World) (name : TString) (type : DataType) (faults : BindFaults) :
    Prop :=
  w.BindCompletes name type ∧ faults.pushBack = false ∧ faults.insert = true

/-- **`Bind` by its outcomes**: the new parameter belongs to the statement; the
statement is as it was and all that was made has been released; or the
parameter is released and listed. -/
theorem wp_bindFaulty (hCursors : w.CursorsBelow w.fresh) (hs : s < w.fresh) :
    wp (Statement.bindFaulty faults s name type)
      (fun p w' => (¬ w.InsertFails name type faults) ∧ p = w.fresh ∧ ∃ w₁ param t,
        Attaching w w₁ s p param (registered w.cfg true name (.of p t)) ∧
        w' = w₁.withParam s p name)
      (fun _ w' => (¬ w.InsertFails name type faults ∧ Conserves w.fresh w w' [] ∧
          w'.stmts s = w.stmts s) ∨
        (w.InsertFails name type faults ∧
          (w'.stmts s).m_parameters = (w.stmts s).m_parameters ++ [w.fresh])) w := by
  rw [Statement.bindFaulty, wp_bind, wp_liftError]
  refine wp_mono (wp_newParameter s name type hCursors)
    (fun p w₁ ⟨hp, hDone, param, t, hTyped, hA⟩ => ?_)
    (fun _ w' ⟨hNot, hC, w₁, param, t, done, own, _, hA, hOwn, hF⟩ => ?_)
  · subst hp
    have hNew := hA.gains.new
    have hOther : (⟨.statement, s⟩ : Res) ∉ w₁.owned ⟨.parameter, w.fresh⟩ := fun hm =>
      absurd hs (Nat.not_lt_of_le (hNew _ hm).1)
    have hCursors₁ := hA.gains.conserves.cursors _ (Nat.le_refl _) hCursors
    simp only [wp_bind, wp_tryCatch, wp_ite, wp_modify, wp_throw, wp_pure]
    split
    · rename_i hPush
      -- the vector throws: the parameter is in neither container
      rw [wp_liftError]
      refine wp_mono (wp_releaseObj 0 (.inr (.inr rfl)) hCursors₁ hA.gains.nodup)
        (fun _ w' hF => .inl ⟨?_, hA.gains.conserves.undo hF hNew, ?_⟩) (fun _ _ hE => hE)
      · rintro ⟨-, hNone, -⟩
        rw [hNone] at hPush
        cases hPush
      · have hSame : w'.stmts s = w₁.stmts s := hF.untouched ⟨.statement, s⟩ hOther
        rw [hSame, hA.stmts]
    · rename_i hPush
      split
      · rename_i hInsert
        -- the map throws: the parameter stays in the vector
        rw [wp_liftError]
        refine wp_mono (wp_releaseObj 0 (x := ⟨.parameter, w.fresh⟩) (.inr (.inr rfl))
          (hCursors₁.of_eq (fun _ => rfl) fun _ _ => rfl) hA.gains.nodup)
          (fun _ w' hF => .inr ⟨⟨hDone, Bool.eq_false_iff.mpr hPush, hInsert⟩, ?_⟩)
          (fun _ _ hE => hE)
        have hSame : w'.stmts s = _ := hF.untouched ⟨.statement, s⟩ hOther
        rw [hSame]
        simp [hA.stmts]
      · rename_i hInsert
        refine ⟨fun hFails => hInsert hFails.2.2, trivial, w₁, param, t, hA, ?_⟩
        rw [hA.param, hTyped.name]
        simp [World.withParam]
  · have hSame : w'.stmts s = w₁.stmts s := hF.untouched ⟨.statement, s⟩ fun hm =>
      absurd hs (Nat.not_lt_of_le (hA.gains.new _ (hOwn ▸ hm)).1)
    exact .inl ⟨fun hFails => hNot hFails.1, hC, by rw [hSame, hA.stmts]⟩

-- ---------------------------------------------------------------------------
-- Assignments
-- ---------------------------------------------------------------------------

theorem frame_conserves (n : Nat) : Frame fun w w' => Conserves n w w' [] :=
  ⟨fun w => .refl n w, fun h h' => h.trans h'⟩

/-- A change of a parameter that leaves what it owns. -/
theorem respects_modifyParam (n p : Nat) {f : Parameter → Parameter}
    (hResultSet : ∀ param, (f param).m_resultSet = param.m_resultSet)
    (hRsHandle : ∀ param, (f param).m_rsHandle = param.m_rsHandle) :
    Respects (fun w w' => Conserves n w w' []) (modifyParam p f) := fun w =>
  conserves_modifyParam _ (fun _ => ⟨hResultSet _, hRsHandle _⟩) fun _ hr =>
    hResultSet (w.params p) ▸ hr

/-- The calls on a parameter. -/
def BindCall.assigns : BindCall → Bool
  | .bind _ _ => false
  | _ => true

/-- The assignments change nothing that is owned. -/
theorem conserves_assign (n : Nat) (l : BindCall) (hl : l.assigns = true) :
    Respects (fun w w' => Conserves n w w' []) (l.run s) :=
  respects_assign (frame_conserves n) (fun w rs => (quiet_uses w rs).conserves n)
    (fun p _ => respects_modifyParam n p) l fun _ _ heq => by
      rw [heq] at hl
      cases hl

-- ---------------------------------------------------------------------------
-- ToResultSet
-- ---------------------------------------------------------------------------

/-- What a statement owns once its parameter `p` has a result set. -/
theorem owned_cached (hp : p ∈ (w.stmts s).m_parameters)
    (hNone : (w.params p).m_resultSet = none) (hStmt : (w.rsets r).m_stmt = none)
    (hNodup : (w.owned ⟨.statement, s⟩).Nodup) :
    ((w.cached p r).owned ⟨.statement, s⟩).Perm
      (w.owned ⟨.resultSet, r⟩ ++ w.owned ⟨.statement, s⟩) := by
  have hParams := List.perm_cons_erase hp
  have hFlat := hParams.flatMap_right w.paramOwned
  have hFlat' := hParams.flatMap_right (w.cached p r).paramOwned
  rw [List.flatMap_cons] at hFlat hFlat'
  have hCursor : w.owned ⟨.resultSet, r⟩ = w.cursorOwned r := by
    simp [World.owned, World.rsOwned, World.cursorOwned, hStmt]
  have hParam : (w.cached p r).paramOwned p = w.cursorOwned r ++ w.paramOwned p := by
    simp [World.paramOwned, World.cached, hNone, World.cursorOwned, World.columnsOwned]
  -- the parameter is listed once
  have hRest : ((w.stmts s).m_parameters.erase p).flatMap (w.cached p r).paramOwned =
      ((w.stmts s).m_parameters.erase p).flatMap w.paramOwned := by
    refine List.flatMap_congr fun p' hp' => ?_
    have hne : p' ≠ p := by
      rintro rfl
      have hOnce : ((w.stmts s).m_parameters.flatMap w.paramOwned).Nodup := by
        rw [World.owned, World.stmtOwned, List.nodup_append, List.nodup_append] at hNodup
        exact hNodup.1.2.1
      have hSelf : ∀ w : World, (⟨.parameter, p'⟩ : Res) ∈ w.paramOwned p' := fun w => by
        simp [World.paramOwned]
      exact (List.nodup_append.mp (hFlat.nodup_iff.mp hOnce)).2.2 _ (hSelf w) _
        (List.mem_flatMap.mpr ⟨p', hp', hSelf w⟩) rfl
    simp only [World.paramOwned, World.cached, Function.update_of_ne hne]
    rfl
  rw [hParam, hRest] at hFlat'
  show (World.stmtOwned (w.cached p r) s).Perm (_ ++ World.stmtOwned w s)
  rw [World.stmtOwned, World.stmtOwned, hCursor]
  calc ptr .stmt ((w.cached p r).stmts s).m_stmtHandle ++
        ((w.cached p r).stmts s).m_parameters.flatMap (w.cached p r).paramOwned ++
          [⟨.statement, s⟩]
      _ = ptr .stmt (w.stmts s).m_stmtHandle ++
          ((w.stmts s).m_parameters.flatMap (w.cached p r).paramOwned ++ [⟨.statement, s⟩]) := by
        rw [List.append_assoc]
        rfl
      List.Perm _ (ptr .stmt (w.stmts s).m_stmtHandle ++ (w.cursorOwned r ++
          ((w.stmts s).m_parameters.flatMap w.paramOwned ++ [⟨.statement, s⟩]))) := by
        refine List.Perm.append_left _ ?_
        rw [← List.append_assoc]
        refine List.Perm.append_right _ (hFlat'.trans ?_)
        rw [List.append_assoc]
        exact List.Perm.append_left _ hFlat.symm
      List.Perm _ (w.cursorOwned r ++ (ptr .stmt (w.stmts s).m_stmtHandle ++
          (w.stmts s).m_parameters.flatMap w.paramOwned ++ [⟨.statement, s⟩])) := by
        rw [List.append_assoc]
        exact List.perm_append_comm_assoc _ _ _

/-- The parameter `p` without a result set gets the result set `r`. -/
theorem Sound.cache (h : Sound w (⟨.resultSet, r⟩ :: held)) (hs : ⟨.statement, s⟩ ∈ held)
    (hp : p ∈ (w.stmts s).m_parameters) (hNone : (w.params p).m_resultSet = none)
    (hStmt : (w.rsets r).m_stmt = none) : Sound (w.cached p r) held where
  minted := h.minted
  cursors p' r' hr' := by
    have hOld : r < w.fresh := h.id_lt (y := ⟨.resultSet, r⟩) (List.mem_flatMap.mpr
      ⟨⟨.resultSet, r⟩, List.mem_cons_self .., mem_owned_self _ _⟩)
    by_cases hEq : p' = p
    · subst hEq
      simp only [World.cached, Function.update_self] at hr'
      obtain rfl := Option.some.inj hr'
      exact ⟨hOld, hStmt⟩
    · simp only [World.cached, Function.update_of_ne hEq] at hr'
      exact h.cursors p' r' hr'
  kinds x hx := h.kinds x (List.mem_cons_of_mem _ hx)
  net y hy := by
    have hNet := h.net y hy
    have hNodup := h.nodup
    have hErase := (List.perm_cons_erase hs).flatMap_right w.owned
    have hErase' := (List.perm_cons_erase hs).flatMap_right (w.cached p r).owned
    rw [List.flatMap_cons] at hNet hNodup hErase hErase'
    have hHeld := hErase.nodup_iff.mp (List.nodup_append.mp hNodup).2.1
    have hDisjoint := (List.nodup_append.mp hHeld).2.2
    have hMem : (⟨.parameter, p⟩ : Res) ∈ w.owned ⟨.statement, s⟩ :=
      mem_stmtOwned hp (by simp [World.paramOwned])
    have hSame : ∀ z, z ≠ ⟨.parameter, p⟩ → SameAt w (w.cached p r) z := by
      rintro ⟨kind, id⟩ hne
      cases kind with
      | parameter => exact Function.update_of_ne (fun heq : id = p => hne (by rw [heq])) ..
      | _ => first | exact rfl | trivial
    -- the other objects do not own the parameter
    have hOwned : (held.erase ⟨.statement, s⟩).flatMap (w.cached p r).owned =
        (held.erase ⟨.statement, s⟩).flatMap w.owned := by
      refine List.flatMap_congr fun o ho => owned_congr fun z hz => (hSame z fun heq => ?_).linked
      exact hDisjoint _ hMem z (List.mem_flatMap.mpr ⟨o, ho, hz⟩) heq.symm
    have hGrown := owned_cached hp hNone hStmt (List.nodup_append.mp hHeld).1
    show Ledger.net w.trace y = _
    rw [hNet, hErase'.count_eq, hOwned, List.count_append, List.count_append, hGrown.count_eq,
      List.count_append, hErase.count_eq, List.count_append]
    push_cast
    omega

/-- `ToResultSet` on a parameter of a held statement. -/
theorem Sound.toResultSet (h : Sound w held) (hs : ⟨.statement, s⟩ ∈ held)
    (hp : p ∈ (w.stmts s).m_parameters) :
    wp (Parameter.toResultSet p) (fun _ w' => Sound w' held) (fun _ w' => Sound w' held) w := by
  rw [Parameter.toResultSet, wp_bind, wp_get]
  dsimp only
  rw [wp_ite]
  split
  · cases hCached : (w.params p).m_resultSet with
    | some r => exact h
    | none =>
      dsimp only
      rw [wp_bind]
      refine wp_mono (wp_newResultSet _ _) ?_ (fun _ w₁ hA => h.conserve hA.conserves)
      rintro r w₁ ⟨rfl, ids, hB⟩
      have hApart := hB.building.apart
      have h₁ : Sound (w₁.cached p w.fresh) held := by
        refine (h.gain hB.building.gains rfl).cache hs ?_ ?_ hB.building.rset.stmt
        · rw [hApart.stmts]
          exact hp
        · rw [hApart.params]
          exact hCached
      rw [wp_bind, wp_modifyParam, wp_bind]
      exact wp_mono (reading_fetchRows w.fresh (w₁.cached p w.fresh))
        (fun _ _ hR => h₁.conserve (hR.conserves _)) (fun _ _ hR => h₁.conserve (hR.conserves _))
  · exact h

-- ---------------------------------------------------------------------------
-- Runs
-- ---------------------------------------------------------------------------

/-- The calls on the objects of a connection that stays open. -/
inductive ObjectCall
  | app (l : Call)
  | toResultSet (s p : Nat)
  | assign (l : BindCall)

/-- A call, what the containers do in it if it is a `Bind`, and the answers of
OCI. -/
structure FaultyCall where
  call    : ObjectCall
  faults  : BindFaults
  answers : OciCall → OciResult

/-- What a call does, and the object it returns. -/
def ObjectCall.run (faults : BindFaults) : ObjectCall → EStateM BindThrown World (Option Res)
  | .app (.bind s name type) => do
    let _ ← Statement.bindFaulty faults s name type
    return none
  | .app l => liftError .oraError l.run
  | .toResultSet _ p => do
    let _ ← liftError .oraError (Parameter.toResultSet p)
    return none
  | .assign l => do
    liftError .oraError (l.run 0)
    return none

/-- The application holds the object the call is made on, or its statement. -/
def App.AllowsObject (a : App) : ObjectCall → Prop
  | .app l => a.Allows l
  | .toResultSet s p => ⟨.statement, s⟩ ∈ a.held ∧ p ∈ (a.w.stmts s).m_parameters
  | .assign l => l.assigns = true

instance (a : App) : (l : ObjectCall) → Decidable (a.AllowsObject l)
  | .app l => inferInstanceAs (Decidable (a.Allows l))
  | .toResultSet _ _ => inferInstanceAs (Decidable (_ ∧ _))
  | .assign l => inferInstanceAs (Decidable (l.assigns = true))

def ObjectCall.keeps (held : List Res) : ObjectCall → List Res
  | .app l => l.keeps held
  | _ => held

def App.stepFaulty (a : App) (l : FaultyCall) : App :=
  if a.AllowsObject l.call then
    match l.call.run l.faults (a.w.answering l.answers) with
    | .ok x w => ⟨w, x.toList ++ l.call.keeps a.held⟩
    | .error _ w => { a with w := w }
  else a

/-- The resource is there: acquired once, and never asked to be released. -/
def World.Alive (w : World) (x : Res) : Prop := acquired w.trace x = 1 ∧ released w.trace x = 0

/-- A `Bind` of the statement `s` has appended the parameter `p` and made it
the one stored under `name`, and it is alive. -/
structure World.Appended (w : World) (s : Nat) (name : TString) (p : Nat) (w' : World) : Prop where
  parameters : (w'.stmts s).m_parameters = (w.stmts s).m_parameters ++ [p]
  map        : ∀ key, (w'.stmts s).find key = if key = name then some p else (w.stmts s).find key
  made       : MadeSince w w' ⟨.parameter, p⟩
  alive      : w'.Alive ⟨.parameter, p⟩

/-- A `Bind` of the statement `s` has left its containers as they were, and
has released every parameter it made. -/
structure World.LeftAlone (w : World) (s : Nat) (w' : World) : Prop where
  parameters : (w'.stmts s).m_parameters = (w.stmts s).m_parameters
  map        : (w'.stmts s).m_parametersMap = (w.stmts s).m_parametersMap
  released   : ∀ p, MadeSince w w' ⟨.parameter, p⟩ → ReleasedOnce w' ⟨.parameter, p⟩

/-- What is asked of a call that is a `Bind`. -/
def App.BindAtomic (a : App) (l : FaultyCall) : Prop :=
  ∀ s name type, l.call = .app (.bind s name type) → a.AllowsObject l.call →
    let w := a.w.answering l.answers
    wp (Statement.bindFaulty l.faults s name type) (fun p w' => w.Appended s name p w')
      (fun _ w' => w.LeftAlone s w') w

/-- A `Bind` that gets as far as the map can insert. -/
def App.Inserts (a : App) (l : FaultyCall) : Prop :=
  ∀ s name type, l.call = .app (.bind s name type) → a.AllowsObject l.call →
    ¬ (a.w.answering l.answers).InsertFails name type l.faults

/-- All parameters listed in a statement the application holds are alive. -/
def App.ParamsAlive (a : App) : Prop :=
  ∀ s, ⟨.statement, s⟩ ∈ a.held → ∀ p ∈ (a.w.stmts s).m_parameters, a.w.Alive ⟨.parameter, p⟩

/-- All parameters made since `w` were released once. -/
def App.ParamsReleased (a₀ a : App) : Prop :=
  ∀ p, MadeSince a₀.w a.w ⟨.parameter, p⟩ → ReleasedOnce a.w ⟨.parameter, p⟩

-- ---------------------------------------------------------------------------
-- One call
-- ---------------------------------------------------------------------------

/-- What is owned is there. -/
theorem Sound.alive (h : Sound w held) (hy : y ∈ held.flatMap w.owned) : w.Alive y := by
  have hNet := h.net y (h.kind hy)
  have hOnce := h.minted.once y
  have hCount := List.count_pos_iff.mpr hy
  unfold Ledger.net at hNet
  exact ⟨by omega, by omega⟩

theorem Sound.paramsAlive (h : Sound w held) : (⟨w, held⟩ : App).ParamsAlive := by
  intro s hs p hp
  refine h.alive (List.mem_flatMap.mpr ⟨⟨.statement, s⟩, hs, ?_⟩)
  exact mem_stmtOwned hp (by simp [World.paramOwned])

/-- What was made and is not owned was released. -/
theorem Sound.releasedOnce (h : Sound w held) (hKind : x.kind.ofStatement = true)
    (hMade : 0 < acquired w.trace x) (hx : x ∉ held.flatMap w.owned) : ReleasedOnce w x := by
  refine releasedOnce_of_net h.minted hMade ?_
  rw [h.net x hKind, List.count_eq_zero_of_not_mem hx]
  rfl

/-- **One `Bind`** is atomic exactly when the map can insert, and then all that
is there is owned, once. -/
theorem Sound.bindFaulty (h : Sound w held) (faults : BindFaults) (name : TString)
    (type : DataType) (hs : ⟨.statement, s⟩ ∈ held) :
    wp (Statement.bindFaulty faults s name type)
      (fun p w' => (¬ w.InsertFails name type faults) ∧ Sound w' held ∧ w.Appended s name p w')
      (fun _ w' => (¬ w.InsertFails name type faults ∧ Sound w' held ∧ w.LeftAlone s w') ∨
        (w.InsertFails name type faults ∧ ¬ w.LeftAlone s w')) w := by
  have hOld : s < w.fresh :=
    h.id_lt (List.mem_flatMap.mpr ⟨⟨.statement, s⟩, hs, mem_owned_self _ _⟩)
  refine wp_mono (wp_bindFaulty h.cursors hOld) ?_ (fun _ w' hThrown => ?_)
  · rintro p w' ⟨hNot, hp, w₁, param, t, hA, hw'⟩
    have hSound : Sound w' held := by
      rw [hw']
      exact (h.gain hA.gains rfl).adopt hs
    have hListed : (w'.stmts s).m_parameters = (w.stmts s).m_parameters ++ [p] := by
      rw [hw']
      simp [World.withParam, hA.stmts]
    have hAlive : w'.Alive ⟨.parameter, p⟩ := by
      refine hSound.paramsAlive s hs p ?_
      rw [hListed]
      exact List.mem_append_right _ (List.mem_singleton_self p)
    refine ⟨hNot, hSound, hListed, fun key => ?_, ⟨rfl, ?_, ?_⟩, hAlive⟩
    · rw [hw']
      simp only [World.withParam, Statement.find, Function.update_self, hA.stmts,
        mapFind_mapInsert]
    · -- the number of the parameter is new
      rw [hp]
      refine acquired_eq_zero_iff.mpr fun q hq => ?_
      exact Nat.lt_irrefl _ (h.minted.acquired hq)
    · rw [hAlive.1]
      exact Nat.one_pos
  · rcases hThrown with ⟨hNot, hC, hSame⟩ | ⟨hFails, hListed⟩
    · refine .inl ⟨hNot, h.conserve hC, by rw [hSame], by rw [hSame], ?_⟩
      rintro p ⟨-, hNew, hMade⟩
      refine releasedOnce_of_net (hC.minted h.minted) hMade ?_
      have hBefore := h.net ⟨.parameter, p⟩ rfl
      rw [hC.net, hBefore]
      unfold Ledger.net at hBefore
      simp only [List.count_nil]
      omega
    · refine .inr ⟨hFails, fun hLeft => ?_⟩
      have hLength := congrArg List.length (hListed.symm.trans hLeft.parameters)
      rw [List.length_append, List.length_singleton] at hLength
      omega

/-- A call that is no `Bind` is made as without faults. -/
theorem ObjectCall.run_app (faults : BindFaults) {l : Call}
    (hl : ∀ s name type, l ≠ .bind s name type) :
    (ObjectCall.app l).run faults = liftError .oraError l.run := by
  cases l with
  | bind s name type => exact absurd rfl (hl s name type)
  | _ => rfl

/-- **One call** keeps the account, if the map can insert when it is a `Bind`. -/
theorem Sound.object (h : Sound w held) (faults : BindFaults) (l : ObjectCall)
    (hAllows : App.AllowsObject ⟨w, held⟩ l)
    (hInserts : ∀ s name type, l = .app (.bind s name type) → ¬ w.InsertFails name type faults) :
    wp (l.run faults) (fun x w' => Sound w' (x.toList ++ l.keeps held)) (fun _ w' => Sound w' held)
      w := by
  cases l with
  | app l =>
    by_cases hl : ∃ s name type, l = .bind s name type
    · obtain ⟨s, name, type, rfl⟩ := hl
      rw [ObjectCall.run, wp_bind]
      refine wp_mono (h.bindFaulty faults name type (hAllows _ rfl))
        (fun _ w' ⟨_, hSound, _⟩ => hSound) (fun _ w' hThrown => ?_)
      rcases hThrown with ⟨-, hSound, -⟩ | ⟨hFails, -⟩
      · exact hSound
      · exact absurd hFails (hInserts s name type rfl)
    · have hl' : ∀ s name type, l ≠ .bind s name type := fun s name type heq =>
        hl ⟨s, name, type, heq⟩
      rw [ObjectCall.run_app faults hl', wp_liftError]
      exact wp_mono (h.call l hAllows) (fun _ _ hSound => hSound) (fun _ _ hC => h.conserve hC)
  | toResultSet s p =>
    rw [ObjectCall.run, wp_bind, wp_liftError]
    exact h.toResultSet hAllows.1 hAllows.2
  | assign l =>
    rw [ObjectCall.run, wp_bind, wp_liftError]
    exact wp_mono (conserves_assign _ l hAllows w) (fun _ _ hC => h.conserve hC)
      (fun _ _ hC => h.conserve hC)

theorem App.stepFaulty_sound (a : App) (l : FaultyCall) (h : Sound a.w a.held)
    (hInserts : a.Inserts l) : Sound (a.stepFaulty l).w (a.stepFaulty l).held := by
  rw [App.stepFaulty]
  split
  · rename_i hAllows
    have hCall := (h.answering l.answers).object l.faults l.call hAllows
      fun s name type hBind => hInserts s name type hBind hAllows
    split
    · rename_i hRun
      have hAfter := of_wp_ok hCall hRun
      exact hAfter
    · rename_i hRun
      have hAfter := of_wp_error hCall hRun
      exact hAfter
  · exact h

theorem Sound.bindAtomic_iff (a : App) (l : FaultyCall) (h : Sound a.w a.held) :
    a.BindAtomic l ↔ a.Inserts l := by
  constructor
  · intro hAtomic s name type hBind hAllows hFails
    have hs : ⟨.statement, s⟩ ∈ a.held := by
      rw [hBind] at hAllows
      exact hAllows _ rfl
    have hCall := (h.answering l.answers).bindFaulty l.faults name type hs
    refine (wp_exec (P := fun _ => False)).mp (wp_mono (wp_and (hAtomic s name type hBind hAllows)
      hCall) (fun _ _ hDone => hDone.2.1 hFails) (fun _ _ hThrown => ?_))
    rcases hThrown.2 with ⟨hNot, -⟩ | ⟨-, hTouched⟩
    · exact hNot hFails
    · exact hTouched hThrown.1
  · intro hInserts s name type hBind hAllows
    have hs : ⟨.statement, s⟩ ∈ a.held := by
      rw [hBind] at hAllows
      exact hAllows _ rfl
    have hNot := hInserts s name type hBind hAllows
    refine wp_mono ((h.answering l.answers).bindFaulty l.faults name type hs)
      (fun _ _ hDone => hDone.2.2) (fun _ _ hThrown => ?_)
    rcases hThrown with ⟨-, -, hLeft⟩ | ⟨hFails, -⟩
    · exact hLeft
    · exact absurd hFails hNot

-- ---------------------------------------------------------------------------
-- Runs
-- ---------------------------------------------------------------------------

/-- **`Bind` is atomic and every parameter is released once.** A connection was
opened and closed any number of times; then the application makes any calls on
it, on its statements and on their parameters, with any answers of OCI, and
the containers of a `Bind` fail at any point. Every `Bind` that throws leaves
the containers as they were and has released its parameter, every one that
returns has appended it and stored it under its name; the parameters listed in
a statement are always alive; and when the application holds nothing any more,
every parameter was released once: all this exactly when in no `Bind` of the
run the map throws after the parameter was appended. -/
theorem binds_atomic_iff (cfg : Setting) (before : List ConnCall) (calls : List FaultyCall) :
    let a₀ := App.opened cfg before
    (AllSteps App.stepFaulty App.BindAtomic a₀ calls ∧
      AllStates App.stepFaulty App.ParamsAlive a₀ calls ∧
      ((run App.stepFaulty a₀ calls).held = [] → a₀.ParamsReleased (run App.stepFaulty a₀ calls))) ↔
    AllSteps App.stepFaulty App.Inserts a₀ calls := by
  intro a₀
  have hStart : Sound a₀.w a₀.held := sound_opened cfg before
  have hAtomic : AllSteps App.stepFaulty App.BindAtomic a₀ calls ↔
      AllSteps App.stepFaulty App.Inserts a₀ calls :=
    allSteps_iff_allSteps (I := fun a : App => Sound a.w a.held)
      (fun a l h hOk => a.stepFaulty_sound l h hOk) (fun a l h => h.bindAtomic_iff a l) hStart
  refine ⟨fun hAll => hAtomic.mp hAll.1, fun hOk => ⟨hAtomic.mpr hOk, ?_, fun hNone p hMade => ?_⟩⟩
  · exact allStates_mono (fun a h => h.paramsAlive) (allStates_of_allSteps
      (I := fun a : App => Sound a.w a.held) (fun a l h hOk => a.stepFaulty_sound l h hOk) hStart
      hOk)
  · have hEnd := run_invariant_of_allSteps (I := fun a : App => Sound a.w a.held)
      (fun a l h hOk => a.stepFaulty_sound l h hOk) hStart hOk
    refine hEnd.releasedOnce rfl hMade.2.2 ?_
    rw [hNone]
    exact List.not_mem_nil

/-- A statement is prepared, a `Bind` on it fails in the map, and it is
released. -/
def insertFailsRun : List FaultyCall :=
  [⟨.app (.prepare []), {}, allWell⟩,
    ⟨.app (.bind 5 (tstr "nID") .unknown), { insert := true }, allWell⟩,
    ⟨.app (.release ⟨.statement, 5⟩), {}, allWell⟩]

/-- The application after that, on a connection that was opened. -/
def insertFailed : App :=
  run App.stepFaulty (.opened .plain [.open ⟨true, true, false⟩ allWell]) insertFailsRun

/-- The parameter is released by the handler and by `cleanUp` again. -/
theorem insert_fails_after_append :
    released insertFailed.w.trace ⟨.parameter, 7⟩ = 2 ∧
    ¬ (AllSteps App.stepFaulty App.BindAtomic
        (.opened .plain [.open ⟨true, true, false⟩ allWell]) insertFailsRun ∧
      AllStates App.stepFaulty App.ParamsAlive
        (.opened .plain [.open ⟨true, true, false⟩ allWell]) insertFailsRun ∧
      (insertFailed.held = [] →
        (App.opened .plain [.open ⟨true, true, false⟩ allWell]).ParamsReleased insertFailed)) := by
  have hTwice : released insertFailed.w.trace ⟨.parameter, 7⟩ = 2 := by decide +kernel
  refine ⟨hTwice, fun ⟨_, _, hReleased⟩ => ?_⟩
  have hMade : MadeSince (App.opened .plain [.open ⟨true, true, false⟩ allWell]).w insertFailed.w
      ⟨.parameter, 7⟩ := by
    unfold MadeSince
    decide +kernel
  have hOnce := (hReleased (by decide +kernel) 7 hMade).2
  rw [hTwice] at hOnce
  cases hOnce

end Epol
