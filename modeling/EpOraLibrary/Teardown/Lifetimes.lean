import EpOraLibrary.Cursor.Traversal
import EpOraLibrary.Teardown.Steps

/-!
# EpOraLibrary — objects that outlive their handles

A connection from its last `Open` on. The application makes statements and
result sets, calls them, closes the connection, and goes on with what it holds:
it calls `Next` and releases, in any order.

* `Tied` — one object at most frees the handle a result set is on, and while
  that object is not released the handle is not freed.
* `Life.Ok` — what holds of every state of a run whose calls are all `Served`.
* `teardown_safe` — **no call is handed a freed handle** in such a run.
* `handles_outlived` — runs in which one is.
-/

namespace Epol

open Ledger Prog Runs

variable {w w' : World} {held : List Res} {x keeper : Res} {freed : Prop} {r : Nat}

-- ---------------------------------------------------------------------------
-- The handle of a result set
-- ---------------------------------------------------------------------------

/-- The handle of the result set `r` is freed by the release of `keeper`, if by
any of the objects `held`; `freed` holds if it was. -/
structure Tied (w : World) (held : List Res) (keeper : Res) (freed : Prop) (r : Nat) : Prop where
  kind     : keeper = ⟨.resultSet, r⟩ ∨ keeper.kind = .statement
  lt       : ∀ h, (w.rsets r).m_rsHandle = some h → h < w.fresh
  owner    : ∀ h, (w.rsets r).m_rsHandle = some h → ∀ o ∈ held, ⟨.stmt, h⟩ ∈ w.owned o →
    o = keeper ∧ ∀ s, o = ⟨.statement, s⟩ → (w.stmts s).m_stmtHandle = some h
  released : ∀ h, (w.rsets r).m_rsHandle = some h → Released w.trace ⟨.stmt, h⟩ → freed

/-- A new result set. -/
theorem Keeper.tied (hK : Keeper w keeper (w.rsets r).m_rsHandle) (h : Sound w held)
    (hKeeper : keeper ∈ held) (hKind : keeper = ⟨.resultSet, r⟩ ∨ keeper.kind = .statement) :
    Tied w held keeper freed r := by
  have hOwned : ∀ hd, (w.rsets r).m_rsHandle = some hd → ⟨.stmt, hd⟩ ∈ w.owned keeper :=
    fun hd hh => hK.owned (by simp [hh, ptr])
  refine ⟨hKind, fun hd hh => ?_, fun hd hh o ho hm => ?_, fun hd hh hr => ?_⟩
  · exact h.id_lt (List.mem_flatMap.mpr ⟨keeper, hKeeper, hOwned hd hh⟩)
  · obtain rfl := h.owner_unique hKeeper ho (hOwned hd hh) hm
    exact ⟨rfl, fun s heq => (hK.stmt s heq).trans hh⟩
  · exact absurd hr (not_released_of_net (h.minted.once _) (h.net_pos hKeeper (hOwned hd hh)))

/-- A call that frees nothing older. -/
theorem Tied.older (hT : Tied w held keeper freed r) (hO : Older held w w') (new : List Res)
    (hNew : ∀ o ∈ new, ∀ y ∈ w'.owned o, w.fresh ≤ y.id) (h : Sound w held)
    (hr : ⟨.resultSet, r⟩ ∈ held) : Tied w' (new ++ held) keeper freed r := by
  have hOld : ∀ {o : Res}, o ∈ held → o.id < w.fresh := fun {o} ho =>
    h.id_lt (List.mem_flatMap.mpr ⟨o, ho, mem_owned_self w o⟩)
  have hSame : (w'.rsets r).m_rsHandle = (w.rsets r).m_rsHandle := hO.handles r (hOld hr)
  refine ⟨hT.kind, fun hd hh => ?_, fun hd hh o ho hm => ?_, fun hd hh hRel => ?_⟩
  all_goals rw [hSame] at hh
  · exact Nat.lt_of_lt_of_le (hT.lt hd hh) hO.fresh
  · rcases List.mem_append.mp ho with ho | ho
    · exact absurd (hT.lt hd hh) (Nat.not_lt_of_le (hNew o ho _ hm))
    · obtain ⟨hKeeper, hStmt⟩ := hT.owner hd hh o ho (hO.owned o ho _ hm (hT.lt hd hh))
      refine ⟨hKeeper, fun s heq => ?_⟩
      have hLt := hOld ho
      rw [heq] at hLt
      rw [hO.stmts s hLt, hStmt s heq]
  · exact hT.released hd hh ((hO.released _ (hT.lt hd hh)).mp hRel)

/-- `Close`. -/
theorem Tied.beside (hT : Tied w held keeper freed r) (hB : Beside w w') :
    Tied w' held keeper freed r := by
  refine ⟨hT.kind, fun hd hh => ?_, fun hd hh o ho hm => ?_, fun hd hh hRel => ?_⟩
  all_goals rw [hB.rsets] at hh
  · rw [hB.fresh]
    exact hT.lt hd hh
  · rw [hB.owned] at hm
    rw [hB.stmts]
    exact hT.owner hd hh o ho hm
  · exact hT.released hd hh ((hB.released _ rfl).mp hRel)

/-- The release of `x` frees the handle of the statement. -/
def World.FreesHandle (w : World) (x : Res) : Prop :=
  x.kind = .statement ∧
    ∃ h ∈ (w.stmts x.id).m_stmtHandle, w.outcome (.handleFree ⟨.stmt, h⟩) = .success

instance (w : World) (x : Res) : Decidable (w.FreesHandle x) :=
  inferInstanceAs (Decidable (_ ∧ _))

/-- The release of another object. -/
theorem Tied.release (hT : Tied w held keeper freed r) (h : Sound w held) (hx : x ∈ held)
    (hF : Frees w w' (w.owned x) (w.owned x)) {hs : List Nat} (hD : Deletes hs w w')
    (hOwned : ∀ h, h ∈ hs ↔ ⟨.stmt, h⟩ ∈ w.owned x) (hr : ⟨.resultSet, r⟩ ∈ held.erase x)
    {freed' : Prop} (hFreed : freed → freed') (hFrees : x = keeper → w.FreesHandle x → freed') :
    Tied w' (held.erase x) keeper freed' r := by
  have hUntouched : ∀ {o : Res}, o ∈ held.erase x → SameAt w w' o := fun {o} ho =>
    hF.untouched o fun hm => h.apart hx ho o hm (mem_owned_self w o)
  have hSame : w'.rsets r = w.rsets r := hUntouched hr
  refine ⟨hT.kind, fun hd hh => ?_, fun hd hh o ho hm => ?_, fun hd hh hRel => ?_⟩
  all_goals rw [hSame] at hh
  · rw [show w'.fresh = w.fresh by rw [hF.same]]
    exact hT.lt hd hh
  · rw [h.owned_untouched hx hF ho] at hm
    obtain ⟨hKeeper, hStmt⟩ := hT.owner hd hh o (List.mem_of_mem_erase ho) hm
    refine ⟨hKeeper, fun s heq => ?_⟩
    subst heq
    have hStmts : w'.stmts s = w.stmts s := hUntouched ho
    rw [hStmts, hStmt s rfl]
  · rcases hD.released.mp hRel with hRel | ⟨hm, hSuccess⟩
    · exact hFreed (hT.released hd hh hRel)
    · -- it is the keeper that is released, and it is not the result set itself
      obtain ⟨hKeeper, hStmt⟩ := hT.owner hd hh x hx ((hOwned hd).mp hm)
      refine hFrees hKeeper ?_
      obtain ⟨kind, s⟩ := x
      rcases hT.kind with hSelf | hKind
      · rw [hKeeper.trans hSelf] at hr hx
        exact absurd (mem_owned_self w _) (h.apart hx hr _ (mem_owned_self w _))
      · rw [← hKeeper] at hKind
        cases hKind
        exact ⟨rfl, hd, hStmt s rfl, hSuccess⟩

-- ---------------------------------------------------------------------------
-- Runs
-- ---------------------------------------------------------------------------

/-- A `Close`, or a call on the connection or on an object that is held, with
the answers of OCI. -/
inductive LifeCall
  | close (o : OciCall → OciResult)
  | call (l : Call) (o : OciCall → OciResult)

/-- The world, what the application holds, and what it knows: the object whose
release frees the handle of a result set, the environment handle it began with,
whether it has closed the connection, whether a `Close` stranded the service
context, and the statements that were released together with their handles. -/
structure Life where
  w        : World
  held     : List Res
  keeper   : Nat → Res
  env      : Option Nat
  closed   : Bool
  stranded : Bool
  freed    : List Res

/-- A connection that was opened and closed any number of times before. -/
def Life.start (cfg : Setting) (before : List ConnCall) : Life :=
  let w := (run ConnRun.step (ConnRun.start cfg) before).w
  ⟨w, [], Res.mk .resultSet, w.conn.m_envHandle, false, false, []⟩

/-- The object is held, and on a connection that was closed nothing new is
begun. -/
def Life.Allows (a : Life) (l : Call) : Prop :=
  (∀ x ∈ l.object, x ∈ a.held) ∧ (a.closed = true → l.tearsDown = true)

instance (a : Life) (l : Call) : Decidable (a.Allows l) :=
  inferInstanceAs (Decidable ((∀ x ∈ l.object, x ∈ a.held) ∧ _))

/-- The next call gets the answers `o`. -/
def Life.answering (a : Life) (o : OciCall → OciResult) : Life := { a with w := a.w.answering o }

/-- The released statements after a call. -/
def Call.frees (w : World) (freed : List Res) : Call → List Res
  | .release x => if w.FreesHandle x then x :: freed else freed
  | _ => freed

/-- The call has returned `x`. -/
def Life.returned (a : Life) (l : Call) (x : Option Res) (w : World) : Life :=
  { a with
    w := w
    held := x.toList ++ l.keeps a.held
    keeper := match x with
      | some y => Function.update a.keeper y.id (l.keeper y)
      | none => a.keeper
    freed := l.frees a.w a.freed }

/-- The call has thrown. -/
def Life.thrown (a : Life) (w : World) : Life := { a with w := w }

def Life.step (a : Life) : LifeCall → Life
  | .close o => { a with
      w := exec Connection.close (a.w.answering o)
      closed := true
      stranded := a.stranded || decide (a.w.answering o).Strands }
  | .call l o =>
    if a.Allows l then
      match l.run (a.w.answering o) with
      | .ok x w => (a.answering o).returned l x w
      | .error _ w => (a.answering o).thrown w
    else a

/-- What holds of every state. -/
structure Life.Ok (a : Life) : Prop where
  sound   : Sound a.w a.held
  handles : HandlesOk true (a.stranded = false) a.w.conn a.w.fresh a.w.trace
  safe    : Safe true a.w.trace
  rooted  : ∀ {h q}, .acquire ⟨.stmt, h⟩ q ∈ a.w.trace → q = a.env.map (Res.mk .env)
  opened  : a.closed = false → a.w.conn.m_envHandle = a.env ∧ a.stranded = false
  tied    : ∀ r, ⟨.resultSet, r⟩ ∈ a.held →
    Tied a.w a.held (a.keeper r) (a.keeper r ∈ a.freed) r

/-- **A call that is served**: no `Close` after one that stranded the service
context; no `Next` that has to fetch once the environment is freed, or the
statement was released and its handle with it; and no release of an object that
owns a statement handle once the environment is freed. -/
def Life.Served (a : Life) : LifeCall → Prop
  | .close _ => a.stranded = false
  | .call (.next r) _ => (a.w.rsets r).Refills →
      a.w.conn.m_envHandle = a.env ∧ a.keeper r ∉ a.freed
  | .call (.release x) _ => a.w.conn.m_envHandle = a.env ∨
      x.kind = .resultSet ∧ (a.w.rsets x.id).m_stmt = none
  | .call _ _ => True

instance (a : Life) (l : LifeCall) : Decidable (a.Served l) :=
  match l with
  | .close _ => inferInstanceAs (Decidable (_ = _))
  | .call (.next _) _ => inferInstanceAs (Decidable (_ → _))
  | .call (.release _) _ => inferInstanceAs (Decidable (_ ∨ _))
  | .call (.execute _) _ | .call (.prepare _) _ | .call (.select _ _) _ | .call (.bind _ _ _) _
  | .call (.stmtExecute _) _ | .call (.stmtSelect _ _) _ => .isTrue trivial

-- ---------------------------------------------------------------------------
-- One call
-- ---------------------------------------------------------------------------

section Step

variable {a : Life}

theorem Life.Ok.answering (h : a.Ok) (o : OciCall → OciResult) : (a.answering o).Ok where
  sound := h.sound.answering o
  handles := h.handles
  safe := h.safe
  rooted := h.rooted
  opened := h.opened
  tied r hr := ⟨(h.tied r hr).kind, (h.tied r hr).lt, (h.tied r hr).owner, (h.tied r hr).released⟩

/-- Until a `Close` has freed the environment. -/
theorem Life.Ok.env_there (h : a.Ok) (hEnv : a.w.conn.m_envHandle = a.env) :
    ∀ e, a.env = some e → ¬ Released a.w.trace ⟨.env, e⟩ := fun _ he hReleased =>
  h.handles.live (k := .env) (hEnv.trans he) (fun heq => nomatch heq) (.inl hReleased)

theorem Life.Ok.fit (h : a.Ok) (hOpen : a.closed = false) : Fit a.w.conn a.w where
  same := rfl
  minted := h.sound.minted
  safe := h.safe
  held hh := h.handles.live hh fun _ => .inl (h.opened hOpen).2
  rooted hm := by
    rw [(h.opened hOpen).1]
    exact h.rooted hm
  counted hd := by
    rw [h.sound.net ⟨.stmt, hd⟩ rfl]
    exact Int.natCast_nonneg _

/-- A call that leaves the connection as it is. -/
theorem Life.Ok.opened_of_conn (h : a.Ok) (hConn : w.conn = a.w.conn) (hOpen : a.closed = false) :
    w.conn.m_envHandle = a.env ∧ a.stranded = false := by
  rw [hConn]
  exact h.opened hOpen

/-- `Close`. -/
theorem Life.Ok.close (h : a.Ok) (hServed : a.stranded = false) :
    Life.Ok { a with
      w := exec Connection.close a.w
      closed := true
      stranded := a.stranded || decide a.w.Strands } := by
  have hB := beside_close h.sound.minted h.handles
  obtain ⟨hOk, hSafe⟩ := handlesOk_close h.handles
  refine ⟨h.sound.beside hB, hOk.imp fun hs => ?_, hSafe hServed, fun hm => ?_,
    fun hClosed => (nomatch hClosed), fun r hr => (h.tied r hr).beside hB⟩
  · have hBoth := Bool.or_eq_false_iff.mp hs
    exact ⟨hBoth.1, of_decide_eq_false hBoth.2⟩
  · exact h.rooted ((hB.acquired _ _).mp hm)

theorem keeps_of_use {l : Call} (hUse : l.tearsDown = false) (held : List Res) :
    l.keeps held = held := by
  cases l <;> first | rfl | cases hUse

theorem frees_of_use {l : Call} (hUse : l.tearsDown = false) (w : World) (freed : List Res) :
    l.frees w freed = freed := by
  cases l <;> first | rfl | cases hUse

theorem keeper_cases {l : Call} (hObject : ∀ x ∈ l.object, x ∈ held) (x : Res) :
    l.keeper x = x ∨ (l.keeper x).kind = .statement ∧ l.keeper x ∈ held := by
  cases l with
  | stmtSelect s fetchSize => exact .inr ⟨rfl, hObject _ rfl⟩
  | _ => exact .inl rfl

/-- A call on a connection that is open. -/
theorem Life.Ok.use (h : a.Ok) (l : Call) (hObject : ∀ x ∈ l.object, x ∈ a.held)
    (hOpen : a.closed = false) (hUse : l.tearsDown = false) :
    wp l.run (fun x w => (a.returned l x w).Ok) (fun _ w => (a.thrown w).Ok) a.w := by
  have hNotRelease : ∀ x, l ≠ .release x := fun x heq => by
    rw [heq] at hUse
    cases hUse
  have hRooted : ∀ {w' : World}, Fit a.w.conn w' → ∀ {hd q}, .acquire ⟨.stmt, hd⟩ q ∈ w'.trace →
      q = a.env.map (Res.mk .env) := by
    intro w' hFit hd q hm
    rw [← (h.opened hOpen).1]
    exact hFit.rooted hm
  refine wp_mono (wp_and (wp_and (h.sound.call l hObject) (h.sound.older l hObject hNotRelease))
    ((h.fit hOpen).call h.sound l hObject hUse))
    (fun x w' ⟨⟨hSound, hOlder, hNew⟩, hFit, hKeeper⟩ => ?_)
    (fun _ w' ⟨⟨hC, hOlder⟩, hFit⟩ => ?_)
  · refine ⟨hSound, h.handles.of_fit hFit hOlder.fresh, hFit.safe, hRooted hFit,
      h.opened_of_conn hFit.same, fun r hr => ?_⟩
    · simp only [Life.returned, keeps_of_use hUse, frees_of_use hUse] at hSound hr ⊢
      cases x with
      | none => exact (h.tied r hr).older hOlder [] (fun _ ho => nomatch ho) h.sound hr
      | some y =>
        have hNew' : ∀ o ∈ [y], ∀ z ∈ w'.owned o, a.w.fresh ≤ z.id := fun o ho =>
          hNew o (by rw [List.mem_singleton.mp ho]; rfl)
        rcases List.mem_cons.mp hr with rfl | hOld
        · -- the result set is the one that was returned
          simp only [Function.update_self]
          refine (hKeeper r rfl).tied hSound ?_ ?_
          · rcases keeper_cases hObject ⟨.resultSet, r⟩ with hSelf | ⟨-, hHeld⟩
            · rw [hSelf]
              exact List.mem_cons_self ..
            · exact List.mem_cons_of_mem _ hHeld
          · exact (keeper_cases hObject _).imp id And.left
        · have hLt : r < a.w.fresh :=
            h.sound.id_lt (List.mem_flatMap.mpr ⟨_, hOld, mem_owned_self a.w _⟩)
          have hNe : r ≠ y.id := fun heq => by
            rw [heq] at hLt
            exact absurd hLt (Nat.not_lt_of_le (hNew y rfl y (mem_owned_self w' y)))
          simp only [Function.update_of_ne hNe]
          exact (h.tied r hOld).older hOlder [y] hNew' h.sound hOld
  · refine ⟨h.sound.conserve hC, h.handles.of_fit hFit hOlder.fresh, hFit.safe, hRooted hFit,
      h.opened_of_conn hFit.same, fun r hr => ?_⟩
    · exact (h.tied r hr).older hOlder [] (fun _ ho => nomatch ho) h.sound hr

/-- `Next`. -/
theorem Life.Ok.next (h : a.Ok) (hHeld : ⟨.resultSet, r⟩ ∈ a.held)
    (hServed : (a.w.rsets r).Refills → a.w.conn.m_envHandle = a.env ∧ a.keeper r ∉ a.freed) :
    wp (Call.next r).run (fun x w => (a.returned (.next r) x w).Ok) (fun _ w => (a.thrown w).Ok)
      a.w := by
  have hLive : (a.w.rsets r).Refills → ∀ x ∈ ptr .stmt (a.w.rsets r).m_rsHandle ++
      ptr .error a.w.conn.m_errorHandle, ¬ Gone true a.w.trace x := by
    intro hRefills
    obtain ⟨hEnv, hKept⟩ := hServed hRefills
    refine List.forall_mem_append.mpr ⟨fun x hx => ?_, fun x hx => ?_⟩
    · obtain ⟨hd, hh, rfl⟩ := List.mem_map.mp hx
      exact not_gone_stmt h.rooted (h.env_there hEnv) fun hReleased =>
        hKept ((h.tied r hHeld).released hd (Option.mem_toList.mp hh) hReleased)
    · obtain ⟨hd, hh, rfl⟩ := List.mem_map.mp hx
      exact h.handles.live (k := .error) (Option.mem_toList.mp hh) fun heq => by cases heq
  have hAfter : ∀ w', Reading r a.w w' → (∃ us : List Res,
      w'.trace = us.map .use ++ a.w.trace ∧ ∀ x ∈ us, ¬ Gone true a.w.trace x) →
      (a.thrown w').Ok := by
    rintro w' hR ⟨us, hTrace, hus⟩
    have hConn : w'.conn = a.w.conn := by rw [hR.same]
    have hFresh : w'.fresh = a.w.fresh := by rw [hR.same]
    refine ⟨h.sound.conserve (hR.conserves _), ?_, ?_, fun hm => ?_, h.opened_of_conn hConn,
      fun r' hr' => ?_⟩
    · simp only [Life.thrown, hConn, hFresh, hTrace]
      exact h.handles.pass fun _ => hus
    · simp only [Life.thrown, hTrace]
      exact (safe_uses us).mpr ⟨hus, h.safe⟩
    · simp only [Life.thrown, hTrace] at hm
      exact h.rooted (by simpa using hm)
    · exact (h.tied r' hr').older ((hR.conserves _).older h.sound) []
        (fun _ ho => absurd ho List.not_mem_nil) h.sound hr'
  rw [Call.run, wp_bind]
  exact wp_mono (wp_next_passed hLive) (fun _ w' hRead => hAfter w' hRead.1 hRead.2)
    (fun _ w' hRead => hAfter w' hRead.1 hRead.2)

/-- `ReleaseObj`. -/
theorem Life.Ok.release (h : a.Ok) (hHeld : x ∈ a.held)
    (hServed : a.w.conn.m_envHandle = a.env ∨
      x.kind = .resultSet ∧ (a.w.rsets x.id).m_stmt = none) :
    wp (Call.release x).run (fun y w => (a.returned (.release x) y w).Ok)
      (fun _ w => (a.thrown w).Ok) a.w := by
  have hKind : x.kind = .statement ∨ x.kind = .resultSet ∨ x.kind = .parameter := by
    have hObject := h.sound.kinds x hHeld
    obtain ⟨kind, id⟩ := x
    cases kind <;> first | exact .inl rfl | exact .inr (.inl rfl) | exact .inr (.inr rfl) |
      cases hObject
  -- the handles it owns are there
  have hThere : ∀ hd, ⟨.stmt, hd⟩ ∈ a.w.owned x → ¬ Gone true a.w.trace ⟨.stmt, hd⟩ := by
    intro hd hm
    rcases hServed with hEnv | ⟨hRs, hNone⟩
    · exact not_gone_stmt h.rooted (h.env_there hEnv)
        (not_released_of_net (h.sound.minted.once _) (h.sound.net_pos hHeld hm))
    · obtain ⟨kind, id⟩ := x
      cases hRs
      simp [World.owned, World.rsOwned, World.columnsOwned, hNone] at hm
  rw [Call.run, wp_bind]
  refine wp_mono (wp_deletes 0 hKind h.sound.cursors
    ((List.nodup_flatMap.mp h.sound.nodup).1 x hHeld)) ?_ (fun _ _ hE => hE)
  rintro _ w' ⟨hF, hs, hD, hNodup, hOwned⟩
  have hSound := h.sound.release hHeld hF
  have hSafe := hD.safe h.sound.minted h.safe hNodup fun hd hh => hThere hd ((hOwned hd).mp hh)
  have hConn : w'.conn = a.w.conn := by rw [hF.same]
  refine ⟨hSound, h.handles.deletes h.sound.minted hD hF hSound.minted hSafe, hSafe, fun hm => ?_,
    h.opened_of_conn hConn, fun r' hr' => ?_⟩
  · exact h.rooted (hD.cleanup.acquired.mp hm)
  · refine (h.tied r' (List.mem_of_mem_erase hr')).release h.sound hHeld hF hD hOwned hr'
      (fun hFreed => ?_) fun hKeeper hFrees => ?_
    · simp only [Life.returned, Call.frees]
      split
      · exact List.mem_cons_of_mem _ hFreed
      · exact hFreed
    · simp only [Life.returned, Call.frees, if_pos hFrees, ← hKeeper]
      exact List.mem_cons_self ..

/-- **One step** of a run keeps what holds of every state. -/
theorem Life.Ok.step (h : a.Ok) (l : LifeCall) (hServed : a.Served l) : (a.step l).Ok := by
  cases l with
  | close o => exact (h.answering o).close hServed
  | call l o =>
    rw [Life.step]
    split
    · rename_i hAllows
      have hCall : wp l.run (fun x w => ((a.answering o).returned l x w).Ok)
          (fun _ w => ((a.answering o).thrown w).Ok) (a.answering o).w := by
        by_cases hUse : l.tearsDown = true
        · cases l with
          | next r => exact (h.answering o).next (hAllows.1 _ rfl) hServed
          | release x => exact (h.answering o).release (hAllows.1 _ rfl) hServed
          | _ => cases hUse
        · refine (h.answering o).use l hAllows.1 ?_ (Bool.eq_false_iff.mpr hUse)
          exact Bool.eq_false_iff.mpr fun hClosed => hUse (hAllows.2 hClosed)
      split
      · rename_i hRun
        exact of_wp_ok hCall hRun
      · rename_i hRun
        exact of_wp_error hCall hRun
    · exact h

/-- A connection before its first statement. -/
theorem Life.ok_start (cfg : Setting) {before : List ConnCall}
    (hBefore : AllSteps ConnRun.step ConnRun.NotStranding (ConnRun.start cfg) before) :
    (Life.start cfg before).Ok := by
  have hHandles : HandlesOk true True _ _ _ := run_invariant_of_allSteps
    (I := fun s : ConnRun => HandlesOk true True s.w.conn s.w.fresh s.w.trace)
    (fun s l h hl => s.step_handlesOk l h fun _ => hl) (handlesOk_start cfg) hBefore
  have hNone := noStatements_run cfg before
  refine ⟨sound_start hNone, hHandles.imp fun _ => trivial, hHandles.safe trivial, fun hm => ?_,
    fun _ => ⟨rfl, rfl⟩, fun r hr => nomatch hr⟩
  cases hNone.acquired hm

end Step

-- ---------------------------------------------------------------------------
-- No call is handed a freed handle
-- ---------------------------------------------------------------------------

/-- **Objects that outlive their handles.** A connection was opened and closed
any number of times before. Then the application makes any calls on it and on the
objects it holds, closes it at any time, and goes on with `Next` and releases, in
any order and with any answers of OCI. Where no earlier `Close` has stranded the
service context and all calls of the run are served, no call to OCI is handed a
handle that was freed before, be it by its own call or with the environment. -/
theorem teardown_safe (cfg : Setting) (before : List ConnCall) (calls : List LifeCall)
    (hBefore : AllSteps ConnRun.step ConnRun.NotStranding (ConnRun.start cfg) before)
    (hCalls : AllSteps Life.step Life.Served (Life.start cfg before) calls) :
    AllStates Life.step (fun a => Safe true a.w.trace) (Life.start cfg before) calls :=
  allStates_mono (fun _ h => h.safe) (allStates_of_allSteps (I := Life.Ok)
    (fun _ l h hServed => h.step l hServed) (Life.ok_start cfg hBefore) hCalls)

/-- A connection on which every execution opens a cursor on three rows. -/
def Life.onThreeRows : Life := .start (.serving threeRows) [.open ⟨true, true, false⟩ allWell]

/-- What owns a statement handle is released first, then the connection is
closed, then what is left is released. -/
theorem teardown_safe_owners_first :
    AllStates Life.step (fun a => Safe true a.w.trace) Life.onThreeRows
      [.call (.prepare []) allWell, .call (.stmtSelect 5 2) allWell, .call (.select [] 2) allWell,
        .call (.release ⟨.statement, 5⟩) allWell, .call (.next 7) allWell,
        .call (.release ⟨.resultSet, 12⟩) allWell, .close allWell,
        .call (.release ⟨.resultSet, 7⟩) allWell, .close allWell] :=
  teardown_safe (.serving threeRows) _ _ ⟨fun _ ho => (nomatch ho), trivial⟩ (by decide +kernel)

/-- `Next` calls on a result set that is held, inside its block. -/
theorem Life.steps_inside {a : Life} (hr : ⟨.resultSet, r⟩ ∈ a.held) (n : Nat)
    (hInside : a.w.Inside r (n + 1)) :
    run Life.step a (List.replicate (n + 1) (.call (.next r) allWell)) =
      { a with w := a.w.movedBy r (n + 1) } := by
  refine run_inside (fun w => { a with w := w }) (fun w hOne => ?_) n hInside
  have hAllows : Life.Allows { a with w := w } (.next r) := by
    refine ⟨fun x hx => ?_, fun _ => rfl⟩
    obtain rfl := Option.some.inj hx
    exact hr
  have hRun : (Call.next r).run (w.answering allWell) = .ok none (w.movedBy r 1) := by
    show EStateM.bind (ResultSet.next r) _ (w.answering allWell) = _
    unfold EStateM.bind
    rw [next_inside hOne]
    rfl
  rw [Life.step, if_pos hAllows, hRun]
  rfl

/-- A connection on which every execution opens a cursor on one row more than a
block of `Select` has. -/
def Life.onFullBlock : Life := .start (.serving fullBlock) [.open ⟨true, true, false⟩ allWell]

/-- A result set is selected, and the connection closed. -/
def selectAndClose : List LifeCall := [.call (.select [] FETCH_SIZE) allWell, .close allWell]

/-- A result set is made on a statement, and the statement released. -/
def selectAndRelease : List LifeCall :=
  [.call (.prepare []) allWell, .call (.stmtSelect 5 FETCH_SIZE) allWell,
    .call (.release ⟨.statement, 5⟩) allWell]

/-- All rows of the first block of the result set 7, and the row behind it. -/
def pastBlock : List LifeCall :=
  List.replicate 3391 (.call (.next 7) allWell) ++ [.call (.next 7) allWell]

/-- A statement released after `Close`, a `Next` that fetches after `Close`, and
one that fetches after the release of the statement are handed freed handles. -/
theorem handles_outlived :
    ¬ Safe true (run Life.step Life.onThreeRows [.call (.prepare []) allWell, .close allWell,
        .call (.release ⟨.statement, 5⟩) allWell]).w.trace ∧
      ¬ Safe true (run Life.step Life.onFullBlock (selectAndClose ++ pastBlock)).w.trace ∧
      ¬ Safe true (run Life.step Life.onFullBlock (selectAndRelease ++ pastBlock)).w.trace := by
  refine ⟨by decide +kernel, ?_, ?_⟩
  · rw [run_append, pastBlock, run_concat, Life.steps_inside (by decide +kernel) 3390
      (by decide +kernel)]
    decide +kernel
  · rw [run_append, pastBlock, run_concat, Life.steps_inside (by decide +kernel) 3390
      (by decide +kernel)]
    decide +kernel

end Epol
