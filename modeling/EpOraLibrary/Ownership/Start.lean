import EpOraLibrary.Connection.Runs
import EpOraLibrary.Ownership.Calls

/-!
# EpOraLibrary — a connection before its first statement

* `ConnKeeps`, `keeps_close` — what uses of handles, changes of the connection
  and frees of its handles keep, `Close` keeps.
* `World.NoStatements` — nothing that statements and result sets are made of is
  there.
* `noStatements_run` — no sequence of `Open` and `Close` changes that.
-/

namespace Epol

open Ledger Prog Runs

variable {w : World}

/-- The kinds that statements and result sets are made of. -/
def Kind.ofStatement : Kind → Bool
  | .stmt | .descriptor | .statement | .resultSet | .column | .parameter => true
  | _ => false

/-- Nothing that statements and result sets are made of is there. -/
structure World.NoStatements (w : World) : Prop where
  minted   : Minted w.fresh w.trace
  handles  : ∀ {k h}, w.conn.handle k = some h → h < w.fresh
  acquired : ∀ {x q}, .acquire x q ∈ w.trace → x.kind.ofStatement = false
  net      : ∀ x, x.kind.ofStatement = true → net w.trace x = 0
  cursors  : ∀ p, (w.params p).m_resultSet = none

/-- A handle of the connection is none of these. -/
theorem ne_of_ofStatement {k : Kind} (hk : k.rank < 5) {x : Res} (hx : x.kind.ofStatement = true)
    (p : Nat) : (⟨k, p⟩ : Res) ≠ x := by
  rintro rfl
  cases k <;> first | exact absurd hk (by decide) | cases hx

/-- Calls that only talk to OCI about handles it has. -/
theorem World.NoStatements.uses (h : w.NoStatements) (rs : List Res) :
    World.NoStatements { w with trace := rs.map .use ++ w.trace } where
  minted := h.minted.uses rs
  handles := h.handles
  acquired hm := h.acquired (by simpa using hm)
  net x hx := (net_uses rs).trans (h.net x hx)
  cursors := h.cursors

/-- The handle of a connection is allocated. -/
theorem World.NoStatements.acquire (h : w.NoStatements) {k : Kind} (hk : k.rank < 5)
    {parent : Option Res} (hParent : ∀ p, parent = some p → p.kind = .env) (oci : Oci) :
    World.NoStatements { w with
      fresh := w.fresh + 1
      trace := .acquire ⟨k, w.fresh⟩ parent :: w.trace
      oci := oci
      conn := w.conn.put k (some w.fresh) } where
  minted := h.minted.acquire k fun p hp => by
    rw [hParent p hp]
    cases k <;> first | rfl | exact absurd hk (by decide)
  handles {k' h'} hh := by
    rw [handle_put _ hk] at hh
    split at hh
    · rw [← Option.some.inj hh]
      exact Nat.lt_succ_self _
    · exact Nat.lt_succ_of_lt (h.handles hh)
  acquired hm := by
    rcases List.mem_cons.mp hm with heq | hm
    · injection heq with hx _
      subst hx
      cases k <;> first | rfl | exact absurd hk (by decide)
    · exact h.acquired hm
  net x hx := by
    rw [net_acquire, if_neg (ne_of_ofStatement hk hx _), h.net x hx, Int.add_zero]
  cursors := h.cursors

/-- A handle of a connection is freed. -/
theorem World.NoStatements.free (h : w.NoStatements) {k : Kind} (hk : k.rank < 5) {p : Nat}
    (hp : p < w.fresh) (done : Bool) :
    World.NoStatements { w with trace := .release ⟨k, p⟩ done :: w.trace } where
  minted := h.minted.release hp done
  handles := h.handles
  acquired hm := h.acquired (by simpa using hm)
  net x hx := by
    rw [net_release, if_neg (ne_of_ofStatement hk hx _), h.net x hx, Int.sub_zero]
  cursors := h.cursors

/-- The fields of the connection and the state behind its handles change, and
no new handle comes in. -/
theorem World.NoStatements.modify (h : w.NoStatements) {conn : Connection} (oci : Oci)
    (hConn : ∀ k p, conn.handle k = some p → w.conn.handle k = some p) :
    World.NoStatements { w with conn := conn, oci := oci } where
  minted := h.minted
  handles hh := h.handles (hConn _ _ hh)
  acquired := h.acquired
  net := h.net
  cursors := h.cursors

-- ---------------------------------------------------------------------------
-- What the calls on a connection keep
-- ---------------------------------------------------------------------------

/-- `I` is kept when handles are used, when fields of the connection are
cleared, and when one of its handles is freed. -/
structure ConnKeeps (I : World → Prop) : Prop where
  uses   : ∀ {w}, I w → ∀ rs : List Res, I { w with trace := rs.map .use ++ w.trace }
  modify : ∀ {w} {conn : Connection}, I w → ∀ oci,
    (∀ k p, conn.handle k = some p → w.conn.handle k = some p) →
      I { w with conn := conn, oci := oci }
  owned  : ∀ {w k p}, I w → w.conn.handle k = some p → p < w.fresh
  free   : ∀ {w k p}, I w → k.rank < 5 → p < w.fresh → ∀ done,
    I { w with trace := .release ⟨k, p⟩ done :: w.trace }

theorem noStatements_keeps : ConnKeeps World.NoStatements where
  uses h rs := h.uses rs
  modify h oci hConn := h.modify oci hConn
  owned h hp := h.handles hp
  free h hk hp done := h.free hk hp done

section Keeps

variable {I : World → Prop}

theorem keeps_pass (hI : ConnKeeps I) (rs : List Res) : Respects (Keep I) (pass rs) :=
  fun _ h => hI.uses h rs

theorem keeps_passAnswer (hI : ConnKeeps I) (rs : List Res) (call : OciCall) :
    Respects (Keep I) (do pass rs; answer call) :=
  respects_bind (frame_keep _) (keeps_pass hI rs) fun _ _ h => h

/-- A call that changes at most the state behind a handle. -/
theorem keeps_passModify (hI : ConnKeeps I) (rs : List Res) (call : OciCall) (f : Oci → Oci) :
    Respects (Keep I) (do
      pass rs
      let r ← answer call
      if r.done then modifyOci f
      return r) := by
  refine respects_keep fun w h => ?_
  simp only [wp_bind, wp_pass, wp_answer, wp_ite, wp_modifyOci, wp_pure]
  split
  · exact hI.modify (hI.uses h rs) _ fun _ _ hh => hh
  · exact hI.uses h rs

/-- One of the frees of `Close`. -/
theorem keeps_freeStep (hI : ConnKeeps I) {k : Kind} (hk : k.rank < 5)
    {handle : Connection → Option Nat} (hHandle : ∀ c, handle c = c.handle k)
    {before : Connection → Connection}
    (hBefore : ∀ c k p, (before c).handle k = some p → c.handle k = some p) (result : OciResult) :
    Respects (Keep I) (Connection.freeStep k handle before result) := by
  refine respects_keep fun w h => ?_
  rw [Connection.freeStep, wp_bind, wp_get]
  dsimp only
  cases hp : handle w.conn with
  | none => exact h
  | some p =>
    rw [hHandle] at hp
    dsimp only
    rw [wp_ite]
    split
    · simp only [ociHandleFree, wp_bind, wp_modifyConn, wp_pass, wp_answer, wp_release, wp_pure]
      have hLt : p < w.fresh := hI.owned h hp
      exact hI.free (hI.uses (hI.modify h w.oci (hBefore w.conn)) [⟨k, p⟩]) hk hLt _
    · exact h

theorem keeps_releaseHandles (hI : ConnKeeps I) :
    Respects (Keep I) Connection.releaseHandles := by
  unfold Connection.releaseHandles
  have hF := frame_keep I
  have hPure : ∀ r : OciResult, Respects (Keep I) (pure r : M OciResult) := respects_pure hF
  have hDetach : ∀ (c : Connection) (result : OciResult), Respects (Keep I)
      (result.andThen (ociServerDetach c.m_serverHandle c.m_errorHandle)) := fun c result =>
    respects_andThen hF result (keeps_passModify hI _ _ _)
  have hEndSession : ∀ c : Connection, Respects (Keep I)
      (ociSessionEnd c.m_svcContextHandle c.m_errorHandle c.m_sessionHandle) := fun c =>
    keeps_passModify hI _ _ _
  have hSession : Respects (Keep I) Connection.closeSession := by
    refine respects_bind hF (respects_get hF) fun w => ?_
    dsimp only
    have hRest := respects_ite (c := w.conn.m_svcContextHandle.isSome = true ∧
        w.conn.m_errorHandle.isSome = true)
      (respects_ite (c := w.conn.m_sessionHandle.isSome = true)
        (respects_bind hF (hEndSession w.conn) fun r => hDetach w.conn r)
        (hDetach w.conn .success)) (hPure .success)
    exact respects_ite (respects_bind hF (keeps_passAnswer hI _ _) fun _ => hRest) hRest
  refine respects_bind hF hSession fun r₁ =>
    respects_bind hF (keeps_freeStep hI (by decide) (fun _ => rfl)
      (fun _ _ _ hh => hh) _) fun r₂ =>
    respects_bind hF (keeps_freeStep hI (by decide) (fun _ => rfl)
      (fun c k p hh => by cases k <;> first | exact hh | cases hh) _) fun r₃ =>
    respects_bind hF (keeps_freeStep hI (by decide) (fun _ => rfl)
      (fun c k p hh => by cases k <;> first | exact hh | cases hh) _) fun r₄ =>
    respects_bind hF (keeps_freeStep hI (by decide) (fun _ => rfl)
      (fun c k p hh => by cases k <;> first | exact hh | cases hh) _) fun r₅ =>
    respects_bind hF (respects_get hF) fun w₁ =>
    respects_bind hF (keeps_freeStep hI (by decide) (fun _ => rfl)
      (fun c k p hh => by cases k <;> first | exact hh | cases hh) _) fun r₆ => ?_
  have hLast : Respects (Keep I) (modifyConn fun c => { c with m_envHandle := none }) :=
    respects_keep fun w h => hI.modify h w.oci fun k p hh => by
      cases k <;> first | exact hh | cases hh
  exact respects_ite (respects_bind hF hLast fun _ => hPure r₆) (hPure r₆)

/-- **`Close`** does nothing else. -/
theorem keeps_close (hI : ConnKeeps I) : Respects (Keep I) Connection.close :=
  respects_bind (frame_keep _) (keeps_releaseHandles hI) fun _ =>
    respects_ite (respects_keep fun w h => hI.modify h w.oci fun k p hh => by cases k <;> exact hh)
      (respects_pure (frame_keep _) _)

end Keeps

-- ---------------------------------------------------------------------------
-- Open
-- ---------------------------------------------------------------------------

/-- The allocation of a handle of the connection. -/
theorem keeps_alloc (env : Option Nat) {k : Kind} (hk : k.rank < 5)
    {store : Nat → World → World}
    (hStore : ∀ h w, store h w = { w with conn := w.conn.put k (some h) }) :
    Respects (Keep World.NoStatements) (ociHandleAlloc env k store) := by
  refine respects_keep fun w h => ?_
  simp only [ociHandleAlloc, wp_bind, wp_pass, wp_answer, wp_ite, wp_acquire, wp_modifyStmtState,
    wp_modify, wp_pure, hStore]
  split
  · refine (h.uses (ptr .env env)).acquire hk (fun p hp => ?_) _
    obtain ⟨e, -, rfl⟩ := Option.map_eq_some_iff.mp hp
    rfl
  · exact h.uses _

theorem keeps_throwOnError {α : Type} (result : OciResult) (error : Option Nat)
    (format : Option TString) :
    Respects (Keep World.NoStatements) (throwOnError result error format : M α) :=
  respects_keep fun _ h => wp_throwOnError fun rs _ => h.uses rs

theorem keeps_throwOnEnv {α : Type} (result : OciResult) (env : Option Nat)
    (format : Option TString) :
    Respects (Keep World.NoStatements) (throwOnEnv result env format : M α) :=
  respects_keep fun _ h => wp_throwOnEnv fun rs _ => h.uses rs

theorem keeps_openWith (args : OpenArgs) :
    Respects (Keep World.NoStatements) (Connection.openWith args) := by
  unfold Connection.openWith
  have hI := noStatements_keeps
  have hF := frame_keep World.NoStatements
  have hEnv : Respects (Keep World.NoStatements) (ociEnvCreate setEnvHandle) := by
    refine respects_keep fun w h => ?_
    simp only [ociEnvCreate, wp_bind, wp_answer, wp_ite, wp_acquire, wp_modify, wp_pure]
    split
    · exact h.acquire (k := .env) (by decide) (fun p (hp : none = some p) => by cases hp) _
    · exact h
  have hPure : ∀ r : OciResult, Respects (Keep World.NoStatements) (pure r : M OciResult) :=
    respects_pure hF
  refine respects_bind hF hEnv fun r₁ =>
    respects_bind hF (respects_get hF) fun w₁ =>
    respects_bind hF (respects_orThrow _ (keeps_alloc _ (by decide) fun _ _ => rfl)
      (respects_throw hF _)) fun r₂ =>
    respects_bind hF (respects_andThen hF _
      (keeps_alloc _ (by decide) fun _ _ => rfl)) fun r₃ =>
    respects_bind hF (respects_get hF) fun w₂ =>
    respects_bind hF (respects_orThrow _ (keeps_passModify hI _ _ _)
      (keeps_throwOnEnv _ _ _)) fun r₄ =>
    respects_bind hF (respects_orThrow _ (keeps_alloc _ (by decide) fun _ _ => rfl)
      (keeps_throwOnError _ _ _)) fun r₅ =>
    respects_bind hF (respects_get hF) fun w₃ =>
    respects_bind hF (respects_orThrow _ (keeps_passAnswer hI _ _)
      (keeps_throwOnEnv _ _ _)) fun r₆ =>
    respects_bind hF (respects_orThrow _ (keeps_alloc _ (by decide) fun _ _ => rfl)
      (keeps_throwOnError _ _ _)) fun r₇ =>
    respects_bind hF (respects_get hF) fun w₄ =>
    respects_bind hF (respects_orThrow _ (respects_ite (keeps_passAnswer hI _ _)
      (hPure _)) (keeps_throwOnEnv _ _ _)) fun r₈ =>
    respects_bind hF (respects_andThen hF _ (respects_ite
      (keeps_passAnswer hI _ _) (hPure _))) fun r₉ =>
    respects_bind hF (respects_andThen hF _
      (keeps_passModify hI _ _ _)) fun r₁₀ =>
    respects_bind hF (respects_andThen hF _
      (keeps_passAnswer hI _ _)) fun r₁₁ =>
    respects_bind hF (respects_ite (keeps_passAnswer hI _ _) (hPure _)) fun r₁₂ =>
    respects_ite (respects_keep fun w h => ?_) (keeps_throwOnError _ _ _)
  exact h.modify w.oci fun k p hh => by cases k <;> exact hh

-- ---------------------------------------------------------------------------
-- Runs
-- ---------------------------------------------------------------------------

theorem noStatements_start (cfg : Setting) : (World.start cfg).NoStatements where
  minted := ⟨fun _ => Nat.zero_le _, fun hm => absurd hm List.not_mem_nil,
    fun hm => absurd hm List.not_mem_nil, fun hr => absurd hr released_nil⟩
  handles {k _} hh := by cases k <;> cases hh
  acquired hm := absurd hm List.not_mem_nil
  net _ _ := rfl
  cursors _ := rfl

theorem World.NoStatements.answering (h : w.NoStatements) (o : OciCall → OciResult) :
    (w.answering o).NoStatements :=
  ⟨h.minted, h.handles, h.acquired, h.net, h.cursors⟩

/-- **No sequence of `Open` and `Close`** makes anything that statements and
result sets are made of. -/
theorem noStatements_run (cfg : Setting) (calls : List ConnCall) :
    (run ConnRun.step (ConnRun.start cfg) calls).w.NoStatements := by
  refine run_invariant (I := fun s : ConnRun => s.w.NoStatements) (fun s l h => ?_)
    (noStatements_start cfg) calls
  cases l with
  | «open» args o =>
    have hOpen := keeps_openWith args (s.w.answering o)
    rw [ConnRun.step]
    split
    · exact h
    · split
      · rename_i hRun
        exact of_wp_ok hOpen hRun (h.answering o)
      · rename_i hRun
        exact of_wp_error hOpen hRun (h.answering o)
  | close o => exact wp_exec.mp (keeps_close noStatements_keeps (s.w.answering o)) (h.answering o)

end Epol
