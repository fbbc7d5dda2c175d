import EpOraLibrary.Lib.Runs
import EpOraLibrary.Model.Connection

/-!
# EpOraLibrary — the handles of a connection

The five handle fields of a `Connection`, addressed by kind, and what `Open`
does to them.

* `HandlesOk` — what holds of the fields between any two calls: a field that is
  set points to a handle that is there, and so do the fields it rests on.
* `Opening` — how far an `Open` has come: the handles of its first steps are
  there, and the server is attached and the session begun once it got there.
* `wp_openWith` — whatever the outcomes, `Open` keeps `HandlesOk`; when it
  returns, the connection is open.
-/

namespace Epol

open Ledger Prog

-- ---------------------------------------------------------------------------
-- The handle fields by kind
-- ---------------------------------------------------------------------------

/-- The handle field of a kind. -/
def Connection.handle (c : Connection) : Kind → Option Nat
  | .env => c.m_envHandle
  | .server => c.m_serverHandle
  | .error => c.m_errorHandle
  | .session => c.m_sessionHandle
  | .svcctx => c.m_svcContextHandle
  | _ => none

/-- Write the handle field of a kind. -/
def Connection.put (kind : Kind) (p : Option Nat) (c : Connection) : Connection :=
  match kind with
  | .env => { c with m_envHandle := p }
  | .server => { c with m_serverHandle := p }
  | .error => { c with m_errorHandle := p }
  | .session => { c with m_sessionHandle := p }
  | .svcctx => { c with m_svcContextHandle := p }
  | _ => c

/-- The kinds a connection has a handle field for, in the order in which
`Close` frees them. -/
def Kind.rank : Kind → Nat
  | .svcctx => 0
  | .session => 1
  | .error => 2
  | .server => 3
  | .env => 4
  | _ => 5

/-- The handle `Open` allocates before one of this kind. -/
def Kind.base : Kind → Kind
  | .session => .error
  | .error => .server
  | .server => .env
  | k => k

theorem handle_put (c : Connection) {k : Kind} (hk : k.rank < 5) (p : Option Nat) (k' : Kind) :
    (c.put k p).handle k' = if k' = k then p else c.handle k' := by
  cases k <;> first | (cases k' <;> rfl) | exact absurd hk (by decide)

@[simp] theorem put_isOpened (c : Connection) (k : Kind) (p : Option Nat) :
    (c.put k p).m_isOpened = c.m_isOpened := by
  cases k <;> rfl

@[simp] theorem put_isBlocking (c : Connection) (k : Kind) (p : Option Nat) :
    (c.put k p).m_isBlocking = c.m_isBlocking := by
  cases k <;> rfl

theorem handle_rank {c : Connection} {k : Kind} {h : Nat} (hh : c.handle k = some h) :
    k.rank < 5 := by
  cases k <;> first | (simp [Connection.handle] at hh; done) | decide

-- ---------------------------------------------------------------------------
-- The invariant
-- ---------------------------------------------------------------------------

/-- What holds of the handle fields between any two calls. `tidy` adds what
only holds while no `Close` has stranded the service context: that its field
never points to a freed handle, and that no call was handed one. -/
structure HandlesOk (c : Bool) (tidy : Prop) (conn : Connection) (fresh : Nat)
    (t : Trace Res) : Prop where
  acquired : ∀ {k q}, .acquire k q ∈ t → k.id < fresh
  parent   : ∀ {k p}, .acquire k (some p) ∈ t → p.kind = .env ∨ p.kind = .stmt
  released : ∀ {k}, Released t k → k.id < fresh
  owned    : ∀ {k h}, conn.handle k = some h → h < fresh
  order    : ∀ {k}, (conn.handle k).isSome → (conn.handle k.base).isSome
  live     : ∀ {k h}, conn.handle k = some h →
    (k = .svcctx → tidy ∨ conn.m_sessionHandle.isSome) → ¬ Gone c t ⟨k, h⟩
  safe     : tidy → Safe c t

variable {c : Bool} {tidy : Prop} {conn : Connection} {fresh : Nat} {t : Trace Res}

theorem HandlesOk.imp {tidy' : Prop} (h : HandlesOk c tidy conn fresh t) (hTidy : tidy' → tidy) :
    HandlesOk c tidy' conn fresh t where
  acquired := h.acquired
  parent := h.parent
  released := h.released
  owned := h.owned
  order := h.order
  live hh hs := h.live hh fun hk => (hs hk).imp hTidy id
  safe ht := h.safe (hTidy ht)

/-- A call that is handed live handles keeps the invariant. -/
theorem HandlesOk.pass (h : HandlesOk c tidy conn fresh t) {rs : List Res}
    (hLive : tidy → ∀ r ∈ rs, ¬ Gone c t r) :
    HandlesOk c tidy conn fresh (rs.map .use ++ t) where
  acquired hm := h.acquired (by simpa using hm)
  parent hm := h.parent (by simpa using hm)
  released hm := h.released ((released_uses rs).mp hm)
  owned := h.owned
  order := h.order
  live hh hs := by
    rw [gone_uses]
    exact h.live hh hs
  safe ht := (safe_uses rs).mpr ⟨hLive ht, h.safe ht⟩

/-- The flags are no part of it. -/
theorem HandlesOk.flags (h : HandlesOk c tidy conn fresh t) {conn' : Connection}
    (hSame : ∀ k, conn'.handle k = conn.handle k) : HandlesOk c tidy conn' fresh t where
  acquired := h.acquired
  parent := h.parent
  released := h.released
  owned hh := h.owned ((hSame _).symm.trans hh)
  order hh := by
    rw [hSame] at hh ⊢
    exact h.order hh
  live hh hs := by
    refine h.live ((hSame _).symm.trans hh) fun hk => (hs hk).imp id fun hsess => ?_
    have hSession : conn'.m_sessionHandle = conn.m_sessionHandle := hSame .session
    rwa [hSession] at hsess
  safe := h.safe

/-- A number that was never handed out stands for nothing that is gone. -/
theorem HandlesOk.not_gone_fresh (h : HandlesOk c tidy conn fresh t) (kind : Kind)
    {parent : Option Res} (hParent : ∀ p, parent = some p → ¬ Released t p) :
    ¬ Gone c (.acquire ⟨kind, fresh⟩ parent :: t) ⟨kind, fresh⟩ :=
  not_gone_acquire (fun _ hm => Nat.lt_irrefl _ (h.acquired hm))
    (fun hr => Nat.lt_irrefl _ (h.released hr)) hParent

/-- A handle field that is set to a newly allocated handle. -/
theorem HandlesOk.alloc (h : HandlesOk c tidy conn fresh t) {k : Kind} (hk : k.rank < 5)
    (hBase : k.base ≠ k → (conn.handle k.base).isSome)
    (hSvc : k = .session → ∀ v, conn.m_svcContextHandle = some v → ¬ Gone c t ⟨.svcctx, v⟩)
    {parent : Option Res} (hParent : ∀ p, parent = some p → p.kind = .env ∧ ¬ Released t p) :
    HandlesOk c tidy (conn.put k (some fresh)) (fresh + 1)
      (.acquire ⟨k, fresh⟩ parent :: t) where
  acquired hm := by
    rcases List.mem_cons.mp hm with heq | hm
    · injection heq with hk _
      rw [hk]
      exact Nat.lt_succ_self _
    · exact Nat.lt_succ_of_lt (h.acquired hm)
  parent hm := by
    rcases List.mem_cons.mp hm with heq | hm
    · injection heq with _ hp
      exact .inl (hParent _ hp.symm).1
    · exact h.parent hm
  released hm := Nat.lt_succ_of_lt (h.released (released_acquire.mp hm))
  owned {k' h'} hh := by
    rw [handle_put conn hk] at hh
    split at hh
    · injection hh with hh
      omega
    · exact Nat.lt_succ_of_lt (h.owned hh)
  order {k'} hs := by
    rw [handle_put conn hk] at hs ⊢
    split
    · rfl
    · rename_i hne
      split at hs
      · rename_i heq
        subst heq
        exact hBase hne
      · exact h.order hs
  live {k' h'} hh hs := by
    rw [handle_put conn hk] at hh
    split at hh
    · rename_i heq
      injection hh with hh
      subst heq hh
      exact h.not_gone_fresh _ fun p hp => (hParent p hp).2
    · rename_i hne
      have hlt := h.owned hh
      rw [gone_acquire_of_ne (by simp only [ne_eq, Res.mk.injEq, not_and]; omega)]
      by_cases hk' : k' = .svcctx ∧ k = .session
      · obtain ⟨rfl, rfl⟩ := hk'
        exact hSvc rfl h' hh
      · refine h.live hh fun hsvc => (hs hsvc).imp id fun hsess => ?_
        have hget := handle_put conn hk (some fresh) .session
        rw [if_neg (fun heq => hk' ⟨hsvc, heq.symm⟩)] at hget
        rwa [show (conn.put k (some fresh)).m_sessionHandle = conn.m_sessionHandle from hget]
          at hsess
  safe ht := h.safe ht

-- ---------------------------------------------------------------------------
-- Open
-- ---------------------------------------------------------------------------

/-- The step of `Open` that allocates the handle of a kind. -/
def Kind.stage : Kind → Nat
  | .env => 1
  | .server => 2
  | .error => 3
  | .svcctx => 5
  | .session => 6
  | _ => 8

theorem stage_inj {k k' : Kind} (hk : k.rank < 5) (h : k'.stage = k.stage) : k' = k := by
  cases k <;> first | (cases k' <;> first | rfl | exact absurd h (by decide))
                    | exact absurd hk (by decide)

/-- How far an `Open` that started in `w₀` has come: the handles of its first
`n` steps are there, after step 4 the server is attached, after step 7 the
session begun. -/
structure Opening (c : Bool) (tidy : Prop) (w₀ : World) (n : Nat) (w : World) : Prop where
  ok       : HandlesOk c tidy w.conn w.fresh w.trace
  opened   : w.conn.m_isOpened = w₀.conn.m_isOpened
  blocking : w.conn.m_isBlocking = w₀.conn.m_isBlocking
  upto     : ∀ k : Kind, k.stage ≤ n → (w.conn.handle k).isSome
  attached : 4 ≤ n → ∀ s, w.conn.handle .server = some s → w.oci.attached s = true
  svc      : 5 ≤ n → ∀ v, w.conn.handle .svcctx = some v → ¬ Gone c w.trace ⟨.svcctx, v⟩
  begun    : 7 ≤ n → ∀ u, w.conn.handle .session = some u → w.oci.begun u = true

variable {w₀ w : World} {n m : Nat}

theorem Opening.mono (h : Opening c tidy w₀ n w) (hm : m ≤ n) : Opening c tidy w₀ m w where
  ok := h.ok
  opened := h.opened
  blocking := h.blocking
  upto k hk := h.upto k (Nat.le_trans hk hm)
  attached hi := h.attached (Nat.le_trans hi hm)
  svc hi := h.svc (Nat.le_trans hi hm)
  begun hi := h.begun (Nat.le_trans hi hm)

/-- The handles among the fields that a step of `Open` may be handed. -/
theorem Opening.live (h : Opening c tidy w₀ n w) {k : Kind} (hk : k = .svcctx → 5 ≤ n) :
    ∀ r ∈ ptr k (w.conn.handle k), ¬ Gone c w.trace r := by
  intro r hr
  obtain ⟨p, hp, rfl⟩ := List.mem_map.mp hr
  have hp := Option.mem_toList.mp hp
  by_cases hsvc : k = .svcctx
  · subst hsvc
    exact h.svc (hk rfl) p hp
  · exact h.ok.live hp fun heq => absurd heq hsvc

theorem Opening.pass (h : Opening c tidy w₀ n w) {rs : List Res}
    (hLive : ∀ r ∈ rs, ¬ Gone c w.trace r) :
    Opening c tidy w₀ n { w with trace := rs.map .use ++ w.trace } where
  ok := h.ok.pass fun _ => hLive
  opened := h.opened
  blocking := h.blocking
  upto := h.upto
  attached := h.attached
  svc hn v hv := by rw [gone_uses]; exact h.svc hn v hv
  begun := h.begun

/-- The next handle is allocated. -/
theorem Opening.alloc (h : Opening c tidy w₀ n w) {k : Kind} {parent : Option Res}
    {w' : World} (hConn : w'.conn = w.conn.put k (some w.fresh)) (hFresh : w'.fresh = w.fresh + 1)
    (hTrace : w'.trace = .acquire ⟨k, w.fresh⟩ parent :: w.trace)
    (hAttached : w'.oci.attached = w.oci.attached)
    (hParent : ∀ p, parent = some p → p.kind = .env ∧ ¬ Released w.trace p)
    (hRank : k.rank < 5) (hStage : k.stage = n + 1) : Opening c tidy w₀ (n + 1) w' := by
  have hHandle : ∀ k', w'.conn.handle k' = if k' = k then some w.fresh else w.conn.handle k' := by
    rw [hConn]
    exact handle_put w.conn hRank _
  have hBase : k.base ≠ k → (w.conn.handle k.base).isSome := by
    intro hne
    refine h.upto _ ?_
    cases k <;> simp [Kind.base, Kind.stage] at hne hStage ⊢ <;> omega
  refine ⟨?_, ?_, ?_, ?_, ?_, ?_, ?_⟩
  · rw [hConn, hFresh, hTrace]
    refine h.ok.alloc hRank hBase (fun hk v hv => h.svc ?_ v hv) hParent
    rw [hk] at hStage
    simp only [Kind.stage] at hStage
    omega
  · rw [hConn, put_isOpened, h.opened]
  · rw [hConn, put_isBlocking, h.blocking]
  · intro k' hk'
    rw [hHandle]
    split
    · rfl
    · rename_i hne
      refine h.upto k' (Nat.le_of_lt_succ (Nat.lt_of_le_of_ne hk' fun heq => hne ?_))
      exact stage_inj hRank (heq.trans hStage.symm)
  · intro hn s hs
    rw [hHandle, if_neg (fun heq => by rw [← heq] at hStage; simp [Kind.stage] at hStage; omega)]
      at hs
    rw [hAttached]
    exact h.attached (by cases k <;> simp [Kind.stage, Kind.rank] at hStage hRank <;> omega) s hs
  · intro hn v hv
    rw [hHandle] at hv
    rw [hTrace]
    split at hv
    · rename_i heq
      injection hv with hv
      subst heq hv
      exact h.ok.not_gone_fresh _ fun p hp => (hParent p hp).2
    · have hlt := h.ok.owned hv
      rw [gone_acquire_of_ne (by simp only [ne_eq, Res.mk.injEq, not_and]; omega)]
      exact h.svc (by cases k <;> simp [Kind.stage, Kind.rank] at * <;> omega) v hv
  · intro hn u hu
    exact absurd hn (by cases k <;> simp [Kind.stage, Kind.rank] at hStage hRank <;> omega)

/-- The steps known to be done after the call of step `n` returned `r`. -/
def reached (n : Nat) (r : OciResult) : Nat := if r = .success then n else 0

theorem Opening.of_success {r : OciResult} (h : Opening c tidy w₀ (reached n r) w)
    (hr : r = .success) : Opening c tidy w₀ n w := by
  rwa [reached, if_pos hr] at h

theorem Opening.zero (h : Opening c tidy w₀ n w) : Opening c tidy w₀ 0 w :=
  h.mono (Nat.zero_le n)

theorem Opening.reach {r : OciResult} (h : Opening c tidy w₀ n w) :
    Opening c tidy w₀ (reached n r) w :=
  h.mono (by unfold reached; split <;> omega)

/-- A step taken only when all went well so far; `P` is what else is known on
either way. -/
theorem wp_andThen_opening {E : OraError → World → Prop} {P : World → Prop} {r : OciResult}
    {call : M OciResult} (h : Opening c tidy w₀ (reached n r) w) (hSkip : P w)
    (hCall : Opening c tidy w₀ n w →
      wp call (fun r' w' => Opening c tidy w₀ (reached m r') w' ∧ P w') E w) :
    wp (r.andThen call) (fun r' w' => Opening c tidy w₀ (reached m r') w' ∧ P w') E w := by
  rw [wp_andThen]
  split
  · rename_i hr
    exact hCall (h.of_success hr)
  · rename_i hr
    rw [reached, if_neg hr]
    exact ⟨h.zero, hSkip⟩

theorem wp_orThrow_opening {Q : OciResult → World → Prop} {E : OraError → World → Prop}
    {r : OciResult} {call failure : M OciResult} (h : Opening c tidy w₀ (reached n r) w)
    (hCall : Opening c tidy w₀ n w → wp call Q E w)
    (hFailure : Opening c tidy w₀ 0 w → wp failure Q E w) :
    wp (r.orThrow call failure) Q E w := by
  rw [wp_orThrow]
  split
  · rename_i hr
    exact hCall (h.of_success hr)
  · exact hFailure h.zero

theorem wp_envCreate_opening {E : OraError → World → Prop} (h : Opening c tidy w₀ 0 w) :
    wp (ociEnvCreate setEnvHandle) (fun r w' => Opening c tidy w₀ (reached 1 r) w') E w := by
  simp only [ociEnvCreate, wp_bind, wp_answer, wp_ite, wp_acquire, wp_modify, wp_pure, reached]
  split
  · exact h.alloc (k := .env) rfl rfl rfl rfl (fun _ hp => by cases hp) (by decide) rfl
  · exact h

/-- `OCIHandleAlloc` as a step of `Open`. -/
theorem wp_handleAlloc_opening {E : OraError → World → Prop} (h : Opening c tidy w₀ n w)
    {k : Kind} {store : Nat → World → World}
    (hStore : ∀ p v, store p v = { v with conn := v.conn.put k (some p) })
    {env : Option Nat} (hEnv : env = w.conn.handle .env)
    (hRank : k.rank < 5) (hStage : k.stage = n + 1) :
    wp (ociHandleAlloc env k store)
      (fun r w' => Opening c tidy w₀ (reached (n + 1) r) w' ∧
        ∀ k', k' ≠ k → w'.conn.handle k' = w.conn.handle k') E w := by
  subst hEnv
  have hPass := h.pass (h.live (k := .env) (by simp))
  simp only [ociHandleAlloc, wp_bind, wp_pass, wp_answer, wp_ite, wp_acquire, wp_modify, wp_pure,
    wp_modifyStmtState, reached, hStore]
  split
  · refine ⟨hPass.alloc rfl rfl rfl rfl ?_ hRank hStage, fun k' hne => ?_⟩
    · intro p hp
      obtain ⟨e, he, rfl⟩ := Option.map_eq_some_iff.mp hp
      have hMem : (⟨.env, e⟩ : Res) ∈ ptr .env (w.conn.handle .env) :=
        List.mem_map.mpr ⟨e, Option.mem_toList.mpr he, rfl⟩
      exact ⟨rfl, fun hrel => h.live (k := .env) (by simp) ⟨.env, e⟩ hMem
        (.inl ((released_uses _).mp hrel))⟩
    · exact (handle_put w.conn hRank _ k').trans (if_neg hne)
  · exact ⟨hPass.zero, fun _ _ => trivial⟩

/-- `OCIAttrSet` as a part of `Open`. -/
theorem wp_attrSet_opening {E : OraError → World → Prop} (h : Opening c tidy w₀ n w)
    (attr : Attr) {rs : List Res} (hLive : ∀ r ∈ rs, ¬ Gone c w.trace r) :
    wp (ociAttrSet attr 0 rs)
      (fun r w' => Opening c tidy w₀ (reached n r) w' ∧ w'.conn = w.conn) E w :=
  ⟨(h.pass hLive).reach, rfl⟩

/-- A step that allocates nothing and does what it is for. -/
theorem Opening.succ (h : Opening c tidy w₀ n w) (hStage : ∀ k : Kind, k.stage ≠ n + 1)
    (hAttached : n = 3 → ∀ s, w.conn.handle .server = some s → w.oci.attached s = true)
    (hBegun : n = 6 → ∀ u, w.conn.handle .session = some u → w.oci.begun u = true)
    (hn : n ≠ 4) : Opening c tidy w₀ (n + 1) w where
  ok := h.ok
  opened := h.opened
  blocking := h.blocking
  upto k hk := h.upto k (Nat.le_of_lt_succ (Nat.lt_of_le_of_ne hk (hStage k)))
  attached hi s hs := by
    by_cases heq : n = 3
    · exact hAttached heq s hs
    · exact h.attached (by omega) s hs
  svc hi := h.svc (by omega)
  begun hi u hu := by
    by_cases heq : n = 6
    · exact hBegun heq u hu
    · exact h.begun (by omega) u hu

theorem wp_serverAttach_opening {E : OraError → World → Prop} (h : Opening c tidy w₀ 3 w) :
    wp (ociServerAttach (w.conn.handle .server) (w.conn.handle .error))
      (fun r w' => Opening c tidy w₀ (reached 4 r) w' ∧ w'.conn = w.conn) E w := by
  have hPass := h.pass (List.forall_mem_append.mpr
    ⟨h.live (k := .server) (by simp), h.live (k := .error) (by simp)⟩)
  simp only [ociServerAttach, wp_bind, wp_pass, wp_answer, wp_ite, wp_modifyOci, wp_pure,
    reached]
  split
  · -- the server is attached, and with `OCI_SUCCESS` the step is done
    rename_i hDone
    refine ⟨?_, trivial⟩
    have hOci : Opening c tidy w₀ 3 { w with
        oci := { w.oci with
          attached := setFlag w.oci.attached (w.conn.handle .server) true }
        trace := (ptr .server (w.conn.handle .server) ++
          ptr .error (w.conn.handle .error)).map .use ++ w.trace } :=
      ⟨hPass.ok, hPass.opened, hPass.blocking, hPass.upto, fun hn => absurd hn (by decide),
        fun hn => absurd hn (by decide), fun hn => absurd hn (by decide)⟩
    split
    · refine hOci.succ (fun k => by cases k <;> decide) (fun _ s hs => ?_)
        (fun hn => absurd hn (by decide)) (by decide)
      have hs : w.conn.handle .server = some s := hs
      simp only [hs, setFlag, Function.update_self]
    · exact hOci.zero
  · rename_i hDone
    rw [if_neg (fun heq => hDone (by rw [heq]; rfl))]
    exact ⟨hPass.zero, trivial⟩

theorem wp_sessionBegin_opening {E : OraError → World → Prop} (h : Opening c tidy w₀ 6 w) :
    wp (ociSessionBegin (w.conn.handle .svcctx) (w.conn.handle .error) (w.conn.handle .session))
      (fun r w' => Opening c tidy w₀ (reached 7 r) w' ∧ w'.conn = w.conn) E w := by
  have hPass := h.pass
    (List.forall_mem_append.mpr ⟨List.forall_mem_append.mpr
      ⟨h.live (k := .svcctx) (by simp), h.live (k := .error) (by simp)⟩,
      h.live (k := .session) (by simp)⟩)
  simp only [ociSessionBegin, wp_bind, wp_pass, wp_answer, wp_ite, wp_modifyOci, wp_pure,
    reached]
  split
  · rename_i hDone
    refine ⟨?_, trivial⟩
    have hOci : Opening c tidy w₀ 6 { w with
        oci := { w.oci with begun := setFlag w.oci.begun (w.conn.handle .session) true }
        trace := (ptr .svcctx (w.conn.handle .svcctx) ++
          ptr .error (w.conn.handle .error) ++ ptr .session (w.conn.handle .session)).map .use ++
            w.trace } :=
      ⟨hPass.ok, hPass.opened, hPass.blocking, hPass.upto, hPass.attached, hPass.svc,
        fun hn => absurd hn (by decide)⟩
    split
    · refine hOci.succ (fun k => by cases k <;> decide) (fun hn => absurd hn (by decide))
        (fun _ u hu => ?_) (by decide)
      have hu : w.conn.handle .session = some u := hu
      simp only [hu, setFlag, Function.update_self]
    · exact hOci.zero
  · rename_i hDone
    rw [if_neg (fun heq => hDone (by rw [heq]; rfl))]
    exact ⟨hPass.zero, trivial⟩

/-- A throw in `Open`: `OraError` asks OCI for the details with a live handle. -/
theorem wp_throwOnError_opening {α : Type} {Q : α → World → Prop} (h : Opening c tidy w₀ n w)
    (r : OciResult) (f : Option TString) :
    wp (throwOnError r (w.conn.handle .error) f : M α) Q
      (fun _ w' => Opening c tidy w₀ n w') w := by
  refine wp_throwOnError fun rs hrs => h.pass ?_
  rcases hrs with rfl | rfl
  · exact h.live (by simp)
  · simp

theorem wp_throwOnEnv_opening {α : Type} {Q : α → World → Prop} (h : Opening c tidy w₀ n w)
    (r : OciResult) (f : Option TString) :
    wp (throwOnEnv r (w.conn.handle .env) f : M α) Q
      (fun _ w' => Opening c tidy w₀ n w') w := by
  refine wp_throwOnEnv fun rs hrs => h.pass ?_
  rcases hrs with rfl | rfl
  · exact h.live (by simp)
  · simp

/-- What a successful `Open` leaves. -/
structure Opened (c : Bool) (tidy : Prop) (args : OpenArgs) (w : World) : Prop where
  ok       : HandlesOk c tidy w.conn w.fresh w.trace
  opened   : w.conn.m_isOpened = true
  blocking : w.conn.m_isBlocking = !args.nonBlockingMode
  live     : ∀ k : Kind, k.rank < 5 → ∃ p, w.conn.handle k = some p ∧ ¬ Gone c w.trace ⟨k, p⟩
  attached : ∀ s, w.conn.handle .server = some s → w.oci.attached s = true
  begun    : ∀ u, w.conn.handle .session = some u → w.oci.begun u = true

theorem Opening.opened_of_done (h : Opening c tidy w₀ 7 w) (args : OpenArgs) :
    Opened c tidy args { w with conn := { w.conn with
      m_isOpened := true
      m_isBlocking := !args.nonBlockingMode } } := by
  have hSame : ∀ k, ({ w.conn with
      m_isOpened := true
      m_isBlocking := !args.nonBlockingMode } : Connection).handle k = w.conn.handle k :=
    fun k => by cases k <;> rfl
  refine ⟨h.ok.flags hSame, rfl, rfl, fun k hk => ?_, h.attached (by decide),
    h.begun (by decide)⟩
  have hStage : k.stage ≤ 7 := by
    cases k <;> first | decide | exact absurd hk (by decide)
  obtain ⟨p, hp⟩ := Option.isSome_iff_exists.mp (h.upto k hStage)
  refine ⟨p, (hSame k).trans hp, ?_⟩
  exact h.live (k := k) (fun _ => by decide) _
    (List.mem_map.mpr ⟨p, Option.mem_toList.mpr hp, rfl⟩)

/-- **`Open`**: it either opens the connection or throws and leaves the two
flags as they were; the handle fields stay in order. -/
theorem wp_openWith (h : HandlesOk c tidy w.conn w.fresh w.trace) (args : OpenArgs) :
    wp (Connection.openWith args) (fun _ w' => Opened c tidy args w')
      (fun _ w' => Opening c tidy w 0 w') w := by
  have h₀ : Opening c tidy w 0 w := ⟨h, rfl, rfl,
    fun k hk => by cases k <;> simp [Kind.stage] at hk,
    fun hn => absurd hn (by decide), fun hn => absurd hn (by decide),
    fun hn => absurd hn (by decide)⟩
  unfold Connection.openWith
  -- environment
  rw [wp_bind]
  refine wp_mono (wp_envCreate_opening h₀) (fun r₁ w₁ h₁ => ?_) (fun _ _ h => h)
  -- server
  rw [wp_bind, wp_get, wp_bind]
  refine wp_orThrow_opening h₁ (fun h₁ => ?_) (fun h => h)
  refine wp_mono (wp_handleAlloc_opening h₁ (fun _ _ => rfl) rfl (by decide) rfl)
    (fun r₂ w₂ ⟨h₂, hSame⟩ => ?_) (fun _ _ h => h)
  -- error
  rw [wp_bind]
  refine wp_mono (wp_andThen_opening (P := fun _ => True) (m := 3) h₂ trivial fun h₂ =>
    wp_mono (wp_handleAlloc_opening h₂ (fun _ _ => rfl) (hSame .env (by decide)).symm
      (by decide) rfl) (fun _ _ h => ⟨h.1, trivial⟩) (fun _ _ h => h))
    (fun r₃ w₃ ⟨h₃, _⟩ => ?_) (fun _ _ h => h)
  -- attach
  rw [wp_bind, wp_get, wp_bind]
  refine wp_orThrow_opening h₃ (fun h₃ => ?_) (fun h => wp_throwOnEnv_opening h r₃ none)
  refine wp_mono (wp_serverAttach_opening h₃) (fun r₄ w₄ ⟨h₄, hConn⟩ => ?_) (fun _ _ h => h)
  -- service context
  rw [wp_bind, ← hConn]
  refine wp_orThrow_opening h₄ (fun h₄ => ?_) (fun h => wp_throwOnError_opening h r₄ none)
  refine wp_mono (wp_handleAlloc_opening h₄ (fun _ _ => rfl) rfl (by decide) rfl)
    (fun r₅ w₅ ⟨h₅, _⟩ => ?_) (fun _ _ h => h)
  -- server attribute
  rw [wp_bind, wp_get, wp_bind]
  refine wp_orThrow_opening h₅ (fun h₅ => ?_) (fun h => wp_throwOnEnv_opening h r₅ none)
  refine wp_mono (wp_attrSet_opening h₅ .server ?_) (fun r₆ w₆ ⟨h₆, hConn⟩ => ?_)
    (fun _ _ h => h)
  · exact List.forall_mem_append.mpr ⟨List.forall_mem_append.mpr
      ⟨h₅.live (k := .svcctx) (by simp), h₅.live (k := .server) (by simp)⟩,
      h₅.live (k := .error) (by simp)⟩
  -- session
  rw [wp_bind, ← hConn]
  refine wp_orThrow_opening h₆ (fun h₆ => ?_) (fun h => wp_throwOnError_opening h r₆ none)
  refine wp_mono (wp_handleAlloc_opening h₆ (fun _ _ => rfl) rfl (by decide) rfl)
    (fun r₇ w₇ ⟨h₇, _⟩ => ?_) (fun _ _ h => h)
  -- user name
  rw [wp_bind, wp_get, wp_bind]
  refine wp_orThrow_opening h₇ (fun h₇ => ?_) (fun h => wp_throwOnEnv_opening h r₇ none)
  refine wp_mono (Q := fun r w' => Opening c tidy w (reached 6 r) w' ∧ w'.conn = w₇.conn) ?_
    (fun r₈ w₈ ⟨h₈, hConn⟩ => ?_) (fun _ _ h => h)
  · rw [wp_ite]
    split
    · exact wp_attrSet_opening h₇ .username (List.forall_mem_append.mpr
        ⟨h₇.live (k := .session) (by simp), h₇.live (k := .error) (by simp)⟩)
    · exact ⟨h₇.reach, rfl⟩
  -- password
  rw [wp_bind, ← hConn]
  refine wp_mono (wp_andThen_opening (P := fun w' => w'.conn = w₈.conn) (m := 6) h₈ rfl
    fun h₈ => ?_) (fun r₉ w₉ ⟨h₉, hConn⟩ => ?_) (fun _ _ h => h)
  · rw [wp_ite]
    split
    · exact wp_attrSet_opening h₈ .password (List.forall_mem_append.mpr
        ⟨h₈.live (k := .session) (by simp), h₈.live (k := .error) (by simp)⟩)
    · exact ⟨h₈.reach, rfl⟩
  -- session start
  rw [wp_bind, ← hConn]
  refine wp_mono (wp_andThen_opening (P := fun w' => w'.conn = w₉.conn) (m := 7) h₉ rfl
    fun h₉ => wp_sessionBegin_opening h₉) (fun r₁₀ w₁₀ ⟨h₁₀, hConn⟩ => ?_) (fun _ _ h => h)
  -- session attribute
  rw [wp_bind, ← hConn]
  refine wp_mono (wp_andThen_opening (P := fun w' => w'.conn = w₁₀.conn) (m := 7) h₁₀ rfl
    fun h₁₀ => wp_attrSet_opening h₁₀ .session (List.forall_mem_append.mpr
      ⟨List.forall_mem_append.mpr
        ⟨h₁₀.live (k := .svcctx) (by simp), h₁₀.live (k := .session) (by simp)⟩,
      h₁₀.live (k := .error) (by simp)⟩)) (fun r₁₁ w₁₁ ⟨h₁₁, hConn⟩ => ?_) (fun _ _ h => h)
  -- non-blocking mode
  rw [wp_bind, ← hConn]
  refine wp_mono (Q := fun r w' => Opening c tidy w (reached 7 r) w' ∧ w'.conn = w₁₁.conn) ?_
    (fun r₁₂ w₁₂ ⟨h₁₂, hConn⟩ => ?_) (fun _ _ h => h)
  · rw [wp_ite]
    split
    · rename_i hMode
      have h₁₁ := h₁₁.of_success hMode.1
      exact wp_attrSet_opening h₁₁ .nonblockingMode (List.forall_mem_append.mpr
        ⟨h₁₁.live (k := .server) (by simp), h₁₁.live (k := .error) (by simp)⟩)
    · exact ⟨h₁₁, rfl⟩
  -- flags
  rw [wp_ite, ← hConn]
  split
  · rename_i hr
    exact (h₁₂.of_success hr).opened_of_done args
  · exact wp_throwOnError_opening h₁₂.zero r₁₂ none

end Epol
