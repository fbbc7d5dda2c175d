import EpOraLibrary.Connection.Handles

/-!
# EpOraLibrary — what `Close` does to the handles

`Close` clears a handle field one step after it freed the handle, inside the
guard of the next handle. `Closing` is the invariant of the chain.

* `wp_releaseHandles` — whatever the outcomes, what `Close` does to the handles
  keeps `HandlesOk`; the service context stays tidy unless this `Close` strands it.
-/

namespace Epol

open Ledger Prog

variable {c : Bool} {tidy keep : Prop} {conn : Connection} {w : World} {n : Nat} {r : OciResult}

/-- This `Close` frees the service context and leaves the field pointing to
it: no session handle is there in whose guard the field would be cleared. -/
def World.Strands (w : World) : Prop :=
  w.conn.m_sessionHandle = none ∧
    (w.conn.m_errorHandle.isSome → w.outcome .serverDetach = .success) ∧
    ∃ v, w.conn.m_svcContextHandle = some v ∧ w.outcome (.handleFree ⟨.svcctx, v⟩) = .success

instance : Decidable w.Strands :=
  inferInstanceAs (Decidable (_ ∧ _ ∧ ∃ v ∈ w.conn.m_svcContextHandle, _))

/-- The state of a `Close` before it frees the handle of rank `n`, `r` being
the result so far. While all goes well the handles of lower rank are freed, and
all but the last of them cleared. -/
structure Closing (c : Bool) (tidy keep : Prop) (n : Nat) (r : OciResult) (w : World) : Prop where
  acquired : ∀ {k q}, .acquire k q ∈ w.trace → k.id < w.fresh
  parent   : ∀ {k p}, .acquire k (some p) ∈ w.trace → p.kind = .env ∨ p.kind = .stmt
  released : ∀ {k}, Released w.trace k → k.id < w.fresh
  owned    : ∀ {k h}, w.conn.handle k = some h → h < w.fresh
  order    : ∀ {k}, (w.conn.handle k).isSome → (w.conn.handle k.base).isSome
  cleared  : r = .success → ∀ k, k.rank + 1 < n → (k = .svcctx → keep) → w.conn.handle k = none
  live     : ∀ {k h}, w.conn.handle k = some h → (r = .success → n ≤ k.rank) →
    (k = .svcctx → keep ∨ w.conn.m_sessionHandle.isSome) → ¬ Gone c w.trace ⟨k, h⟩
  kept     : keep → r = .success → n ≤ 1 →
    w.conn.m_sessionHandle = none → ∀ v, w.conn.m_svcContextHandle = some v →
      n = 0 ∧ w.outcome (.handleFree ⟨.svcctx, v⟩) ≠ .success
  untouched : tidy → n = 0 → ∀ v, w.conn.m_svcContextHandle = some v →
    ¬ Gone c w.trace ⟨.svcctx, v⟩
  safe     : tidy → Safe c w.trace

/-- The kind whose field a free step clears first. -/
def Kind.prev : Kind → Kind
  | .session => .svcctx
  | .error => .session
  | .server => .error
  | .env => .server
  | k => k

theorem prev_rank {k : Kind} (hk : k.rank < 5) (h0 : k ≠ .svcctx) : k.prev.rank + 1 = k.rank := by
  cases k <;> first | rfl | exact absurd rfl h0 | exact absurd hk (by decide)

theorem rank_inj {k k' : Kind} (hk : k.rank < 5) (h : k'.rank = k.rank) : k' = k := by
  cases k <;> first | (cases k' <;> first | rfl | exact absurd h (by decide))
                    | exact absurd hk (by decide)

/-- The handle freed one step earlier, the service context apart, was
allocated after this one. -/
theorem base_eq_of_rank {k k' : Kind} (hk : k.rank < 5) (h : k'.rank + 1 = k.rank)
    (hne : k' ≠ .svcctx) : k'.base = k := by
  cases k' <;> first
    | exact absurd rfl hne
    | exact (rank_inj (by decide) h.symm).symm
    | exact absurd (h ▸ hk) (by decide)

/-- Nothing but the handles freed before depends on the field being cleared. -/
theorem rank_lt_of_base {k k' : Kind} (hk : k.rank < 5) (hBase : k'.base = k.prev)
    (hne : k' ≠ k.prev) : k'.rank + 1 < k.rank := by
  cases k <;> cases k' <;> first
    | exact absurd hBase (by decide)
    | exact absurd rfl hne
    | exact absurd hk (by decide)
    | decide

/-- A step of the chain that is not taken, since an earlier one failed. -/
theorem Closing.skip (h : Closing c tidy keep n r w) (hr : r ≠ .success) :
    Closing c tidy keep (n + 1) r w where
  acquired := h.acquired
  parent := h.parent
  released := h.released
  owned := h.owned
  order := h.order
  cleared hs := absurd hs hr
  live hh _ hsvc := h.live hh (fun hs => absurd hs hr) hsvc
  kept _ hs := absurd hs hr
  untouched _ hn := absurd hn (Nat.succ_ne_zero n)
  safe := h.safe

/-- A step of the chain without a handle to free: nothing is left behind to
clear, since the handles allocated after it are not there either. -/
theorem Closing.absent (h : Closing c tidy keep n r w) {k : Kind} (hRank : k.rank = n)
    (hn : n < 5) (hNone : w.conn.handle k = none) : Closing c tidy keep (n + 1) r w where
  acquired := h.acquired
  parent := h.parent
  released := h.released
  owned := h.owned
  order := h.order
  cleared hr k' hk' hsvc := by
    by_cases hlt : k'.rank + 1 < n
    · exact h.cleared hr k' hlt hsvc
    · have hk'' : k'.rank + 1 = k.rank := by omega
      by_cases hkeep : k' = .svcctx
      · subst hkeep
        have hSession : k = .session := rank_inj (k := .session) (by decide) hk''.symm
        subst hSession
        refine Option.eq_none_iff_forall_ne_some.mpr fun v hv => ?_
        have := (h.kept (hsvc rfl) hr (by simp [← hRank, Kind.rank]) hNone v hv).1
        simp [← hRank, Kind.rank] at this
      · have hBase : k'.base = k := base_eq_of_rank (hRank ▸ hn) hk'' hkeep
        refine Option.not_isSome_iff_eq_none.mp fun hSome => ?_
        have := h.order hSome
        rw [hBase, hNone] at this
        cases this
  live hh hk hsvc := h.live hh (fun hr => Nat.le_of_succ_le (hk hr)) hsvc
  kept hkeep hr hn1 _ v hv := by
    have hk : k = .svcctx := rank_inj (k := .svcctx) (by decide)
      (hRank.trans (by simp [Kind.rank]; omega))
    subst hk
    rw [show w.conn.handle .svcctx = w.conn.m_svcContextHandle from rfl, hv] at hNone
    cases hNone
  untouched _ hn := absurd hn (Nat.succ_ne_zero n)
  safe := h.safe

section Free

variable {k k' : Kind} {p q : Nat} {conn' : Connection}

theorem handle_old
    (hConn : ∀ k', conn'.handle k' = if k' = k.prev ∧ k ≠ .svcctx then none else conn.handle k')
    (hq : conn'.handle k' = some q) : conn.handle k' = some q := by
  rw [hConn] at hq
  split at hq
  · cases hq
  · exact hq

variable (h : Closing c tidy keep n .success w) (hRank : k.rank = n) (hn : n < 5)
  (hConn : ∀ k', conn'.handle k' = if k' = k.prev ∧ k ≠ .svcctx then none else w.conn.handle k')
include h hRank hn hConn

/-- The fields of the handles of lower rank are cleared. -/
theorem Closing.cleared_next (hk' : k'.rank < n)
    (hsvc : k'.rank + 1 < n → k' = .svcctx → keep) : conn'.handle k' = none := by
  rw [hConn]
  split
  · rfl
  · rename_i hPrev
    by_cases hlt : k'.rank + 1 < n
    · exact h.cleared rfl k' hlt (hsvc hlt)
    · have h0 : k ≠ .svcctx := fun heq => by
        rw [heq] at hRank
        simp only [Kind.rank] at hRank
        omega
      have hPrevRank := prev_rank (hRank ▸ hn) h0
      exact absurd ⟨rank_inj (by omega) (by omega), h0⟩ hPrev

/-- Where the session handle is still there, the chain has just begun. -/
theorem Closing.session_left (hSession : conn'.m_sessionHandle.isSome) :
    n < 2 ∧ w.conn.m_sessionHandle.isSome := by
  obtain ⟨u, hu⟩ := Option.isSome_iff_exists.mp hSession
  have hu : conn'.handle .session = some u := hu
  have hOld : w.conn.handle .session = some u := handle_old hConn hu
  refine ⟨Nat.lt_of_not_le fun hn2 => ?_, Option.isSome_iff_exists.mpr ⟨u, hOld⟩⟩
  have hNone : conn'.handle .session = none :=
    h.cleared_next hRank hn hConn hn2 fun _ heq => by cases heq
  rw [hu] at hNone
  cases hNone

/-- What is left was not freed, and no handle is a child of the freed one. -/
theorem Closing.live_next (hq : conn'.handle k' = some q) (hle : r = .success → n + 1 ≤ k'.rank)
    (hsvc : k' = .svcctx → keep ∨ conn'.m_sessionHandle.isSome) :
    ¬ Gone c (.release ⟨k, p⟩ (r = .success) :: .use ⟨k, p⟩ :: w.trace) ⟨k', q⟩ := by
  have hOld : w.conn.handle k' = some q := handle_old hConn hq
  have hLive : n ≤ k'.rank → ¬ Gone c w.trace ⟨k', q⟩ := fun hle =>
    h.live hOld (fun _ => hle) fun heq =>
      (hsvc heq).imp id fun hs => (h.session_left hRank hn hConn hs).2
  by_cases hs : r = .success
  · have hle := hle hs
    rw [decide_eq_true hs, gone_release_done]
    rintro (heq | ⟨-, hm⟩ | hg)
    · injection heq with heq _
      rw [heq] at hle
      omega
    · have hlt := handle_rank hOld
      rcases h.parent (by simpa using hm) with hkind | hkind
      · simp only at hkind
        rw [hkind] at hRank
        simp only [Kind.rank] at hRank
        omega
      · simp only at hkind
        rw [hkind] at hRank
        simp only [Kind.rank] at hRank
        omega
    · exact hLive (Nat.le_of_succ_le hle) (gone_use.mp hg)
  · rw [decide_eq_false hs, gone_release_failed, gone_use]
    refine hLive (Nat.le_of_not_lt fun hlt => ?_)
    -- a handle freed before is still there only as the cleared field
    have hNone := h.cleared_next hRank hn hConn hlt fun hlt' heq =>
      (hsvc heq).resolve_right fun hsome => by
        have := (h.session_left hRank hn hConn hsome).1
        omega
    rw [hNone] at hq
    cases hq

/-- A handle is allocated before those that need it. -/
theorem Closing.order_next (hSome : (conn'.handle k').isSome) :
    (conn'.handle k'.base).isSome := by
  rw [hConn] at hSome ⊢
  split at hSome
  · cases hSome
  · rename_i hPrev
    split
    · rename_i hBase
      have hlt := rank_lt_of_base (hRank ▸ hn) hBase.1 fun heq => hPrev ⟨heq, hBase.2⟩
      refine absurd (h.cleared rfl k' (hRank ▸ hlt) fun heq => ?_)
        (Option.isSome_iff_ne_none.mp hSome)
      subst heq
      exact absurd ⟨hBase.1, hBase.2⟩ hPrev
    · exact h.order hSome

/-- The step of the chain that frees the handle of rank `n`. -/
theorem Closing.free (hSome : w.conn.handle k = some p) :
    Closing c tidy keep (n + 1) (w.outcome (.handleFree ⟨k, p⟩))
      { w with
        conn := conn'
        trace := .release ⟨k, p⟩ (w.outcome (.handleFree ⟨k, p⟩) = .success) ::
          .use ⟨k, p⟩ :: w.trace } where
  acquired hm := h.acquired (by simpa using hm)
  parent hm := h.parent (by simpa using hm)
  released hx := by
    rw [released_release, released_use] at hx
    obtain ⟨rfl, -⟩ | hx := hx
    · exact h.owned hSome
    · exact h.released hx
  owned hh := h.owned (handle_old hConn hh)
  order := h.order_next hRank hn hConn
  cleared _ k' hk' hsvc :=
    h.cleared_next hRank hn hConn (Nat.lt_of_succ_lt_succ hk') fun _ => hsvc
  live hq hle hsvc := h.live_next hRank hn hConn hq hle hsvc
  kept hkeep hs hn1 hNone v hv := by
    have hsvc : k = .svcctx :=
      rank_inj (k := .svcctx) (by decide) (hRank.trans (by simp [Kind.rank]; omega))
    subst hsvc
    have hSame : ∀ k', conn'.handle k' = w.conn.handle k' := fun k' => by
      rw [hConn, if_neg fun hh => hh.2 rfl]
    have hv' : w.conn.m_svcContextHandle = some v := (hSame .svcctx).symm.trans hv
    have hp : w.conn.m_svcContextHandle = some p := hSome
    obtain rfl : v = p := Option.some.inj (hv'.symm.trans hp)
    exact absurd hs (h.kept hkeep rfl (by omega) ((hSame .session).symm.trans hNone) v hv').2
  untouched _ hn := absurd hn (Nat.succ_ne_zero n)
  safe ht := by
    refine ⟨fun hGone => ?_, h.safe ht⟩
    by_cases hsvc : k = .svcctx
    · subst hsvc
      exact h.untouched ht hRank.symm p hSome hGone
    · exact h.live hSome (fun _ => hRank.ge) (fun heq => absurd heq hsvc) hGone

end Free

-- ---------------------------------------------------------------------------
-- The part before the frees
-- ---------------------------------------------------------------------------

/-- `Close` talks to the session and the server at all. -/
def World.Talks (w : World) : Prop :=
  w.conn.m_svcContextHandle.isSome ∧ w.conn.m_errorHandle.isSome

instance : Decidable w.Talks := inferInstanceAs (Decidable (_ ∧ _))

/-- The result with which the frees begin. -/
def World.sessionResult (w : World) : OciResult :=
  if w.Talks then
    if w.conn.m_sessionHandle.isSome ∧ w.outcome .sessionEnd ≠ .success then
      w.outcome .sessionEnd
    else w.outcome .serverDetach
  else .success

/-- What the part of `Close` before the frees does. -/
structure SessionClosed (w : World) (r : OciResult) (w' : World) : Prop where
  result   : r = w.sessionResult
  conn     : w'.conn = w.conn
  outcome  : w'.outcome = w.outcome
  fresh    : w'.fresh = w.fresh
  trace    : ∃ rs : List Res, w'.trace = rs.map .use ++ w.trace ∧
    ∀ x ∈ rs, w.conn.handle x.kind = some x.id
  begun    : w'.oci.begun =
    if w.Talks ∧ w.conn.m_sessionHandle.isSome ∧ (w.outcome .sessionEnd).done then
      setFlag w.oci.begun w.conn.m_sessionHandle false
    else w.oci.begun
  attached : w'.oci.attached =
    if w.Talks ∧ (w.conn.m_sessionHandle.isSome → w.outcome .sessionEnd = .success) ∧
        (w.outcome .serverDetach).done then
      setFlag w.oci.attached w.conn.m_serverHandle false
    else w.oci.attached

theorem handle_of_mem_ptr {conn : Connection} {k : Kind} {x : Res}
    (hx : x ∈ ptr k (conn.handle k)) : conn.handle x.kind = some x.id := by
  obtain ⟨p, hp, rfl⟩ := List.mem_map.mp hx
  exact Option.mem_toList.mp hp

/-- The calls of one step that are handed handle fields only. -/
theorem exists_uses {rs : List Res} {t t' : Trace Res}
    (h : ∃ rs' : List Res, t' = rs'.map .use ++ t ∧ ∀ x ∈ rs', conn.handle x.kind = some x.id)
    (hrs : ∀ x ∈ rs, conn.handle x.kind = some x.id) :
    ∃ rs' : List Res, rs.map .use ++ t' = rs'.map .use ++ t ∧
      ∀ x ∈ rs', conn.handle x.kind = some x.id := by
  obtain ⟨rs', rfl, hrs'⟩ := h
  exact ⟨rs ++ rs', by rw [List.map_append, List.append_assoc],
    List.forall_mem_append.mpr ⟨hrs, hrs'⟩⟩

/-- `OCIServerDetach` detaches the server when it does its work. -/
theorem wp_ociServerDetach {Q : OciResult → World → Prop} {E : OraError → World → Prop}
    (server error : Option Nat)
    (h : Q (w.outcome .serverDetach) { w with
      oci := { w.oci with
        attached := if (w.outcome .serverDetach).done then setFlag w.oci.attached server false
          else w.oci.attached }
      trace := (ptr .server server ++ ptr .error error).map .use ++ w.trace }) :
    wp (ociServerDetach server error) Q E w := by
  simp only [ociServerDetach, wp_bind, wp_pass, wp_answer, wp_ite, wp_modifyOci, wp_pure]
  split
  · rename_i hDone
    rw [if_pos hDone] at h
    exact h
  · rename_i hDone
    rw [if_neg hDone] at h
    exact h

/-- `OCISessionEnd` ends the session when it does its work. -/
theorem wp_ociSessionEnd {Q : OciResult → World → Prop} {E : OraError → World → Prop}
    (svcContext error session : Option Nat)
    (h : Q (w.outcome .sessionEnd) { w with
      oci := { w.oci with
        begun := if (w.outcome .sessionEnd).done then setFlag w.oci.begun session false
          else w.oci.begun }
      trace := (ptr .svcctx svcContext ++ ptr .error error ++ ptr .session session).map .use ++
        w.trace }) :
    wp (ociSessionEnd svcContext error session) Q E w := by
  simp only [ociSessionEnd, wp_bind, wp_pass, wp_answer, wp_ite, wp_modifyOci, wp_pure]
  split
  · rename_i hDone
    rw [if_pos hDone] at h
    exact h
  · rename_i hDone
    rw [if_neg hDone] at h
    exact h

/-- The end of the session and the detach, after calls that were handed handle
fields only. -/
theorem wp_endSession {E : OraError → World → Prop} {t : Trace Res}
    (ht : ∃ rs : List Res, t = rs.map .use ++ w.trace ∧
      ∀ x ∈ rs, w.conn.handle x.kind = some x.id) :
    wp (if w.conn.m_svcContextHandle.isSome = true ∧ w.conn.m_errorHandle.isSome = true then do
          let result ← if w.conn.m_sessionHandle.isSome = true then
              ociSessionEnd w.conn.m_svcContextHandle w.conn.m_errorHandle w.conn.m_sessionHandle
            else pure .success
          result.andThen (ociServerDetach w.conn.m_serverHandle w.conn.m_errorHandle)
        else pure .success)
      (SessionClosed w) E { w with trace := t } := by
  have hServer : ∀ x ∈ ptr .server w.conn.m_serverHandle ++ ptr .error w.conn.m_errorHandle,
      w.conn.handle x.kind = some x.id :=
    List.forall_mem_append.mpr ⟨fun _ => handle_of_mem_ptr (k := .server),
      fun _ => handle_of_mem_ptr (k := .error)⟩
  have hSession : ∀ x ∈ ptr .svcctx w.conn.m_svcContextHandle ++
      ptr .error w.conn.m_errorHandle ++ ptr .session w.conn.m_sessionHandle,
      w.conn.handle x.kind = some x.id :=
    List.forall_mem_append.mpr ⟨List.forall_mem_append.mpr
      ⟨fun _ => handle_of_mem_ptr (k := .svcctx), fun _ => handle_of_mem_ptr (k := .error)⟩,
      fun _ => handle_of_mem_ptr (k := .session)⟩
  rw [wp_ite]
  split
  · rename_i hTalks
    have hTalks : w.Talks := hTalks
    dsimp only
    rw [wp_ite]
    split
    · -- there is a session to end, and the detach follows when that succeeds
      rename_i hSome
      rw [wp_bind]
      refine wp_ociSessionEnd _ _ _ ?_
      rw [wp_andThen]
      split
      · rename_i hEnd
        have hEnd : w.outcome .sessionEnd = .success := hEnd
        refine wp_ociServerDetach _ _ ⟨?_, rfl, rfl, rfl, exists_uses (exists_uses ht hSession)
          hServer, ?_, ?_⟩
        · simp [World.sessionResult, hTalks, hEnd]
        · simp [hTalks, hSome, hEnd, OciResult.done]
        · simp [hTalks, hEnd]
      · rename_i hEnd
        have hEnd : w.outcome .sessionEnd ≠ .success := hEnd
        refine ⟨?_, rfl, rfl, rfl, exists_uses ht hSession, ?_, ?_⟩
        · simp [World.sessionResult, hTalks, hSome, hEnd]
        · simp [hTalks, hSome]
        · simp [hSome, hEnd]
    · rename_i hNone
      rw [wp_bind, wp_pure, wp_andThen, if_pos rfl]
      refine wp_ociServerDetach _ _ ⟨?_, rfl, rfl, rfl, exists_uses ht hServer, ?_, ?_⟩
      · simp [World.sessionResult, hTalks, hNone]
      · simp [hNone]
      · simp [hTalks, hNone]
  · rename_i hTalks
    have hTalks : ¬ w.Talks := hTalks
    refine ⟨?_, rfl, rfl, rfl, ht, ?_, ?_⟩
    · simp [World.sessionResult, hTalks]
    · simp [hTalks]
    · simp [hTalks]

theorem wp_closeSession {E : OraError → World → Prop} :
    wp Connection.closeSession (SessionClosed w) E w := by
  have hServer : ∀ x ∈ ptr .server w.conn.m_serverHandle ++ ptr .error w.conn.m_errorHandle,
      w.conn.handle x.kind = some x.id :=
    List.forall_mem_append.mpr ⟨fun _ => handle_of_mem_ptr (k := .server),
      fun _ => handle_of_mem_ptr (k := .error)⟩
  rw [Connection.closeSession, wp_bind, wp_get]
  dsimp only
  rw [wp_ite]
  split
  · rw [wp_bind, ociAttrSet, wp_bind, wp_pass, wp_answer]
    exact wp_endSession (exists_uses ⟨[], rfl, fun x hx => nomatch hx⟩ hServer)
  · exact wp_endSession ⟨[], rfl, fun x hx => nomatch hx⟩

-- ---------------------------------------------------------------------------
-- The chain of frees
-- ---------------------------------------------------------------------------

theorem wp_freeStep {Q : OciResult → World → Prop} {E : OraError → World → Prop} {k : Kind}
    {handle : Connection → Option Nat} {before : Connection → Connection}
    (hFree : ∀ p, handle w.conn = some p → r = .success →
      Q (w.outcome (.handleFree ⟨k, p⟩)) { w with
        conn := before w.conn
        trace := .release ⟨k, p⟩ (w.outcome (.handleFree ⟨k, p⟩) = .success) ::
          .use ⟨k, p⟩ :: w.trace })
    (hAbsent : handle w.conn = none → Q r w)
    (hSkip : r ≠ .success → Q r w) :
    wp (Connection.freeStep k handle before r) Q E w := by
  rw [Connection.freeStep, wp_bind, wp_get]
  dsimp only
  split
  · rename_i p hHandle
    rw [wp_ite]
    split
    · rename_i hr
      exact hFree p hHandle hr
    · rename_i hr
      exact hSkip hr
  · rename_i hHandle
    exact hAbsent hHandle

/-- What the chain of frees that started in `w₀` with the result `r₀` has done
before it frees the handle of rank `n`, `r` being the result so far. -/
structure Releasing (w₀ : World) (r₀ : OciResult) (n : Nat) (r : OciResult) (w : World) :
    Prop where
  outcome  : w.outcome = w₀.outcome
  oci      : w.oci = w₀.oci
  opened   : w.conn.m_isOpened = w₀.conn.m_isOpened
  blocking : w.conn.m_isBlocking = w₀.conn.m_isBlocking
  ahead    : ∀ k : Kind, n ≤ k.rank → w.conn.handle k = w₀.conn.handle k
  shrunk   : ∀ {k p}, w.conn.handle k = some p → w₀.conn.handle k = some p
  acquired : ∀ x q, .acquire x q ∈ w.trace ↔ .acquire x q ∈ w₀.trace
  released : ∀ x, Released w.trace x →
    Released w₀.trace x ∨ w₀.conn.handle x.kind = some x.id
  freed    : r = .success → ∀ k p, k.rank < n → w₀.conn.handle k = some p →
    Released w.trace ⟨k, p⟩
  earlier  : ∀ x, Released w₀.trace x → Released w.trace x
  result   : r = .success ↔ r₀ = .success ∧ ∀ k p, k.rank < n → w₀.conn.handle k = some p →
    w₀.outcome (.handleFree ⟨k, p⟩) = .success
  svc      : w.conn.m_svcContextHandle = w₀.conn.m_svcContextHandle ∨
    w₀.conn.m_sessionHandle.isSome ∧ r₀ = .success
  stuck    : r₀ ≠ .success → w = w₀

variable {w₀ : World} {r₀ : OciResult}

theorem Releasing.start : Releasing w₀ r₀ 0 r₀ w₀ where
  outcome := rfl
  oci := rfl
  opened := rfl
  blocking := rfl
  ahead _ _ := rfl
  shrunk h := h
  acquired _ _ := Iff.rfl
  released _ h := .inl h
  freed _ _ _ h := absurd h (Nat.not_lt_zero _)
  earlier _ h := h
  result := ⟨fun h => ⟨h, fun _ _ h => absurd h (Nat.not_lt_zero _)⟩, fun h => h.1⟩
  svc := .inl rfl
  stuck _ := rfl

/-- A step of the chain that frees nothing. -/
theorem Releasing.idle (h : Releasing w₀ r₀ n r w) {k : Kind} (hRank : k.rank = n) (hn : n < 5)
    (hIdle : w.conn.handle k = none ∨ r ≠ .success) : Releasing w₀ r₀ (n + 1) r w := by
  -- as long as all goes well there was no handle of this rank
  have hNone : r = .success → ∀ k' p, k'.rank < n + 1 → w₀.conn.handle k' = some p →
      k'.rank < n := by
    intro hr k' p hk' hp
    refine Nat.lt_of_le_of_ne (Nat.le_of_lt_succ hk') fun heq => ?_
    have hk : k' = k := rank_inj (hRank ▸ hn) (heq.trans hRank.symm)
    rw [hk, ← h.ahead k hRank.ge, hIdle.resolve_right fun hne => hne hr] at hp
    cases hp
  refine ⟨h.outcome, h.oci, h.opened, h.blocking, fun k hk => h.ahead k (Nat.le_of_succ_le hk),
    h.shrunk, h.acquired, h.released, fun hr k' p hk' hp => ?_, h.earlier,
    ⟨fun hr => ?_, fun hr => ?_⟩, h.svc, h.stuck⟩
  · exact h.freed hr k' p (hNone hr k' p hk' hp) hp
  · exact ⟨(h.result.mp hr).1, fun k' p hk' hp =>
      (h.result.mp hr).2 k' p (hNone hr k' p hk' hp) hp⟩
  · exact h.result.mpr ⟨hr.1, fun k' p hk' hp => hr.2 k' p (Nat.lt_succ_of_lt hk') hp⟩

/-- A step of the chain that frees a handle. -/
theorem Releasing.free (h : Releasing w₀ r₀ n .success w) {k : Kind} {p : Nat} {conn : Connection}
    (hRank : k.rank = n) (hn : n < 5) (hSome : w.conn.handle k = some p)
    (hConn : ∀ k', conn.handle k' =
      if k' = k.prev ∧ k ≠ .svcctx then none else w.conn.handle k')
    (hOpened : conn.m_isOpened = w.conn.m_isOpened)
    (hBlocking : conn.m_isBlocking = w.conn.m_isBlocking) :
    Releasing w₀ r₀ (n + 1) (w.outcome (.handleFree ⟨k, p⟩)) { w with
      conn := conn
      trace := .release ⟨k, p⟩ (w.outcome (.handleFree ⟨k, p⟩) = .success) ::
        .use ⟨k, p⟩ :: w.trace } := by
  have hk : k.rank < 5 := hRank ▸ hn
  have hSome₀ : w₀.conn.handle k = some p := (h.ahead k hRank.ge).symm.trans hSome
  have hGood := h.result.mp rfl
  have hLast : ∀ {k' q}, k'.rank < n + 1 → w₀.conn.handle k' = some q →
      k'.rank < n ∨ k' = k ∧ q = p := by
    intro k' q hk' hq
    by_cases hlt : k'.rank < n
    · exact .inl hlt
    · obtain rfl : k' = k := rank_inj hk (by omega)
      exact .inr ⟨rfl, Option.some.inj (hq.symm.trans hSome₀)⟩
  refine ⟨h.outcome, h.oci, hOpened.trans h.opened, hBlocking.trans h.blocking,
    fun k' hk' => ?_, fun {k' q} hq => ?_, fun x q => ?_, fun x hx => ?_,
    fun hr k' q hk' hq => ?_, fun x hx => ?_,
    ⟨fun hr => ⟨hGood.1, fun k' q hk' hq => ?_⟩, fun hr => ?_⟩, ?_, fun hr => ?_⟩
  · rw [hConn, if_neg ?_]
    · exact h.ahead k' (Nat.le_of_succ_le hk')
    · rintro ⟨rfl, h0⟩
      have := prev_rank hk h0
      omega
  · exact h.shrunk (handle_old hConn hq)
  · simpa using h.acquired x q
  · rw [released_release, released_use] at hx
    obtain ⟨rfl, -⟩ | hx := hx
    · exact .inr hSome₀
    · exact h.released x hx
  · rw [released_release, released_use]
    rcases hLast hk' hq with hlt | ⟨rfl, rfl⟩
    · exact .inr (h.freed rfl k' q hlt hq)
    · exact .inl ⟨rfl, decide_eq_true hr⟩
  · exact released_release.mpr (.inr (released_use.mpr (h.earlier x hx)))
  · rcases hLast hk' hq with hlt | ⟨rfl, rfl⟩
    · exact hGood.2 k' q hlt hq
    · exact h.outcome ▸ hr
  · rw [h.outcome]
    exact hr.2 k p (by omega) hSome₀
  · rcases h.svc with hsvc | hsvc
    · by_cases hsession : k = .session
      · refine .inr ⟨?_, hGood.1⟩
        subst hsession
        exact Option.isSome_iff_exists.mpr ⟨p, hSome₀⟩
      · refine .inl (Eq.trans ?_ hsvc)
        have := hConn .svcctx
        rwa [if_neg fun hh => hsession (by
          cases k <;> first | rfl | exact absurd hh.1 (by decide) | exact absurd rfl hh.2)] at this
    · exact .inr hsvc
  · exact absurd hGood.1 hr

/-- **The chain rule.** One step of the chain, for both invariants. -/
theorem wp_freeStep_closing {E : OraError → World → Prop} {k : Kind}
    {handle : Connection → Option Nat} {before : Connection → Connection}
    (hClosing : Closing c tidy keep n r w) (hReleasing : Releasing w₀ r₀ n r w)
    (hRank : k.rank = n) (hn : n < 5) (hHandle : ∀ conn : Connection, handle conn = conn.handle k)
    (hBefore : ∀ k', (before w.conn).handle k' =
      if k' = k.prev ∧ k ≠ .svcctx then none else w.conn.handle k')
    (hOpened : (before w.conn).m_isOpened = w.conn.m_isOpened)
    (hBlocking : (before w.conn).m_isBlocking = w.conn.m_isBlocking) :
    wp (Connection.freeStep k handle before r) (fun r' w' =>
      (Closing c tidy keep (n + 1) r' w' ∧ Releasing w₀ r₀ (n + 1) r' w') ∧
        w'.conn.handle k = w.conn.handle k) E w := by
  refine wp_freeStep (fun p hp hr => ?_) (fun hNone => ?_) (fun hr => ?_)
  · subst hr
    rw [hHandle] at hp
    refine ⟨⟨hClosing.free hRank hn hBefore hp,
      hReleasing.free hRank hn hp hBefore hOpened hBlocking⟩, ?_⟩
    exact (hBefore k).trans (if_neg fun hh => by
      have := prev_rank (hRank ▸ hn) hh.2
      rw [← hh.1] at this
      omega)
  · rw [hHandle] at hNone
    exact ⟨⟨hClosing.absent hRank hn hNone, hReleasing.idle hRank hn (.inl hNone)⟩, rfl⟩
  · exact ⟨⟨hClosing.skip hr, hReleasing.idle hRank hn (.inr hr)⟩, rfl⟩

-- ---------------------------------------------------------------------------
-- Close
-- ---------------------------------------------------------------------------

/-- The chain starts with the invariant of the handles, the service context
being kept tidy where it was live and this `Close` does not strand it. -/
theorem SessionClosed.closing {w' : World} (hs : SessionClosed w r w')
    (h : HandlesOk c tidy w.conn w.fresh w.trace)
    (hKeep : keep → (∀ v, w.conn.m_svcContextHandle = some v → ¬ Gone c w.trace ⟨.svcctx, v⟩) ∧
      ¬ w.Strands) : Closing c tidy keep 0 r w' := by
  obtain ⟨rs, hTrace, hrs⟩ := hs.trace
  refine ⟨?_, ?_, ?_, ?_, ?_, ?_, ?_, ?_, ?_, ?_⟩
  · rw [hTrace, hs.fresh]
    exact fun hm => h.acquired (by simpa using hm)
  · rw [hTrace]
    exact fun hm => h.parent (by simpa using hm)
  · rw [hTrace, hs.fresh]
    exact fun hm => h.released ((released_uses rs).mp hm)
  · rw [hs.conn, hs.fresh]
    exact h.owned
  · rw [hs.conn]
    exact h.order
  · exact fun _ k hk => absurd hk (Nat.not_lt_zero _)
  · intro k p hp _ hsvc
    rw [hs.conn] at hp hsvc
    rw [hTrace, gone_uses]
    by_cases hk : k = .svcctx
    · subst hk
      rcases hsvc rfl with hkeep | hsess
      · exact (hKeep hkeep).1 p hp
      · exact h.live hp fun _ => .inr hsess
    · exact h.live hp fun heq => absurd heq hk
  · intro hkeep hr _ hNone v hv
    rw [hs.conn] at hNone hv
    rw [hs.outcome]
    refine ⟨rfl, fun hFree => (hKeep hkeep).2 ⟨hNone, fun hError => ?_, v, hv, hFree⟩⟩
    -- the frees begin, so the detach went well
    rw [hs.result, World.sessionResult, if_pos ⟨by rw [hv]; rfl, hError⟩, if_neg (by simp [hNone])]
      at hr
    exact hr
  · intro ht _ v hv
    rw [hs.conn] at hv
    rw [hTrace, gone_uses]
    exact h.live (k := .svcctx) hv fun _ => .inl ht
  · intro ht
    rw [hTrace, safe_uses]
    exact ⟨fun x hx => h.live (hrs x hx) fun _ => .inl ht, h.safe ht⟩

/-- What `Close` did before its last `if`, `r` being its result. -/
structure Closed (w : World) (r : OciResult) (w' : World) : Prop where
  outcome  : w'.outcome = w.outcome
  opened   : w'.conn.m_isOpened = w.conn.m_isOpened
  blocking : w'.conn.m_isBlocking = w.conn.m_isBlocking
  shrunk   : ∀ {k p}, w'.conn.handle k = some p → w.conn.handle k = some p
  begun    : w'.oci.begun =
    if w.Talks ∧ w.conn.m_sessionHandle.isSome ∧ (w.outcome .sessionEnd).done then
      setFlag w.oci.begun w.conn.m_sessionHandle false
    else w.oci.begun
  attached : w'.oci.attached =
    if w.Talks ∧ (w.conn.m_sessionHandle.isSome → w.outcome .sessionEnd = .success) ∧
        (w.outcome .serverDetach).done then
      setFlag w.oci.attached w.conn.m_serverHandle false
    else w.oci.attached
  acquired : ∀ x q, .acquire x q ∈ w'.trace ↔ .acquire x q ∈ w.trace
  released : ∀ x, Released w'.trace x → Released w.trace x ∨ w.conn.handle x.kind = some x.id
  earlier  : ∀ x, Released w.trace x → Released w'.trace x
  freed    : r = .success → ∀ k p, w.conn.handle k = some p → Released w'.trace ⟨k, p⟩
  result   : r = .success ↔ w.sessionResult = .success ∧
    ∀ k p, w.conn.handle k = some p → w.outcome (.handleFree ⟨k, p⟩) = .success
  svc      : w'.conn.m_svcContextHandle = w.conn.m_svcContextHandle ∨
    w.conn.m_sessionHandle.isSome ∧ w.sessionResult = .success
  stuck    : w.sessionResult ≠ .success → w'.conn = w.conn ∧
    ∀ x, Released w'.trace x ↔ Released w.trace x

theorem Releasing.closed {w₁ w₂ : World} (h : Releasing w₁ r₀ 5 r w₂)
    (hs : SessionClosed w r₀ w₁) : Closed w r w₂ := by
  obtain ⟨rs, hTrace, -⟩ := hs.trace
  have hReleased : ∀ x, Released w₁.trace x ↔ Released w.trace x := fun x => by
    rw [hTrace, released_uses]
  refine ⟨h.outcome.trans hs.outcome, ?_, ?_, ?_, ?_, ?_, fun x q => ?_, fun x hx => ?_,
    fun x hx => ?_, fun hr k p hp => ?_, ⟨fun hr => ?_, fun hr => ?_⟩, ?_, fun hr => ?_⟩
  · rw [h.opened, hs.conn]
  · rw [h.blocking, hs.conn]
  · exact fun hp => hs.conn ▸ h.shrunk hp
  · rw [h.oci, hs.begun]
  · rw [h.oci, hs.attached]
  · rw [h.acquired, hTrace]
    simp
  · rw [← hReleased, ← hs.conn]
    exact h.released x hx
  · exact h.earlier x ((hReleased x).mpr hx)
  · rw [← hs.conn] at hp
    exact h.freed hr k p (handle_rank hp) hp
  · obtain ⟨hr₀, hAll⟩ := h.result.mp hr
    refine ⟨hs.result ▸ hr₀, fun k p hp => ?_⟩
    rw [← hs.conn] at hp
    rw [← hs.outcome]
    exact hAll k p (handle_rank hp) hp
  · refine h.result.mpr ⟨hs.result.trans hr.1, fun k p _ hp => ?_⟩
    rw [hs.conn] at hp
    rw [hs.outcome]
    exact hr.2 k p hp
  · rw [← hs.result, ← hs.conn]
    exact h.svc
  · have hw := h.stuck (hs.result ▸ hr)
    rw [hw]
    exact ⟨hs.conn, hReleased⟩

/-- The last handle is cleared by a step of its own. -/
theorem Closed.clearEnv {w' : World} (h : Closed w r w') (hr : r = .success) :
    Closed w r { w' with conn := { w'.conn with m_envHandle := none } } where
  outcome := h.outcome
  opened := h.opened
  blocking := h.blocking
  shrunk {k _} hp := by
    refine h.shrunk ?_
    cases k <;> first | exact hp | cases hp
  begun := h.begun
  attached := h.attached
  acquired := h.acquired
  released := h.released
  earlier := h.earlier
  freed := h.freed
  result := h.result
  svc := h.svc
  stuck hne := absurd (h.result.mp hr).1 hne

/-- The invariant at the end of the chain, the environment handle cleared when
all went well. -/
theorem Closing.finish (h : Closing c tidy keep 5 r w)
    (hConn : ∀ k, conn.handle k = if k = .env ∧ r = .success then none else w.conn.handle k) :
    HandlesOk c (keep ∧ tidy) conn w.fresh w.trace ∧
      (r = .success → ∀ k, (k = .svcctx → keep) → conn.handle k = none) := by
  have hNone : r = .success → ∀ k, (k = .svcctx → keep) → conn.handle k = none := by
    intro hr k hk
    rw [hConn]
    split
    · rfl
    · rename_i hne
      cases hk' : w.conn.handle k with
      | none => rfl
      | some p =>
        have hRank := handle_rank hk'
        have hk4 : k.rank + 1 < 5 := by
          refine Nat.lt_of_le_of_ne hRank fun heq => hne ⟨?_, hr⟩
          exact rank_inj (k := .env) (by decide) (Nat.succ_injective heq)
        rw [h.cleared hr k hk4 hk] at hk'
        cases hk'
  have hOld : ∀ {k q}, conn.handle k = some q → w.conn.handle k = some q := by
    intro k q hq
    rw [hConn] at hq
    split at hq
    · cases hq
    · exact hq
  refine ⟨⟨h.acquired, h.parent, h.released, fun hh => h.owned (hOld hh), fun {k} hk => ?_,
    fun {k p} hp hsvc => ?_, fun ht => h.safe ht.2⟩, hNone⟩
  · by_cases hr : r = .success
    · by_cases hk' : k = .svcctx
      · subst hk'
        exact hk
      · rw [hNone hr k fun heq => absurd heq hk'] at hk
        cases hk
    · rw [hConn, if_neg fun hh => hr hh.2] at hk ⊢
      exact h.order hk
  · have hSess : conn.m_sessionHandle.isSome → w.conn.m_sessionHandle.isSome := by
      intro hs
      obtain ⟨u, hu⟩ := Option.isSome_iff_exists.mp hs
      exact Option.isSome_iff_exists.mpr ⟨u, hOld (k := .session) hu⟩
    refine h.live (hOld hp) (fun hr => ?_) fun hk => (hsvc hk).imp And.left hSess
    by_cases hk : k = .svcctx
    · rcases hsvc hk with hkeep | hs
      · rw [hNone hr k fun _ => hkeep.1] at hp
        cases hp
      · have : conn.m_sessionHandle = none := hNone hr .session fun heq => by cases heq
        rw [this] at hs
        cases hs
    · rw [hNone hr k fun heq => absurd heq hk] at hp
      cases hp

/-- **`Close` up to the flags.** -/
theorem wp_releaseHandles {E : OraError → World → Prop}
    (h : HandlesOk c tidy w.conn w.fresh w.trace)
    (hKeep : keep → (∀ v, w.conn.m_svcContextHandle = some v → ¬ Gone c w.trace ⟨.svcctx, v⟩) ∧
      ¬ w.Strands) :
    wp Connection.releaseHandles (fun r w' =>
      (HandlesOk c (keep ∧ tidy) w'.conn w'.fresh w'.trace ∧
        (r = .success → ∀ k, (k = .svcctx → keep) → w'.conn.handle k = none)) ∧
        (tidy → Safe c w'.trace) ∧ Closed w r w') E w := by
  rw [Connection.releaseHandles, wp_bind]
  refine wp_mono wp_closeSession (fun r₀ w₀ hs => ?_) (fun _ _ h => h)
  rw [wp_bind]
  refine wp_mono (wp_freeStep_closing (hs.closing h hKeep) .start (k := .svcctx) rfl (by decide)
    (fun _ => rfl) (fun k => by cases k <;> rfl) rfl rfl) (fun r₁ w₁ ⟨⟨hc₁, hr₁⟩, _⟩ => ?_)
    (fun _ _ h => h)
  rw [wp_bind]
  refine wp_mono (wp_freeStep_closing hc₁ hr₁ (k := .session) rfl (by decide)
    (fun _ => rfl) (fun k => by cases k <;> rfl) rfl rfl) (fun r₂ w₂ ⟨⟨hc₂, hr₂⟩, _⟩ => ?_)
    (fun _ _ h => h)
  rw [wp_bind]
  refine wp_mono (wp_freeStep_closing hc₂ hr₂ (k := .error) rfl (by decide)
    (fun _ => rfl) (fun k => by cases k <;> rfl) rfl rfl) (fun r₃ w₃ ⟨⟨hc₃, hr₃⟩, _⟩ => ?_)
    (fun _ _ h => h)
  rw [wp_bind]
  refine wp_mono (wp_freeStep_closing hc₃ hr₃ (k := .server) rfl (by decide)
    (fun _ => rfl) (fun k => by cases k <;> rfl) rfl rfl) (fun r₄ w₄ ⟨⟨hc₄, hr₄⟩, _⟩ => ?_)
    (fun _ _ h => h)
  rw [wp_bind, wp_get, wp_bind]
  refine wp_mono (wp_freeStep_closing hc₄ hr₄ (k := .env) rfl (by decide)
    (fun _ => rfl) (fun k => by cases k <;> rfl) rfl rfl) (fun r₅ w₅ ⟨⟨hc₅, hr₅⟩, hEnv⟩ => ?_)
    (fun _ _ h => h)
  simp only [wp_bind, wp_ite, wp_modifyConn, wp_pure]
  split
  · rename_i hClear
    refine ⟨hc₅.finish fun k => ?_, hc₅.safe, (hr₅.closed hs).clearEnv hClear.2⟩
    cases k <;> simp [Connection.handle, hClear.2]
  · rename_i hClear
    refine ⟨hc₅.finish fun k => ?_, hc₅.safe, hr₅.closed hs⟩
    split
    · rename_i hk
      -- there was no environment handle in the first place
      rw [hk.1, hEnv]
      exact Option.not_isSome_iff_eq_none.mp fun hSome => hClear ⟨hSome, hk.2⟩
    · rfl

end Epol
