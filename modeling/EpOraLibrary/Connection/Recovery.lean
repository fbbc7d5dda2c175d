import EpOraLibrary.Connection.Runs

/-!
# EpOraLibrary — what one `Close` can make good

After any run of `Open` and `Close` calls one further `Close` is made in which
OCI refuses nothing it could do. `NothingLeft` is what it is meant to leave,
`Recoverable` the states in which it does.

* `nothingLeft_iff` — a legal `Close` leaves nothing behind exactly in the
  recoverable states.
* `close_recovers_iff` — the same for every run, and for the `Close` in the
  handler of the opening constructor.
* `refused_login_not_recovered` — a refused login is not recoverable.
-/

namespace Epol

open Ledger Prog Runs

variable {w : World} {since : Nat}

/-- OCI refuses no release it can do: the end of a session that is begun, the
detach of a server that is attached, the free of a handle that is live. -/
structure World.Legal (w : World) : Prop where
  sessionEnd   : w.outcome .sessionEnd = .success ↔
    ∃ u, w.conn.m_sessionHandle = some u ∧ w.oci.begun u = true
  serverDetach : w.outcome .serverDetach = .success ↔
    ∃ s, w.conn.m_serverHandle = some s ∧ w.oci.attached s = true
  handleFree   : ∀ x, ¬ Released w.trace x → w.outcome (.handleFree x) = .success

/-- No session, no server and none of the handles allocated from `since` on is
left, and the object is as it was at the start. -/
structure World.NothingLeft (since : Nat) (w : World) : Prop where
  begun    : ∀ u, w.oci.begun u = false
  attached : ∀ s, w.oci.attached s = false
  released : ∀ {x q}, .acquire x q ∈ w.trace → since ≤ x.id → Released w.trace x
  handle   : ∀ k, w.conn.handle k = none
  opened   : w.conn.m_isOpened = false

/-- Everything there is to release can be reached from the handle fields, and
the service context is there exactly while there is a session to end and a
server to detach. -/
structure World.Recoverable (since : Nat) (w : World) : Prop where
  owned    : ∀ {x q}, .acquire x q ∈ w.trace → since ≤ x.id → ¬ Released w.trace x →
    w.conn.handle x.kind = some x.id
  session  : ∀ {u}, w.oci.begun u = true → w.conn.m_sessionHandle = some u
  server   : ∀ {s}, w.oci.attached s = true → w.conn.m_serverHandle = some s
  up       : w.conn.m_svcContextHandle.isSome →
    (∃ u, w.conn.m_sessionHandle = some u ∧ w.oci.begun u = true) ∧
      ∃ s, w.conn.m_serverHandle = some s ∧ w.oci.attached s = true
  down     : w.conn.m_svcContextHandle = none →
    (∀ u, w.oci.begun u = false) ∧ ∀ s, w.oci.attached s = false

theorem HandlesOk.talks {c : Bool} {tidy : Prop} (h : HandlesOk c tidy w.conn w.fresh w.trace)
    (hSvc : w.conn.m_svcContextHandle.isSome) (hSession : w.conn.m_sessionHandle.isSome) :
    w.Talks :=
  ⟨hSvc, h.order (k := .session) hSession⟩

/-- Clearing the flag of the only handle that has it. -/
theorem setFlag_clear {f : Nat → Bool} {p : Option Nat} (h : ∀ {u}, f u = true → p = some u)
    (u : Nat) : setFlag f p false u = false := by
  by_cases hu : p = some u
  · rw [hu]
    exact Function.update_self ..
  · have hFalse : f u = false := Bool.eq_false_iff.mpr fun hf => hu (h hf)
    cases p with
    | none => exact hFalse
    | some v => exact (Function.update_of_ne (fun heq => hu (by rw [heq])) ..).trans hFalse

theorem setFlag_touched {f : Nat → Bool} {p : Option Nat} {b : Bool} {u : Nat} (hf : f u = true)
    (h : setFlag f p b u = false) : p = some u := by
  cases p with
  | none => rw [setFlag, hf] at h; cases h
  | some v =>
    by_cases hu : u = v
    · rw [hu]
    · rw [setFlag, Function.update_of_ne hu, hf] at h
      cases h

/-- In a recoverable state a legal `Close` gets through. -/
theorem World.Recoverable.nothingLeft (hRec : w.Recoverable since) (hLegal : w.Legal)
    (hOk : HandlesOk false False w.conn w.fresh w.trace) :
    (exec Connection.close w).NothingLeft since := by
  have hSession : w.conn.m_svcContextHandle.isSome → w.conn.m_sessionHandle.isSome := fun hs => by
    obtain ⟨⟨u, hu, -⟩, -⟩ := hRec.up hs
    exact Option.isSome_iff_exists.mpr ⟨u, hu⟩
  have hLive : ∀ k p, w.conn.handle k = some p → ¬ Released w.trace ⟨k, p⟩ := by
    intro k p hp hrel
    refine hOk.live hp (fun hk => .inr ?_) (.inl hrel)
    subst hk
    exact hSession (Option.isSome_iff_exists.mpr ⟨p, hp⟩)
  obtain ⟨r, w₁, -, hClosed, -, -, hNone, hExec⟩ := exec_close hOk fun (_ : True) =>
    ⟨fun v hv hGone => hLive .svcctx v hv (hGone.resolve_right (by simp)),
      fun hStrands => by
        obtain ⟨hNone, -, v, hv, -⟩ := hStrands
        have := hSession (Option.isSome_iff_exists.mpr ⟨v, hv⟩)
        rw [hNone] at this
        cases this⟩
  have hResult : w.sessionResult = .success := by
    rw [World.sessionResult]
    split
    · rename_i hTalks
      obtain ⟨hBegun, hAttached⟩ := hRec.up hTalks.1
      rw [if_neg fun hh => hh.2 (hLegal.sessionEnd.mpr hBegun)]
      exact hLegal.serverDetach.mpr hAttached
    · rfl
  have hr : r = .success := hClosed.result.mpr
    ⟨hResult, fun k p hp => hLegal.handleFree _ (hLive k p hp)⟩
  rw [hExec, if_pos hr]
  refine ⟨fun u => ?_, fun s => ?_, fun {x q} hx hs => ?_, fun k => ?_, rfl⟩
  · show w₁.oci.begun u = false
    rw [hClosed.begun]
    cases hv : w.conn.m_svcContextHandle with
    | none => rw [if_neg (by simp [World.Talks, hv]), (hRec.down hv).1]
    | some v =>
      have hSome : w.conn.m_svcContextHandle.isSome := by rw [hv]; rfl
      rw [if_pos ⟨hOk.talks hSome (hSession hSome), hSession hSome,
        by rw [hLegal.sessionEnd.mpr (hRec.up hSome).1]; rfl⟩]
      exact setFlag_clear hRec.session u
  · show w₁.oci.attached s = false
    rw [hClosed.attached]
    cases hv : w.conn.m_svcContextHandle with
    | none => rw [if_neg (by simp [World.Talks, hv]), (hRec.down hv).2]
    | some v =>
      have hSome : w.conn.m_svcContextHandle.isSome := by rw [hv]; rfl
      rw [if_pos ⟨hOk.talks hSome (hSession hSome),
        fun _ => hLegal.sessionEnd.mpr (hRec.up hSome).1,
        by rw [hLegal.serverDetach.mpr (hRec.up hSome).2]; rfl⟩]
      exact setFlag_clear hRec.server s
  · show Released w₁.trace x
    by_cases hrel : Released w.trace x
    · exact hClosed.earlier x hrel
    · exact hClosed.freed hr x.kind x.id (hRec.owned ((hClosed.acquired x q).mp hx) hs hrel)
  · have := hNone hr k fun _ => trivial
    cases k <;> exact this

/-- What a legal `Close` cannot reach it leaves behind. -/
theorem World.recoverable_of_nothingLeft (hLegal : w.Legal)
    (hOk : HandlesOk false False w.conn w.fresh w.trace)
    (hLeft : (exec Connection.close w).NothingLeft since) : w.Recoverable since := by
  obtain ⟨r, w₁, -, hClosed, -, -, -, hExec⟩ :=
    exec_close hOk fun (hFalse : False) => hFalse.elim
  have hOci : (exec Connection.close w).oci = w₁.oci := by
    rw [hExec]
    split <;> rfl
  have hTrace : (exec Connection.close w).trace = w₁.trace := by
    rw [hExec]
    split <;> rfl
  have hSvc : w₁.conn.m_svcContextHandle = none := by
    have := hLeft.handle .svcctx
    rw [hExec] at this
    split at this <;> exact this
  have hUp : w.conn.m_svcContextHandle.isSome →
      (∃ u, w.conn.m_sessionHandle = some u ∧ w.oci.begun u = true) ∧
        ∃ s, w.conn.m_serverHandle = some s ∧ w.oci.attached s = true := by
    intro hSome
    -- the field is cleared, so both calls of the first part succeeded
    rcases hClosed.svc with hSame | ⟨hSession, hResult⟩
    · rw [← hSame, hSvc] at hSome
      cases hSome
    · rw [World.sessionResult, if_pos (hOk.talks hSome hSession)] at hResult
      split at hResult
      · rename_i hEnd
        exact absurd hResult hEnd.2
      · rename_i hEnd
        exact ⟨hLegal.sessionEnd.mp (Classical.not_not.mp fun hne => hEnd ⟨hSession, hne⟩),
          hLegal.serverDetach.mp hResult⟩
  refine ⟨fun {x q} hx hs hrel => ?_, fun {u} hu => ?_, fun {s} hs => ?_, hUp, fun hDown => ?_⟩
  · have hGone := hLeft.released (x := x) (q := q)
    rw [hTrace] at hGone
    exact (hClosed.released x (hGone ((hClosed.acquired x q).mpr hx) hs)).resolve_left hrel
  · have hEnded := hLeft.begun u
    rw [hOci, hClosed.begun] at hEnded
    split at hEnded
    · exact setFlag_touched hu hEnded
    · rw [hu] at hEnded
      cases hEnded
  · have hDetached := hLeft.attached s
    rw [hOci, hClosed.attached] at hDetached
    split at hDetached
    · exact setFlag_touched hs hDetached
    · rw [hs] at hDetached
      cases hDetached
  · have hTalks : ¬ w.Talks := fun h => by
      have := h.1
      rw [hDown] at this
      cases this
    refine ⟨fun u => ?_, fun s => ?_⟩
    · have hEnded := hLeft.begun u
      rwa [hOci, hClosed.begun, if_neg fun h => hTalks h.1] at hEnded
    · have hDetached := hLeft.attached s
      rwa [hOci, hClosed.attached, if_neg fun h => hTalks h.1] at hDetached

theorem nothingLeft_iff (hLegal : w.Legal) (hOk : HandlesOk false False w.conn w.fresh w.trace) :
    (exec Connection.close w).NothingLeft since ↔ w.Recoverable since :=
  ⟨World.recoverable_of_nothingLeft hLegal hOk, fun hRec => hRec.nothingLeft hLegal hOk⟩

-- ---------------------------------------------------------------------------
-- Runs
-- ---------------------------------------------------------------------------

/-- The opening constructor: `Open`, and `Close` if it throws. -/
theorem exec_new {args : OpenArgs} {w w₁ : World} {e : OraError} (hConn : w.conn = {})
    (hOpen : Connection.openWith args w = .error e w₁) :
    exec (Connection.new args) w = exec Connection.close w₁ := by
  have hInit : modifyConn (fun _ => {}) w = .ok () w := by
    rw [← hConn]
    rfl
  rw [Connection.new, exec_bind hInit, exec_tryCatch hOpen, exec_bind_throw]

/-- **When `Close` recovers.** After any run of `Open` and `Close` with any
outcomes, one further `Close` in which OCI refuses nothing it could do leaves
nothing behind if and only if all there is to release is in the handle fields
and the service context is there just when a session is begun and the server
attached. The same holds of the `Close` in the handler of the constructor. -/
theorem close_recovers_iff (cfg : Setting) :
    (∀ calls o, let s := run ConnRun.step (ConnRun.start cfg) calls
      (s.w.answering o).Legal →
        ((exec Connection.close (s.w.answering o)).NothingLeft s.since ↔
          s.w.Recoverable s.since)) ∧
    ∀ args o e w, Connection.openWith args ((World.start cfg).answering o) = .error e w →
      w.Legal →
        ((exec (Connection.new args) ((World.start cfg).answering o)).NothingLeft 0 ↔
          w.Recoverable 0) := by
  constructor
  · intro calls o s hLegal
    refine (nothingLeft_iff hLegal (handlesOk_run cfg calls)).trans ⟨fun h => ?_, fun h => ?_⟩
    · exact ⟨h.owned, h.session, h.server, h.up, h.down⟩
    · exact ⟨h.owned, h.session, h.server, h.up, h.down⟩
  · intro args o e w hOpen hLegal
    have hStart : HandlesOk false False _ _ _ := handlesOk_start cfg
    have hOk := of_wp_error (wp_openWith (w := (World.start cfg).answering o) hStart args) hOpen
    rw [exec_new rfl hOpen]
    exact nothingLeft_iff hLegal hOk.ok

/-- The outcomes of a server that cannot be attached, and of the `Close` after it. -/
def unattached : OciCall → OciResult :=
  failing fun call => call = .serverAttach || call = .serverDetach || call = .sessionEnd

/-- An open connection, and a constructor that cannot attach. -/
theorem close_recovers_opened_and_unattached :
    ((exec Connection.close ((run ConnRun.step (ConnRun.start .plain)
        [.open ⟨true, true, false⟩ (failing fun _ => false)]).w.answering
          (failing fun _ => false))).NothingLeft 0 ↔
      (run ConnRun.step (ConnRun.start .plain)
        [.open ⟨true, true, false⟩ (failing fun _ => false)]).w.Recoverable 0) ∧
    ∃ e w, Connection.openWith ⟨true, true, false⟩ ((World.start .plain).answering unattached)
        = .error e w ∧
      ((exec (Connection.new ⟨true, true, false⟩)
        ((World.start .plain).answering unattached)).NothingLeft 0 ↔ w.Recoverable 0) :=
  ⟨(close_recovers_iff .plain).1 [.open ⟨true, true, false⟩ (failing fun _ => false)]
      (failing fun _ => false) ⟨by decide, by decide, fun _ _ => rfl⟩,
    _, _, rfl, (close_recovers_iff .plain).2 _ _ _ _ rfl
      ⟨by decide, by decide, fun _ _ => rfl⟩⟩

/-- The outcomes of a refused login, and of the `Close` after it. -/
def refusedLogin : OciCall → OciResult :=
  failing fun call => call = .sessionBegin || call = .sessionEnd

/-- `Open` with a wrong password, `Close`, `Close`: the session was not begun,
so its end fails and nothing is freed. -/
theorem refused_login_not_recovered :
    let s := run ConnRun.step (ConnRun.start .plain)
      [.open ⟨true, true, false⟩ refusedLogin, .close refusedLogin]
    (s.w.answering refusedLogin).Legal ∧
      ¬ (exec Connection.close (s.w.answering refusedLogin)).NothingLeft s.since := by
  refine ⟨⟨?_, ?_, fun x _ => rfl⟩, fun h => ?_⟩
  · decide
  · decide
  · exact absurd (h.handle .env) (by decide)

end Epol
