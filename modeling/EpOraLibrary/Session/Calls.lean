import EpOraLibrary.Ownership.Containers
import EpOraLibrary.Values.Register

/-!
# EpOraLibrary — sessions

A session is a run of an application with all it may call on a connection that
stays open: the calls of `Ownership/Application.lean`, and those on the
parameters of a statement it holds — assignments and readers, `ToResultSet`,
and `Next` on the result set `ToResultSet` made.

* `respects_registerCall` — what a call on the value of a parameter may do.
* `Sound.serve` — each call keeps the objects of a session sound.
* `session_resources_owned` — **everything a session made is owned by exactly
  one object it holds, or was released exactly once.**
-/

namespace Epol

open Ledger Prog Runs

variable {w w₁ : World} {held : List Res} {s p r : Nat}

-- ---------------------------------------------------------------------------
-- The calls
-- ---------------------------------------------------------------------------

/-- The calls of a session; `p` is a parameter of the statement `s`. -/
inductive SessionCall
  | call (l : Call)
  | register (s p : Nat) (l : RegisterCall)
  | toResultSet (s p : Nat)
  /-- `Next` on the result set of the parameter, if `ToResultSet` made one -/
  | cursorNext (s p : Nat)

/-- `p->ToResultSet ().Next ()`, where the result set is there. -/
def Parameter.cursorNext (p : Nat) : M Unit := do
  let w ← get
  match (w.params p).m_resultSet with
  | some r =>
    let _ ← ResultSet.next r
  | none => pure ()

/-- What a call does, and the object the application holds from then on. -/
def SessionCall.run : SessionCall → M (Option Res)
  | .call l => l.run
  | .register _ p l => do
    l.exec p
    return none
  | .toResultSet _ p => do
    let _ ← Parameter.toResultSet p
    return none
  | .cursorNext _ p => do
    Parameter.cursorNext p
    return none

def SessionCall.keeps (held : List Res) : SessionCall → List Res
  | .call l => l.keeps held
  | _ => held

/-- The application holds the statement `s`, and `p` is one of its parameters. -/
def App.HasParam (a : App) (s p : Nat) : Prop :=
  ⟨.statement, s⟩ ∈ a.held ∧ p ∈ (a.w.stmts s).m_parameters

instance (a : App) (s p : Nat) : Decidable (a.HasParam s p) :=
  inferInstanceAs (Decidable (_ ∧ _))

/-- The application holds what the call is made on. -/
def App.Permits (a : App) : SessionCall → Prop
  | .call l => a.Allows l
  | .register s p _ => a.HasParam s p
  | .toResultSet s p => a.HasParam s p
  | .cursorNext s p => a.HasParam s p

instance (a : App) (l : SessionCall) : Decidable (a.Permits l) :=
  match l with
  | .call l => inferInstanceAs (Decidable (a.Allows l))
  | .register s p _ | .toResultSet s p | .cursorNext s p =>
    inferInstanceAs (Decidable (a.HasParam s p))

/-- A call of a session together with the answers OCI gives to it. -/
abbrev Served := SessionCall × (OciCall → OciResult)

/-- One call; an exception is caught. -/
def App.serve (a : App) (l : Served) : App :=
  if a.Permits l.1 then
    match l.1.run (a.w.answering l.2) with
    | .ok x w => ⟨w, x.toList ++ l.1.keeps a.held⟩
    | .error _ w => { a with w := w }
  else a

/-- What a call is shown to lead to, a call that is permitted leads to. -/
theorem App.serve_of_wp {a : App} {l : Served} {P : App → Prop} (hNot : ¬ a.Permits l.1 → P a)
    (hCall : a.Permits l.1 → wp l.1.run (fun x w => P ⟨w, x.toList ++ l.1.keeps a.held⟩)
      (fun _ w => P { a with w := w }) (a.w.answering l.2)) : P (a.serve l) := by
  rw [App.serve]
  split
  · rename_i hPermits
    have hRun := hCall hPermits
    split
    · rename_i hOk
      exact of_wp_ok hRun hOk
    · rename_i hError
      exact of_wp_error hRun hError
  · rename_i hDenied
    exact hNot hDenied

/-- **The object a call returns** was made by one of three. -/
theorem wp_returned {P : Res → World → Prop} (l : SessionCall)
    (hPrepare : ∀ sql, l = .call (.prepare sql) → wp (Connection.prepare sql)
      (fun s w' => P ⟨.statement, s⟩ w') (fun _ _ => True) w)
    (hSelect : ∀ sql F, l = .call (.select sql F) → wp (Connection.selectWith sql F)
      (fun r w' => P ⟨.resultSet, r⟩ w') (fun _ _ => True) w)
    (hStmtSelect : ∀ s F, l = .call (.stmtSelect s F) → wp (Statement.selectWith s F)
      (fun r w' => P ⟨.resultSet, r⟩ w') (fun _ _ => True) w) :
    wp l.run (fun x w' => ∀ o, x = some o → P o w') (fun _ _ => True) w := by
  have hNone : ∀ {α : Type} (m : M α), wp (m >>= fun _ => pure none : M (Option Res))
      (fun x w' => ∀ o, x = some o → P o w') (fun _ _ => True) w := by
    intro α m
    rw [wp_bind]
    exact wp_mono (wp_trivial m w) (fun _ _ _ o ho => by cases ho) (fun _ _ _ => trivial)
  have hSome : ∀ {m : M Nat} {kind : Kind}, wp m (fun id w' => P ⟨kind, id⟩ w')
      (fun _ _ => True) w → wp (m >>= fun id => pure (some ⟨kind, id⟩) : M (Option Res))
        (fun x w' => ∀ o, x = some o → P o w') (fun _ _ => True) w := by
    intro m kind hMade
    rw [wp_bind]
    refine wp_mono hMade (fun id w' hP => ?_) (fun _ _ _ => trivial)
    rw [wp_pure]
    intro o ho
    rwa [← Option.some.inj ho]
  cases l with
  | call l =>
    cases l with
    | prepare sql => exact hSome (hPrepare sql rfl)
    | select sql F => exact hSome (hSelect sql F rfl)
    | stmtSelect s F => exact hSome (hStmtSelect s F rfl)
    | _ => exact hNone _
  | _ => exact hNone _

-- ---------------------------------------------------------------------------
-- Calls on the value of a parameter
-- ---------------------------------------------------------------------------

/-- At most the value changed, in the buffer that was there. -/
structure Parameter.Revalued (param param' : Parameter) : Prop where
  same   : param' = { param with
    m_indicator := param'.m_indicator
    m_dataLen := param'.m_dataLen
    m_fetchBuffer := param'.m_fetchBuffer }
  buffer : param'.m_fetchBuffer.isSome = param.m_fetchBuffer.isSome

theorem Parameter.revalued_write (off : Nat) (bytes : List Nat) (param : Parameter) :
    param.Revalued (Parameter.write off bytes param) :=
  ⟨rfl, Option.isSome_map⟩

theorem Parameter.Revalued.owns {param param' : Parameter} (h : param.Revalued param') :
    param'.m_resultSet = param.m_resultSet ∧ param'.m_rsHandle = param.m_rsHandle := by
  rw [h.same]
  exact ⟨rfl, rfl⟩

/-- The call stores the length of a text. -/
def RegisterCall.SetsLength : RegisterCall → Prop
  | .assignText text => text.length ≠ 0
  | _ => False

section Register

variable {R : World → World → Prop} (hR : Frame R)
  (hUses : ∀ (w : World) (rs : List Res), rs = ptr .error w.conn.m_errorHandle ∨ rs = [] →
    R w { w with trace := rs.map .use ++ w.trace })
include hR

/-- A reader looks at the parameter, and may go on with its buffer. -/
theorem respects_output {α : Type} (type : DataType) {read : (Nat → Nat) → M α}
    (hRead : ∀ buf, Respects R (read buf)) : Respects R (Parameter.output type p read) := by
  refine respects_get_bind fun w => ?_
  dsimp only
  rw [wp_ite]
  split
  · exact hRead _ w
  · exact hR.refl w

include hUses

/-- A conversion passes the error handle. -/
theorem respects_convert {α : Type} (f : Except OciResult α) : Respects R (convert f) := by
  refine respects_get_bind fun w => ?_
  rw [wp_bind, wp_pass]
  cases f with
  | ok a => exact hUses w _ (.inl rfl)
  | error result =>
    exact wp_throwOnError fun rs hrs => hR.trans (hUses w _ (.inl rfl)) (hUses _ rs hrs)

/-- What a call on the value of a parameter may do: pass the error handle, and
change the value, its length where it is a text. -/
theorem respects_registerCall (l : RegisterCall)
    (hModify : ∀ f : Parameter → Parameter, (∀ param : Parameter, param.Revalued (f param)) →
      (l.SetsLength ∨ ∀ param : Parameter, (f param).m_dataLen = param.m_dataLen) →
      Respects R (modifyParam p f)) : Respects R (l.exec p) := by
  have hWrite : ∀ off bytes, Respects R (modifyParam p (Parameter.write off bytes)) :=
    fun off bytes => hModify _ (Parameter.revalued_write off bytes) (.inr fun _ => rfl)
  have hNumber : ∀ converted, Respects R (Parameter.assignNumber p converted) := by
    intro converted
    refine respects_get_bind fun w => ?_
    rw [wp_ite]
    split
    · refine respects_bind hR (respects_convert hR hUses converted) (fun number =>
        respects_bind hR (hWrite 0 number) fun _ => ?_) w
      exact hModify _ (fun _ => ⟨rfl, rfl⟩) (.inr fun _ => rfl)
    · exact hR.refl w
  cases l with
  | assignText text =>
    refine respects_get_bind fun w => ?_
    dsimp only
    rw [wp_ite, wp_ite]
    split
    · exact hModify _ (fun _ => ⟨by rfl, by rfl⟩) (.inr fun _ => by rfl) w
    · rename_i hText
      split
      · refine respects_bind hR (hWrite _ _) (fun _ => respects_bind hR (hWrite _ _) fun _ => ?_) w
        exact hModify _ (fun _ => ⟨rfl, rfl⟩) (.inl hText)
      · exact hR.refl w
  | assignReal value => exact respects_get_bind fun w => hNumber _ w
  | assignInt value => exact respects_get_bind fun w => hNumber _ w
  | assignDate dateTime =>
    refine respects_get_bind fun w => ?_
    rw [wp_ite]
    split
    · refine respects_bind hR (hWrite _ _) (fun _ => ?_) w
      exact hModify _ (fun _ => ⟨rfl, rfl⟩) (.inr fun _ => rfl)
    · exact hR.refl w
  | toNull =>
    rw [RegisterCall.exec, Parameter.toNull]
    exact hModify _ (fun _ => ⟨rfl, rfl⟩) (.inr fun _ => rfl)
  | isNull => exact fun w => hR.refl w
  | toString =>
    refine respects_bind hR (respects_get_bind fun w => ?_) fun _ => respects_pure hR ()
    dsimp only
    rw [wp_ite]
    split
    · exact hR.refl w
    · exact hR.refl w
  | toDouble =>
    refine respects_bind hR (respects_get_bind fun w => ?_) fun _ => respects_pure hR ()
    exact respects_output hR .number (fun _ => respects_convert hR hUses _) w
  | toLong =>
    refine respects_bind hR (respects_get_bind fun w => ?_) fun _ => respects_pure hR ()
    exact respects_output hR .number (fun _ => respects_convert hR hUses _) w
  | toDateTime =>
    refine respects_bind hR ?_ fun _ => respects_pure hR ()
    exact respects_output hR .date fun _ => respects_pure hR _

end Register

-- ---------------------------------------------------------------------------
-- One call
-- ---------------------------------------------------------------------------

/-- The value of a parameter is nothing a resource is acquired for. -/
theorem conserves_registerCall (n : Nat) (l : RegisterCall) :
    Respects (fun w w' => Conserves n w w' []) (l.exec p) := by
  refine respects_registerCall (frame_conserves n) (fun w rs _ => (quiet_uses w rs).conserves n) l
    fun f hf _ => respects_modify fun w => ?_
  have hOwns := (hf (w.params p)).owns
  exact conserves_modifyParam _ (fun _ => hOwns) fun r hr => by rwa [hOwns.1] at hr

/-- **One call** of a session keeps its objects sound. -/
theorem Sound.serve {a : App} (h : Sound a.w a.held) (l : Served) :
    Sound (a.serve l).w (a.serve l).held := by
  have hw := h.answering l.2
  obtain ⟨l, o⟩ := l
  refine App.serve_of_wp (P := fun b => Sound b.w b.held) (fun _ => h) fun hPermits => ?_
  cases l with
  | call l => exact wp_mono (hw.call l hPermits) (fun _ _ h' => h') (fun _ _ hC => hw.conserve hC)
  | register s p l =>
    rw [SessionCall.run, wp_bind]
    exact wp_mono (conserves_registerCall _ l _) (fun _ _ hC => hw.conserve hC)
      (fun _ _ hC => hw.conserve hC)
  | toResultSet s p =>
    rw [SessionCall.run, wp_bind]
    exact wp_mono (hw.toResultSet hPermits.1 hPermits.2) (fun _ _ h' => h') (fun _ _ h' => h')
  | cursorNext s p =>
    rw [SessionCall.run, Parameter.cursorNext, wp_bind, wp_bind, wp_get]
    cases ((a.w.answering o).params p).m_resultSet with
    | none => exact hw
    | some r =>
      dsimp only
      rw [wp_bind]
      exact wp_mono (reading_next r _) (fun _ _ hR => hw.conserve (hR.conserves _))
        (fun _ _ hR => hw.conserve (hR.conserves _))

-- ---------------------------------------------------------------------------
-- Everything made is owned or was released
-- ---------------------------------------------------------------------------

/-- The resource is there, and one object of those held owns it. -/
structure App.OwnsOnce (a : App) (x : Res) : Prop where
  acquired : acquired a.w.trace x = 1
  released : released a.w.trace x = 0
  owner    : ∃ o ∈ a.held, x ∈ a.w.owned o ∧ ∀ o' ∈ a.held, x ∈ a.w.owned o' → o' = o

/-- What was acquired is owned once, or was released once. -/
theorem Sound.owned_or_released {a : App} (h : Sound a.w a.held) {x : Res}
    (hKind : x.kind.ofStatement = true) (hMade : 0 < Ledger.acquired a.w.trace x) :
    (x ∈ a.held.flatMap a.w.owned → a.OwnsOnce x) ∧
      (x ∉ a.held.flatMap a.w.owned → ReleasedOnce a.w x) := by
  have hNet := h.net x hKind
  have hOnce := h.minted.once x
  constructor
  · intro hm
    have hCount := List.count_eq_one_of_mem h.nodup hm
    rw [hCount, Ledger.net] at hNet
    obtain ⟨o, ho, hx⟩ := List.mem_flatMap.mp hm
    exact ⟨by omega, by omega, o, ho, hx, fun o' ho' hx' => h.owner_unique ho ho' hx hx'⟩
  · intro hm
    rw [List.count_eq_zero_of_not_mem hm] at hNet
    exact releasedOnce_of_net h.minted hMade hNet

/-- **Everything a session made is owned or was released.** A connection was
opened and closed any number of times before; then the application makes any
calls of a session, with any answers of OCI, catching what they throw. In every
state, each statement handle, descriptor and object that was made in the
session either was released exactly once or was not released and is owned by
exactly one of the objects the application holds, be it the result set of a
cursor parameter whose first fetch has thrown. So when the application holds
nothing, all that was made was released exactly once. What counts is that the
release was asked for, whatever OCI answered. -/
theorem session_resources_owned (cfg : Setting) (before : List ConnCall) (calls : List Served) :
    let a₀ := App.opened cfg before
    AllStates App.serve (fun a => ∀ x, MadeSince a₀.w a.w x →
      (ReleasedOnce a.w x ∨ a.OwnsOnce x) ∧ (a.held = [] → ReleasedOnce a.w x)) a₀ calls := by
  intro a₀
  refine allStates_mono ?_ (allStates_of_invariant (I := fun a => Sound a.w a.held)
    (fun a l h => h.serve l) (sound_opened cfg before) calls)
  rintro a h x ⟨hKind, -, hMade⟩
  obtain ⟨hOwned, hReleased⟩ := h.owned_or_released hKind hMade
  refine ⟨?_, fun hNone => hReleased ?_⟩
  · by_cases hm : x ∈ a.held.flatMap a.w.owned
    · exact .inr (hOwned hm)
    · exact .inl (hReleased hm)
  · rw [hNone]
    exact List.not_mem_nil

end Epol
