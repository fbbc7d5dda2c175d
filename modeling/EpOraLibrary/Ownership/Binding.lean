import EpOraLibrary.Ownership.Application

/-!
# EpOraLibrary — what a placeholder is bound to

* `World.Agrees` — the memory registered for a placeholder belongs to the
  parameter that the statement finds under its name, and that one is alive.
* `Bound` — the invariant behind it, over the registrations, `m_parameters` and
  `m_parametersMap`.
* `binds_agree_iff` — **the library and OCI agree** in every state of a run of
  binds and assignments exactly when each `Bind` that registers completes.
* `failed_charset_dangles` — a `Bind` that does not.
-/

namespace Epol

open Ledger Prog Runs

variable {w w₁ w₂ : World} {s h p : Nat} {name key : TString}

-- ---------------------------------------------------------------------------
-- The calls
-- ---------------------------------------------------------------------------

/-- The calls made on a statement and its parameters. -/
inductive BindCall
  | bind (name : TString) (type : DataType)
  | assignText (p : Nat) (text : TString)
  | assignReal (p : Nat) (value : Double)
  | assignInt (p : Nat) (value : Int)
  | assignDate (p : Nat) (dateTime : OciDate)
  | toNull (p : Nat)

def BindCall.run (s : Nat) : BindCall → M Unit
  | .bind name type => do
    let _ ← Statement.bind s name type
    pure ()
  | .assignText p text => Parameter.assignText p text
  | .assignReal p value => Parameter.assignReal p value
  | .assignInt p value => Parameter.assignInt p value
  | .assignDate p dateTime => Parameter.assignDate p dateTime
  | .toNull p => Parameter.toNull p

/-- The world after the call, an exception being caught. -/
def World.bindStep (s : Nat) (w : World) (l : BindCall × (OciCall → OciResult)) : World :=
  exec (l.1.run s) (w.answering l.2)

/-- A registration refers to the memory of one parameter. -/
def Registration.BelongsTo (reg : Registration) (p : Nat) : Prop := ∃ type, reg = .of p type

/-- What a placeholder of the statement `s` is bound to belongs to a parameter
that is alive and is the one found under the name of the placeholder. -/
def World.Agrees (s : Nat) (w : World) : Prop :=
  ∀ h, (w.stmts s).m_stmtHandle = some h → ∀ e ∈ (w.oci.stmt h).binds,
    ∃ p, e.2.BelongsTo p ∧ (w.stmts s).find e.1 = some p ∧ p ∈ (w.stmts s).m_parameters ∧
      ¬ Released w.trace ⟨.parameter, p⟩

/-- If the call is a `Bind` that gets its placeholder registered, it completes. -/
def World.BindFinishes (w : World) (l : BindCall × (OciCall → OciResult)) : Prop :=
  ∀ name type, l.1 = .bind name type →
    (w.answering l.2).BindRegisters name type → (w.answering l.2).BindCompletes name type

-- ---------------------------------------------------------------------------
-- The invariant
-- ---------------------------------------------------------------------------

/-- The registrations of the handle `h` of the statement `s` are those of its
parameters that are found by name. -/
structure Bound (s h : Nat) (w : World) : Prop where
  minted  : Minted w.fresh w.trace
  cursors : w.CursorsBelow w.fresh
  handle  : (w.stmts s).m_stmtHandle = some h
  old     : s < w.fresh ∧ h < w.fresh
  alive   : ∀ p ∈ (w.stmts s).m_parameters, p < w.fresh ∧ ¬ Released w.trace ⟨.parameter, p⟩
  mapped  : ∀ name p, (w.stmts s).find name = some p → p ∈ (w.stmts s).m_parameters
  agrees  : ∀ e ∈ (w.oci.stmt h).binds, ∃ p, e.2.BelongsTo p ∧ (w.stmts s).find e.1 = some p

theorem Bound.agree (h : Bound s p w) : w.Agrees s := by
  intro hd hHandle e he
  obtain rfl := Option.some.inj (h.handle.symm.trans hHandle)
  obtain ⟨p, hp, hFind⟩ := h.agrees e he
  have hMem := h.mapped _ _ hFind
  exact ⟨p, hp, hFind, hMem, (h.alive p hMem).2⟩

/-- The memory a registration refers to is that of one parameter only. -/
theorem Registration.BelongsTo.inj {reg : Registration} {p p' : Nat} (h : reg.BelongsTo p)
    (h' : reg.BelongsTo p') : p = p' := by
  obtain ⟨type, rfl⟩ := h
  obtain ⟨type', h'⟩ := h'
  unfold Registration.of at h'
  split at h' <;> split at h' <;> simp at h'
  · exact h'
  · exact h'

-- ---------------------------------------------------------------------------
-- Assignments
-- ---------------------------------------------------------------------------

theorem Bound.uses (hB : Bound s h w) (rs : List Res) :
    Bound s h { w with trace := rs.map .use ++ w.trace } where
  minted := hB.minted.uses rs
  cursors := hB.cursors
  handle := hB.handle
  old := hB.old
  alive p hp := by
    rw [released_uses]
    exact hB.alive p hp
  mapped := hB.mapped
  agrees := hB.agrees

/-- The fields of a parameter change, but not its result set. -/
theorem Bound.modifyParam (hB : Bound s h w) {param : Parameter}
    (hParam : param.m_resultSet = (w.params p).m_resultSet) :
    Bound s h { w with params := Function.update w.params p param } where
  minted := hB.minted
  cursors := hB.cursors.of_eq (fun p' => by
    by_cases hp : p' = p
    · subst hp
      simp [hParam]
    · simp [hp]) fun _ _ => rfl
  handle := hB.handle
  old := hB.old
  alive := hB.alive
  mapped := hB.mapped
  agrees := hB.agrees

section Assignments

variable {R : World → World → Prop} (hR : Frame R)
  (hUses : ∀ (w : World) (rs : List Res), R w { w with trace := rs.map .use ++ w.trace })
  (hModify : ∀ p (f : Parameter → Parameter),
    (∀ param, (f param).m_resultSet = param.m_resultSet) →
    (∀ param, (f param).m_rsHandle = param.m_rsHandle) → Respects R (modifyParam p f))
include hR hUses hModify

/-- A number is converted, the error handle being passed, and written. -/
theorem respects_assignNumber (p : Nat) (converted : Except OciResult OciNumber) :
    Respects R (Parameter.assignNumber p converted) := by
  have hConvert : Respects R (convert converted) := by
    refine respects_get_bind fun w => ?_
    rw [wp_bind, wp_pass]
    cases converted with
    | ok number => exact hUses w _
    | error result => exact wp_throwOnError fun rs _ => hR.trans (hUses w _) (hUses _ rs)
  have hWrite : ∀ number, Respects R (modifyParam p (Parameter.write 0 number)) :=
    fun _ => hModify p _ (fun _ => rfl) fun _ => rfl
  refine respects_get_bind fun w => ?_
  rw [wp_ite]
  split
  · refine respects_bind hR hConvert (fun number =>
      respects_bind hR (hWrite number) fun _ => ?_) w
    exact hModify p _ (fun _ => rfl) fun _ => rfl
  · exact hR.refl w

/-- The assignments pass the error handle and change the value of a parameter,
and do nothing else. -/
theorem respects_assign (l : BindCall) (hl : ∀ name type, l ≠ .bind name type) :
    Respects R (l.run s) := by
  have hWrite : ∀ p off bytes, Respects R (modifyParam p (Parameter.write off bytes)) :=
    fun p _ _ => hModify p _ (fun _ => rfl) fun _ => rfl
  cases l with
  | bind name type => exact absurd rfl (hl name type)
  | assignText p text =>
    refine respects_get_bind fun w => ?_
    dsimp only
    rw [wp_ite, wp_ite]
    split
    · exact hModify p _ (fun _ => by rfl) (fun _ => by rfl) w
    · split
      · refine respects_bind hR (hWrite p _ _) (fun _ =>
          respects_bind hR (hWrite p _ _) fun _ => ?_) w
        exact hModify p _ (fun _ => rfl) fun _ => rfl
      · exact hR.refl w
  | assignReal p value =>
    exact respects_get_bind fun w => respects_assignNumber hR hUses hModify p _ w
  | assignInt p value =>
    exact respects_get_bind fun w => respects_assignNumber hR hUses hModify p _ w
  | assignDate p dateTime =>
    refine respects_get_bind fun w => ?_
    rw [wp_ite]
    split
    · refine respects_bind hR (hWrite p _ _) (fun _ => ?_) w
      exact hModify p _ (fun _ => rfl) fun _ => rfl
    · exact hR.refl w
  | toNull p =>
    rw [BindCall.run, Parameter.toNull]
    exact hModify p _ (fun _ => rfl) fun _ => rfl

end Assignments

/-- The assignments leave all of it. -/
theorem keeps_assign (l : BindCall) (hl : ∀ name type, l ≠ .bind name type) :
    Respects (Keep (Bound s h)) (l.run s) :=
  respects_assign (frame_keep _) (fun _ rs hB => hB.uses rs)
    (fun _ _ hResultSet _ => respects_keep fun _ hB => hB.modifyParam (hResultSet _)) l hl

-- ---------------------------------------------------------------------------
-- Binds
-- ---------------------------------------------------------------------------

variable {param : Parameter} {t : DataType}

/-- A number that was not handed out stands for nothing that was released. -/
theorem Minted.not_released (hM : Minted w.fresh w.trace) (kind : Kind) :
    ¬ Released w.trace ⟨kind, w.fresh⟩ :=
  fun hr => Nat.lt_irrefl _ (hM.released hr)

/-- A `Bind` that completes: the new parameter is registered, alive and found. -/
theorem Bound.bound (hB : Bound s h w)
    (hA : Attaching w w₁ s w.fresh param (registered w.cfg true name (.of w.fresh t))) :
    Bound s h (w₁.withParam s w.fresh name) where
  minted := hA.gains.conserves.minted hB.minted
  cursors := (hA.gains.conserves.cursors _ (Nat.le_refl _) hB.cursors).mono
    hA.gains.conserves.fresh
  handle := by simp [World.withParam, hA.stmts, hB.handle]
  old := ⟨Nat.lt_of_lt_of_le hB.old.1 hA.gains.conserves.fresh,
    Nat.lt_of_lt_of_le hB.old.2 hA.gains.conserves.fresh⟩
  alive p hp := by
    show p < w₁.fresh ∧ ¬ Released w₁.trace _
    rw [hA.released]
    simp only [World.withParam, Function.update_self, hA.stmts] at hp
    rcases List.mem_append.mp hp with hp | hp
    · exact ⟨Nat.lt_of_lt_of_le (hB.alive p hp).1 hA.gains.conserves.fresh, (hB.alive p hp).2⟩
    · rw [List.mem_singleton.mp hp]
      exact ⟨(hA.gains.new _ (mem_owned_self _ _)).2, hB.minted.not_released _⟩
  mapped key p hFind := by
    simp only [World.withParam, Statement.find, Function.update_self, hA.stmts,
      mapFind_mapInsert] at hFind ⊢
    split at hFind
    · rw [← Option.some.inj hFind]
      exact List.mem_append_right _ (List.mem_singleton_self _)
    · exact List.mem_append_left _ (hB.mapped key p hFind)
  agrees e he := by
    have hBinds := hA.binds h hB.handle hB.old.2
    rw [show ((w₁.withParam s w.fresh name).oci.stmt h).binds = (w₁.oci.stmt h).binds from rfl,
      hBinds, registered, if_pos rfl] at he
    simp only [World.withParam, Statement.find, Function.update_self, hA.stmts, mapFind_mapInsert]
    rcases List.mem_cons.mp he with rfl | he
    · exact ⟨w.fresh, ⟨t, rfl⟩, by rw [if_pos rfl]⟩
    · obtain ⟨hMem, hne⟩ := List.mem_filter.mp he
      -- another placeholder has another name
      have hName : e.1 ≠ name := fun heq => of_decide_eq_true hne (by rw [heq])
      rw [if_neg hName]
      exact hB.agrees e hMem

/-- A `Bind` that throws leaves the statement, and what is registered for it
but by the `Bind` itself. -/
theorem Bound.failed {own : List Res} {done : Bool} (hB : Bound s h w)
    (hC : Conserves w.fresh w w₂ [])
    (hA : Attaching w w₁ s w.fresh param (registered w.cfg done name (.of w.fresh t)))
    (hOwn : own = w₁.owned ⟨.parameter, w.fresh⟩) (hF : Frees w₁ w₂ own own) :
    w₂.stmts s = w.stmts s ∧ (w₂.oci.stmt h).binds =
      registered w.cfg done name (.of w.fresh t) (w.oci.stmt h).binds ∧
    (done = false → Bound s h w₂) := by
  have hNew : ∀ y, y.id < w.fresh → y ∉ own := fun y hy hm =>
    absurd hy (Nat.not_lt_of_le (hA.gains.new y (hOwn ▸ hm)).1)
  have hSame : w₂.stmts s = w₁.stmts s := hF.untouched ⟨.statement, s⟩ (hNew _ hB.old.1)
  have hStmt : w₂.stmts s = w.stmts s := by rw [hSame, hA.stmts]
  have hOci : w₂.oci = w₁.oci := by rw [hF.same]
  have hBinds : (w₂.oci.stmt h).binds =
      registered w.cfg done name (.of w.fresh t) (w.oci.stmt h).binds := by
    rw [hOci, hA.binds h hB.handle hB.old.2]
  refine ⟨hStmt, hBinds, fun hDone => ?_⟩
  subst hDone
  refine ⟨hC.minted hB.minted, (hC.cursors _ (Nat.le_refl _) hB.cursors).mono hC.fresh,
    hStmt ▸ hB.handle,
    ⟨Nat.lt_of_lt_of_le hB.old.1 hC.fresh, Nat.lt_of_lt_of_le hB.old.2 hC.fresh⟩,
    fun p hp => ?_, ?_, ?_⟩
  · rw [hStmt] at hp
    have hOld := (hB.alive p hp).1
    refine ⟨Nat.lt_of_lt_of_le hOld hC.fresh, ?_⟩
    rw [hF.released _ (hNew _ hOld), hA.released]
    exact (hB.alive p hp).2
  · rw [hStmt]
    exact hB.mapped
  · rw [hStmt, hBinds]
    exact hB.agrees

theorem Bound.answering (hB : Bound s h w) (o : OciCall → OciResult) :
    Bound s h (w.answering o) :=
  ⟨hB.minted, hB.cursors, hB.handle, hB.old, hB.alive, hB.mapped, hB.agrees⟩

/-- **One call**: the invariant is kept when a `Bind` that registers completes,
and what is registered dangles when it does not. -/
theorem Bound.step (hB : Bound s h w) (l : BindCall × (OciCall → OciResult)) :
    (w.BindFinishes l → Bound s h (w.bindStep s l)) ∧
      ((w.bindStep s l).Agrees s → w.BindFinishes l) := by
  obtain ⟨l, o⟩ := l
  have hB' := hB.answering o
  by_cases hl : ∃ name type, l = .bind name type
  · obtain ⟨name, type, rfl⟩ := hl
    refine (wp_exec (P := fun t => (w.BindFinishes (.bind name type, o) → Bound s h t) ∧
      (t.Agrees s → w.BindFinishes (.bind name type, o)))).mp ?_
    rw [BindCall.run, wp_bind]
    refine wp_mono (wp_statementBind s name type hB'.cursors) (fun p w' hDone => ?_)
      (fun e w' hFailed => ?_)
    · obtain ⟨rfl, hDone, w₁, param, t, -, hA, rfl⟩ := hDone
      refine ⟨fun _ => hB'.bound hA, fun _ name' type' heq _ => ?_⟩
      obtain ⟨rfl, rfl⟩ := BindCall.bind.inj heq
      exact hDone
    · obtain ⟨hNot, hC, w₁, param, t, done, own, hDone, hA, hOwn, hF⟩ := hFailed
      obtain ⟨hStmt, hBinds, hKeep⟩ := hB'.failed hC hA hOwn hF
      refine ⟨fun hFinishes => hKeep ?_, fun hAgrees name' type' heq hRegisters => ?_⟩
      · exact Bool.eq_false_iff.mpr fun hd =>
          hNot (hFinishes name type rfl (hDone.mp hd))
      · -- the parameter that was registered is found by no name
        obtain ⟨rfl, rfl⟩ := BindCall.bind.inj heq
        rw [hDone.mpr hRegisters, registered, if_pos rfl] at hBinds
        obtain ⟨p, hp, -, hMem, -⟩ := hAgrees h (hStmt ▸ hB'.handle)
          (name, .of (w.answering o).fresh t) (by rw [hBinds]; exact List.mem_cons_self ..)
        rw [hStmt] at hMem
        rw [← Registration.BelongsTo.inj ⟨t, rfl⟩ hp] at hMem
        exact absurd (hB'.alive _ hMem).1 (Nat.lt_irrefl _)
  · have hl' : ∀ name type, l ≠ .bind name type := fun name type heq => hl ⟨name, type, heq⟩
    exact ⟨fun _ => wp_exec.mp (keeps_assign l hl' (w.answering o)) hB',
      fun _ name type heq => absurd heq (hl' name type)⟩

-- ---------------------------------------------------------------------------
-- Runs
-- ---------------------------------------------------------------------------

/-- A statement that was just prepared has nothing registered. -/
theorem Prepared.bound {w₀ : World} (hP : Prepared w₀ w s h) (hM : Minted w₀.fresh w₀.trace)
    (hCursors : w₀.CursorsBelow w₀.fresh) : Bound s h w where
  minted := hP.gains.conserves.minted hM
  cursors := (hP.gains.conserves.cursors _ (Nat.le_refl _) hCursors).mono hP.gains.conserves.fresh
  handle := hP.handle
  old := ⟨(hP.gains.new _ (mem_owned_self _ _)).2, (hP.gains.new ⟨.stmt, h⟩ (by
    simp [World.owned, World.stmtOwned, hP.handle, ptr])).2⟩
  alive p hp := by
    rw [hP.parameters] at hp
    cases hp
  mapped name p hFind := by
    rw [Statement.find, hP.map] at hFind
    cases hFind
  agrees e he := by
    rw [hP.state] at he
    cases he

/-- **The library and OCI agree on what each placeholder is bound to** in every
state of a run of binds and assignments on a statement that was just prepared,
exactly when every `Bind` of the run that gets its placeholder registered
completes. Before, the application made any calls. -/
theorem binds_agree_iff (cfg : Setting) (before : List ConnCall) (calls : List Answered)
    (sql : TString) (o : OciCall → OciResult)
    (hPrepare : Connection.prepare sql
      ((run App.step (.opened cfg before) calls).w.answering o) = .ok s w)
    (binds : List (BindCall × (OciCall → OciResult))) :
    AllStates (World.bindStep s) (World.Agrees s) w binds ↔
      AllSteps (World.bindStep s) World.BindFinishes w binds := by
  have hSound := (sound_run cfg before calls).answering o
  obtain ⟨-, h, hP⟩ := of_wp_ok (wp_newStatement sql hSound.cursors) hPrepare
  exact allStates_iff_allSteps (I := Bound s h) (fun w l hB => (hB.step l).1)
    (fun w hB => hB.agree) (fun w l hB => (hB.step l).2) (hP.bound hSound.minted hSound.cursors)

/-- A prepared statement, with the number 5 and the handle 6. -/
def preparedStatement : World :=
  exec (Connection.prepare [])
    ((run App.step (.opened .plain [.open ⟨true, true, false⟩ allWell]) []).w.answering allWell)

theorem prepare_preparedStatement : Connection.prepare []
    ((run App.step (.opened .plain [.open ⟨true, true, false⟩ allWell]) []).w.answering allWell) =
      .ok 5 preparedStatement :=
  eq_ok_of_result (by decide +kernel)

/-- A name that is bound twice, the second time in vain, and an assignment. -/
theorem binds_agree_iff_bound_again :
    AllStates (World.bindStep 5) (World.Agrees 5) preparedStatement
      [(.bind (tstr "nID") .unknown, allWell),
        (.bind (tstr "nID") .unknown, failing (· = .bindByName)), (.assignInt 7 42, allWell)] := by
  refine (binds_agree_iff _ _ _ _ _ prepare_preparedStatement _).mpr ⟨?_, ?_, ?_, trivial⟩
  · rintro name type heq hRegisters
    exact ⟨hRegisters, rfl, fun _ => rfl⟩
  · rintro name type heq ⟨_, _, _, hDone⟩
    cases hDone
  · rintro name type heq
    cases heq

/-- A `Bind` whose `OCIAttrSet` of the character set fails. -/
def failedCharset : BindCall × (OciCall → OciResult) :=
  (.bind (tstr "nID") .unknown, failing (· = .attrSet .charsetId 0))

/-- The buffer of the parameter that was destroyed stays registered. -/
theorem failed_charset_dangles :
    preparedStatement.cfg.unicode = true ∧
      ¬ AllStates (World.bindStep 5) (World.Agrees 5) preparedStatement [failedCharset] := by
  refine ⟨by decide +kernel, fun hAll => ?_⟩
  obtain ⟨p, -, hFind, -⟩ := hAll.2 6 (by decide +kernel) (tstr "nID", .of 7 .number)
    (by decide +kernel)
  have hNone : ((preparedStatement.bindStep 5 failedCharset).stmts 5).find (tstr "nID") = none := by
    decide +kernel
  rw [hNone] at hFind
  cases hFind

end Epol
