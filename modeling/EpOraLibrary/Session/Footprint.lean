import EpOraLibrary.Session.Calls

/-!
# EpOraLibrary — what a call may change

A `Place` is a piece of the state: the record of an object, the cursor on a
statement handle, the placeholders registered for one. `Touches n T` is the
frame condition of a call: of the places that stand for numbers below `n` it
changes those in `T` only, and what it defines or registers has a number from
`n` on.

* `Hosts` — columns are defined on the handle of their result set.
* `Frees.touches` — the footprint of `ReleaseObj`.
* `touches_executePrepared`, `touches_next` — those of an execution and of
  `Next`.
-/

namespace Epol

open Ledger Prog

variable {w w' w₁ w₂ : World} {n s p r h : Nat}

-- ---------------------------------------------------------------------------
-- Places
-- ---------------------------------------------------------------------------

inductive Place
  | object (x : Res)
  /-- the execution of a statement handle, its rows, how many were read and the
  buffers its positions are defined on -/
  | cursor (h : Nat)
  | binds (h : Nat)

/-- The place stands for a number below `n`. -/
def Place.Below (n : Nat) : Place → Prop
  | .object x => x.id < n
  | .cursor h => h < n
  | .binds h => h < n

/-- The place is the same in both worlds; the fetches made for a result set are
counted with it, and nothing is released. -/
def World.SameIn (w w' : World) : Place → Prop
  | .object x => SameAt w w' x ∧
      (x.kind = .resultSet → fetchesOf x.id w'.oci.log = fetchesOf x.id w.oci.log) ∧
      (Released w'.trace x ↔ Released w.trace x)
  | .cursor h => w'.oci.stmt h = { w.oci.stmt h with binds := (w'.oci.stmt h).binds }
  | .binds h => (w'.oci.stmt h).binds = (w.oci.stmt h).binds

theorem sameIn_refl (w : World) (place : Place) : w.SameIn w place := by
  cases place with
  | object x => exact ⟨.refl w x, fun _ => rfl, Iff.rfl⟩
  | cursor h => exact rfl
  | binds h => exact rfl

theorem sameIn_trans {place : Place} (h₁ : w.SameIn w₁ place) (h₂ : w₁.SameIn w₂ place) :
    w.SameIn w₂ place := by
  cases place with
  | object x =>
    exact ⟨h₁.1.trans h₂.1, fun hx => (h₂.2.1 hx).trans (h₁.2.1 hx), h₂.2.2.trans h₁.2.2⟩
  | cursor h =>
    show w₂.oci.stmt h = _
    rw [h₂, h₁]
  | binds h => exact Eq.trans h₂ h₁

/-- Positions are defined on new columns only. The columns a result set has
afterwards it had before, on the same handle, or they are new and were defined
on its handle. -/
structure Hosts (w w' : World) : Prop where
  fresh   : w.fresh ≤ w'.fresh
  defines : ∀ h pos c, (w'.oci.stmt h).defines pos = some c →
    (w.oci.stmt h).defines pos = some c ∨ w.fresh ≤ c ∧ c < w'.fresh
  columns : ∀ r, ∀ c ∈ (w'.rsets r).m_columns,
    c ∈ (w.rsets r).m_columns ∧ (w'.rsets r).m_rsHandle = (w.rsets r).m_rsHandle ∨
    w.fresh ≤ c ∧ c < w'.fresh ∧ ∀ h pos, (w'.oci.stmt h).defines pos = some c →
      (w'.rsets r).m_rsHandle = some h ∨ (w.oci.stmt h).defines pos = some c

theorem frame_hosts : Frame Hosts where
  refl _ := ⟨Nat.le_refl _, fun _ _ _ hd => .inl hd, fun _ _ hc => .inl ⟨hc, rfl⟩⟩
  trans hst htu := by
    refine ⟨Nat.le_trans hst.fresh htu.fresh, fun h pos c hd => ?_, fun r c hc => ?_⟩
    · rcases htu.defines h pos c hd with hd | hNew
      · exact (hst.defines h pos c hd).imp_right fun hNew =>
          ⟨hNew.1, Nat.lt_of_lt_of_le hNew.2 htu.fresh⟩
      · exact .inr ⟨Nat.le_trans hst.fresh hNew.1, hNew.2⟩
    · rcases htu.columns r c hc with ⟨hc, hHandle⟩ | ⟨hNew, hLt, hDefined⟩
      · rw [hHandle]
        refine (hst.columns r c hc).imp_right fun hNew => ?_
        obtain ⟨hNew, hLt, hDefined⟩ := hNew
        refine ⟨hNew, Nat.lt_of_lt_of_le hLt htu.fresh, fun h pos hd => ?_⟩
        -- what the second step defines is not there after the first
        rcases htu.defines h pos c hd with hd | hLater
        · exact hDefined h pos hd
        · exact absurd hLt (Nat.not_lt_of_le hLater.1)
      · refine .inr ⟨Nat.le_trans hst.fresh hNew, hLt, fun h pos hd => ?_⟩
        refine (hDefined h pos hd).imp_right fun hd => ?_
        rcases hst.defines h pos c hd with hd | hEarlier
        · exact hd
        · exact absurd hEarlier.2 (Nat.not_lt_of_le hNew)

/-- A result set has lost its columns, or they are the same, on the same handle;
its handle is the same unless it lost that too. -/
def ResultSet.Settled (rs rs' : ResultSet) : Prop :=
  (rs'.m_columns = [] ∨ rs'.m_columns = rs.m_columns ∧ rs'.m_rsHandle = rs.m_rsHandle) ∧
    ∀ h, rs'.m_rsHandle = some h → rs.m_rsHandle = some h

theorem ResultSet.Settled.same {rs rs' : ResultSet} (hColumns : rs'.m_columns = rs.m_columns)
    (hHandle : rs'.m_rsHandle = rs.m_rsHandle) : rs.Settled rs' :=
  ⟨.inr ⟨hColumns, hHandle⟩, fun _ hh => hHandle ▸ hh⟩

theorem hosts_of_settled (hFresh : w.fresh ≤ w'.fresh)
    (hDefines : ∀ h pos c, (w'.oci.stmt h).defines pos = some c →
      (w.oci.stmt h).defines pos = some c)
    (hRsets : ∀ r, (w.rsets r).Settled (w'.rsets r)) : Hosts w w' := by
  refine ⟨hFresh, fun h pos c hd => .inl (hDefines h pos c hd), fun r c hc => .inl ?_⟩
  rcases (hRsets r).1 with hNone | ⟨hColumns, hHandle⟩
  · rw [hNone] at hc
    exact absurd hc List.not_mem_nil
  · exact ⟨hColumns ▸ hc, hHandle⟩

/-- From `w` to `w'` only the places `T` and new ones changed, and what was
registered is new. No old parameter got a statement handle, and result sets are
made on handles that are there. -/
structure Touches (n : Nat) (T : Place → Prop) (w w' : World) : Prop where
  cfg     : w'.cfg = w.cfg
  outcome : w'.outcome = w.outcome
  conn    : w'.conn = w.conn
  hosts   : Hosts w w'
  same    : ∀ place, place.Below n → ¬ T place → w.SameIn w' place
  handles : ∀ p < n, (w.params p).m_rsHandle = none → (w'.params p).m_rsHandle = none
  madeOn  : ∀ r h, (w'.rsets r).m_rsHandle = some h →
    (w.rsets r).m_rsHandle = some h ∨ h < w'.fresh
  binds   : ∀ h, ∀ e ∈ (w'.oci.stmt h).binds, e ∈ (w.oci.stmt h).binds ∨
    ∃ p, n ≤ p ∧ p < w'.fresh ∧ e.2.BelongsTo p

variable {T U : Place → Prop}

theorem Touches.fresh (h : Touches n T w w') : w.fresh ≤ w'.fresh := h.hosts.fresh

theorem Touches.refl (n : Nat) (T : Place → Prop) (w : World) : Touches n T w w :=
  ⟨rfl, rfl, rfl, frame_hosts.refl w, fun place _ _ => sameIn_refl w place, fun _ _ h => h,
    fun _ _ hh => .inl hh, fun _ _ he => .inl he⟩

theorem Touches.trans (h₁ : Touches n T w w₁) (h₂ : Touches n T w₁ w₂) : Touches n T w w₂ where
  cfg := h₂.cfg.trans h₁.cfg
  outcome := h₂.outcome.trans h₁.outcome
  conn := h₂.conn.trans h₁.conn
  hosts := frame_hosts.trans h₁.hosts h₂.hosts
  same place hOld hT := sameIn_trans (h₁.same place hOld hT) (h₂.same place hOld hT)
  handles p hp hNone := h₂.handles p hp (h₁.handles p hp hNone)
  madeOn r h hh := by
    rcases h₂.madeOn r h hh with hh | hLt
    · exact (h₁.madeOn r h hh).imp_right fun hLt => Nat.lt_of_lt_of_le hLt h₂.fresh
    · exact .inr hLt
  binds h e he := by
    rcases h₂.binds h e he with he | hNew
    · refine (h₁.binds h e he).imp_right fun hNew => ?_
      obtain ⟨p, hp, hLt, hReg⟩ := hNew
      exact ⟨p, hp, Nat.lt_of_lt_of_le hLt h₂.fresh, hReg⟩
    · exact .inr hNew

theorem Touches.mono (h₁ : Touches n T w w₁) (hTU : ∀ place, place.Below n → T place → U place) :
    Touches n U w w₁ :=
  { h₁ with same := fun place hOld hU => h₁.same place hOld fun hT => hU (hTU place hOld hT) }

theorem frame_touches (n : Nat) (T : Place → Prop) : Frame (Touches n T) :=
  ⟨Touches.refl n T, Touches.trans⟩

/-- The numbers from `n` on are not handed out before the call. -/
def Growing (n : Nat) (T : Place → Prop) (w w' : World) : Prop := n ≤ w.fresh → Touches n T w w'

theorem frame_growing (n : Nat) (T : Place → Prop) : Frame (Growing n T) where
  refl w _ := .refl n T w
  trans hst htu hn := (hst hn).trans (htu (Nat.le_trans hn (hst hn).fresh))

-- ---------------------------------------------------------------------------
-- Single steps
-- ---------------------------------------------------------------------------

/-- Only the supply of numbers and the trace change. -/
theorem touches_supply (hSame : w' = { w with fresh := w'.fresh, trace := w'.trace })
    (hFresh : w.fresh ≤ w'.fresh)
    (hReleased : ∀ x, Released w'.trace x ↔ Released w.trace x) : Touches n T w w' := by
  rw [hSame]
  refine ⟨rfl, rfl, rfl, hosts_of_settled hFresh (fun _ _ _ hd => hd) fun _ => .same rfl rfl,
    fun place _ _ => ?_, fun _ _ h => h, fun _ _ hh => .inl hh, fun _ _ he => .inl he⟩
  cases place with
  | object x =>
    refine ⟨?_, fun _ => rfl, hReleased x⟩
    obtain ⟨kind, id⟩ := x
    cases kind <;> first | exact rfl | trivial
  | cursor h => exact rfl
  | binds h => exact rfl

theorem touches_uses (w : World) (rs : List Res) :
    Touches n T w { w with trace := rs.map .use ++ w.trace } :=
  touches_supply rfl (Nat.le_refl _) fun _ => released_uses rs

/-- Only records of objects change, those of `C`. -/
theorem touches_objects {C : Res → Prop} (hSame : w' = { w with
      stmts := w'.stmts, params := w'.params, rsets := w'.rsets, cols := w'.cols
      trace := w'.trace })
    (hRsets : ∀ r, (w.rsets r).Settled (w'.rsets r))
    (hParams : ∀ p < n, (w.params p).m_rsHandle = none → (w'.params p).m_rsHandle = none)
    (hC : ∀ x, C x → x.id < n → T (.object x))
    (hOthers : ∀ x, ¬ C x → SameAt w w' x ∧ (Released w'.trace x ↔ Released w.trace x)) :
    Touches n T w w' := by
  have hOci : w'.oci = w.oci := by rw [hSame]
  have hFresh : w.fresh ≤ w'.fresh := by rw [hSame]
  refine ⟨by rw [hSame], by rw [hSame], by rw [hSame], hosts_of_settled hFresh ?_ hRsets,
    fun place hOld hT => ?_, hParams, fun r h hh => .inl ((hRsets r).2 h hh), ?_⟩
  · rw [hOci]
    exact fun _ _ _ hd => hd
  · cases place with
    | object x =>
      obtain ⟨hSame, hReleased⟩ := hOthers x fun hx => hT (hC x hx hOld)
      exact ⟨hSame, fun _ => by rw [hOci], hReleased⟩
    | cursor h =>
      show w'.oci.stmt h = _
      rw [hOci]
    | binds h =>
      show (w'.oci.stmt h).binds = _
      rw [hOci]
  · rw [hOci]
    exact fun _ _ he => .inl he

theorem touches_modifyRs (w : World) (rs : ResultSet)
    (hr : r < n → T (.object ⟨.resultSet, r⟩)) (hSettled : (w.rsets r).Settled rs) :
    Touches n T w { w with rsets := Function.update w.rsets r rs } := by
  refine touches_objects (C := (· = ⟨.resultSet, r⟩)) rfl (fun r' => ?_) (fun _ _ h => h)
    (fun x hx hOld => by subst hx; exact hr hOld) ?_
  · by_cases hr' : r' = r
    · subst hr'
      simpa using hSettled
    · exact .same (by simp [hr']) (by simp [hr'])
  · rintro ⟨kind, id⟩ hne
    refine ⟨?_, Iff.rfl⟩
    cases kind <;> first
      | exact Function.update_of_ne (fun heq : id = r => hne (by rw [heq])) ..
      | exact rfl
      | trivial

theorem touches_modifyStmt (w : World) (st : Statement)
    (hs : s < n → T (.object ⟨.statement, s⟩)) :
    Touches n T w { w with stmts := Function.update w.stmts s st } := by
  refine touches_objects (C := (· = ⟨.statement, s⟩)) rfl (fun _ => .same rfl rfl)
    (fun _ _ h => h) (fun x hx hOld => by subst hx; exact hs hOld) ?_
  rintro ⟨kind, id⟩ hne
  refine ⟨?_, Iff.rfl⟩
  cases kind <;> first
    | exact Function.update_of_ne (fun heq : id = s => hne (by rw [heq])) ..
    | exact rfl
    | trivial

theorem touches_modifyParam (w : World) (param : Parameter)
    (hp : p < n → T (.object ⟨.parameter, p⟩))
    (hHandle : p < n → param.m_rsHandle = (w.params p).m_rsHandle) :
    Touches n T w { w with params := Function.update w.params p param } := by
  refine touches_objects (C := (· = ⟨.parameter, p⟩)) rfl (fun _ => .same rfl rfl)
    (fun p' hLt hNone => ?_) (fun x hx hOld => by subst hx; exact hp hOld) ?_
  · by_cases hp' : p' = p
    · subst hp'
      simpa using (hHandle hLt).trans hNone
    · simpa [hp'] using hNone
  · rintro ⟨kind, id⟩ hne
    refine ⟨?_, Iff.rfl⟩
    cases kind <;> first
      | exact Function.update_of_ne (fun heq : id = p => hne (by rw [heq])) ..
      | exact rfl
      | trivial

/-- The state of one statement handle changes. -/
theorem touches_stmtState (w : World) (st : StmtState) (execs : Nat)
    (hCursor : h < n → T (.cursor h) ∨ st = { w.oci.stmt h with binds := st.binds })
    (hBinds : h < n → T (.binds h) ∨ st.binds = (w.oci.stmt h).binds)
    (hDefines : st.defines = (w.oci.stmt h).defines ∨ st.defines = fun _ => none)
    (hNew : ∀ e ∈ st.binds, e ∈ (w.oci.stmt h).binds ∨
      ∃ p, n ≤ p ∧ p < w.fresh ∧ e.2.BelongsTo p) :
    Touches n T w { w with oci := { w.oci with
      execs := execs
      stmt := Function.update w.oci.stmt h st } } := by
  refine ⟨rfl, rfl, rfl, hosts_of_settled (Nat.le_refl _) (fun h' pos c hd => ?_)
    (fun _ => .same rfl rfl), fun place hOld hT => ?_, fun _ _ h => h, fun _ _ hh => .inl hh,
    fun h' e he => ?_⟩
  · by_cases hh : h' = h
    · subst hh
      simp only [Function.update_self] at hd
      rcases hDefines with hSame | hNone
      · exact hSame ▸ hd
      · rw [hNone] at hd
        cases hd
    · simpa only [Function.update_of_ne hh] using hd
  · cases place with
    | object y =>
      refine ⟨?_, fun _ => rfl, Iff.rfl⟩
      obtain ⟨kind, id⟩ := y
      cases kind <;> first | exact rfl | trivial
    | cursor h' =>
      show Function.update w.oci.stmt h st h' = { w.oci.stmt h' with
        binds := (Function.update w.oci.stmt h st h').binds }
      by_cases hh : h' = h
      · subst hh
        simp only [Function.update_self]
        exact (hCursor hOld).resolve_left hT
      · simp only [Function.update_of_ne hh]
    | binds h' =>
      show (Function.update w.oci.stmt h st h').binds = _
      by_cases hh : h' = h
      · subst hh
        simp only [Function.update_self]
        exact (hBinds hOld).resolve_left hT
      · simp only [Function.update_of_ne hh]
  · by_cases hh : h' = h
    · subst hh
      simp only [Function.update_self] at he
      exact hNew e he
    · simp only [Function.update_of_ne hh] at he
      exact .inl he

-- ---------------------------------------------------------------------------
-- Releases
-- ---------------------------------------------------------------------------

/-- Result sets lose their columns or keep them, and no parameter gets a
statement handle. -/
structure Sheds (w w' : World) : Prop where
  rsets  : ∀ r, (w.rsets r).Settled (w'.rsets r)
  params : ∀ p, (w.params p).m_rsHandle = none → (w'.params p).m_rsHandle = none

theorem ResultSet.Settled.trans {rs rs₁ rs₂ : ResultSet} (h₁ : rs.Settled rs₁)
    (h₂ : rs₁.Settled rs₂) : rs.Settled rs₂ := by
  refine ⟨?_, fun h hh => h₁.2 h (h₂.2 h hh)⟩
  rcases h₂.1 with hNone | ⟨hColumns, hHandle⟩
  · exact .inl hNone
  · rw [hColumns, hHandle]
    exact h₁.1

theorem frame_sheds : Frame Sheds where
  refl _ := ⟨fun _ => .same rfl rfl, fun _ h => h⟩
  trans hst htu := ⟨fun r => (hst.rsets r).trans (htu.rsets r),
    fun p h => htu.params p (hst.params p h)⟩

theorem sheds_of_eq (hRsets : w'.rsets = w.rsets) (hParams : w'.params = w.params) :
    Sheds w w' := by
  refine ⟨fun r => .same (by rw [hRsets]) (by rw [hRsets]), fun p hNone => ?_⟩
  rw [hParams, hNone]

theorem sheds_modifyRs (r : Nat) {f : ResultSet → ResultSet}
    (hf : ∀ rs : ResultSet, rs.Settled (f rs)) : Respects Sheds (modifyRs r f) := by
  refine respects_modify fun w => ⟨fun r' => ?_, fun _ h => h⟩
  by_cases hr : r' = r
  · subst hr
    simpa using hf _
  · exact .same (by simp [hr]) (by simp [hr])

theorem sheds_modifyParam (p : Nat) {f : Parameter → Parameter}
    (hf : ∀ param, param.m_rsHandle = none → (f param).m_rsHandle = none) :
    Respects Sheds (modifyParam p f) := by
  refine respects_modify fun w => ⟨fun _ => .same rfl rfl, fun p' hNone => ?_⟩
  by_cases hp : p' = p
  · subst hp
    simpa using hf _ hNone
  · simpa [hp] using hNone

theorem sheds_releaseIf {release : Res → M Unit} (hRelease : ∀ x, Respects Sheds (release x))
    (kind : Kind) (object : Option Nat) : Respects Sheds (releaseIf release kind object) := by
  cases object with
  | none => exact respects_pure frame_sheds ()
  | some o => exact hRelease ⟨kind, o⟩

/-- **`ReleaseObj`** sheds, however deep it goes. -/
theorem sheds_releaseObj (depth : Nat) (x : Res) : Respects Sheds (releaseObj depth x) := by
  have hR := frame_sheds
  have hFree : ∀ handle, Respects Sheds (freeStmtHandle handle) := by
    intro handle w
    cases handle with
    | none => exact hR.refl w
    | some h =>
      simp only [freeStmtHandle, ociHandleFree, wp_bind, wp_pass, wp_answer, wp_release, wp_pure]
      exact sheds_of_eq rfl rfl
  induction depth generalizing x with
  | zero => exact respects_pure hR ()
  | succ depth ih =>
    obtain ⟨kind, id⟩ := x
    have hLast : ∀ cleanUp : M Unit, Respects Sheds cleanUp →
        Respects Sheds (cleanUp >>= fun _ => release ⟨kind, id⟩ true) := fun _ hCleanUp =>
      respects_bind hR hCleanUp fun _ w => sheds_of_eq rfl rfl
    have hStmt : ∀ s f, Respects Sheds (modifyStmt s f) := fun s f =>
      respects_modify fun w => sheds_of_eq rfl rfl
    cases kind with
    | resultSet =>
      refine hLast _ (respects_get_bind fun w => ?_)
      refine respects_bind hR (respects_forM hR (fun c => ih _) _) (fun _ => ?_) w
      refine respects_bind hR (sheds_modifyRs _ fun _ => ⟨.inl rfl, fun _ hh => by cases hh⟩)
        fun _ => ?_
      refine respects_bind hR (sheds_releaseIf ih _ _) fun _ => ?_
      exact sheds_modifyRs _ fun _ => .same rfl rfl
    | statement =>
      refine hLast _ (respects_get_bind fun w => ?_)
      refine respects_bind hR (hFree _) (fun _ => ?_) w
      refine respects_bind hR (hStmt _ _) fun _ => ?_
      exact respects_bind hR (respects_forM hR (fun p => ih _) _) fun _ => hStmt _ _
    | parameter =>
      refine hLast _ (respects_get_bind fun w => ?_)
      refine respects_bind hR (sheds_releaseIf ih _ _) (fun _ => ?_) w
      refine respects_bind hR (sheds_modifyParam _ fun _ h => h) fun _ => ?_
      exact respects_bind hR (hFree _) fun _ => sheds_modifyParam _ fun _ _ => rfl
    | column => exact hLast _ (respects_modify fun w => sheds_of_eq rfl rfl)
    | _ => exact hLast _ (respects_pure hR ())

/-- A result set that was released has no columns. -/
theorem columns_releaseObj (depth r : Nat) (w : World) :
    wp (releaseObj (depth + 1) ⟨.resultSet, r⟩) (fun _ w' => (w'.rsets r).m_columns = [])
      (fun _ _ => True) w := by
  rw [releaseObj, wp_bind, ResultSet.cleanUpWith, wp_bind, wp_get, wp_bind]
  refine wp_mono (wp_trivial _ _) (fun _ w₁ _ => ?_) (fun _ _ _ => trivial)
  rw [wp_bind, wp_modifyRs, wp_bind]
  refine wp_mono (sheds_releaseIf (sheds_releaseObj depth) _ _ _) (fun _ w₂ h₂ => ?_)
    (fun _ _ _ => trivial)
  rw [wp_modifyRs, wp_release]
  simp only [Function.update_self]
  have hSettled := (h₂.rsets r).1
  simp only [Function.update_self] at hSettled
  exact hSettled.elim id fun h => h.1

/-- Objects were released. -/
theorem Frees.touches {own : List Res} (hF : Frees w w' own own) (hS : Sheds w w') (n : Nat) :
    Touches n (fun place => ∃ y ∈ own, place = .object y) w w' :=
  touches_objects (C := (· ∈ own)) hF.same hS.rsets (fun p _ => hS.params p)
    (fun x hx _ => ⟨x, hx, rfl⟩) fun x hx => ⟨hF.untouched x hx, hF.released x hx⟩

/-- What was made since `n` is released. -/
theorem Frees.touches_new {own : List Res} (hF : Frees w w' own own) (hS : Sheds w w')
    (hNew : ∀ y ∈ own, n ≤ y.id) : Touches n T w w' := by
  refine (hF.touches hS n).mono fun place hOld hm => ?_
  obtain ⟨y, hy, rfl⟩ := hm
  exact absurd hOld (Nat.not_lt_of_le (hNew y hy))

-- ---------------------------------------------------------------------------
-- Executions
-- ---------------------------------------------------------------------------

section Executions

variable {E : OraError → World → Prop}

theorem touches_throw {α : Type} (result : OciResult) (errorHandle : Option Nat)
    (format : Option TString) :
    Respects (Touches n T) (throwOnError result errorHandle format : M α) :=
  fun w => wp_throwOnError fun rs _ => touches_uses w rs

theorem touches_throwEnv {α : Type} (result : OciResult) (envHandle : Option Nat)
    (format : Option TString) : Respects (Touches n T) (throwOnEnv result envHandle format : M α) :=
  fun w => wp_throwOnEnv fun rs _ => touches_uses w rs

theorem touches_passAnswer (rs : List Res) (call : OciCall) :
    Respects (Touches n T) (do pass rs; answer call) :=
  fun w => touches_uses w rs

/-- A new cursor, on the handle `h`. -/
theorem wp_openCursor_touches (hh : h < n → T (.cursor h)) :
    wp (openCursor h) (fun _ w' => Touches n T w w' ∧ w'.params = w.params ∧
      (w'.oci.stmt h).binds = (w.oci.stmt h).binds) E w := by
  refine ⟨touches_stmtState w { w.oci.stmt h with
    exec := w.oci.execs + 1, query := w.cfg.answers (w.oci.execs + 1), delivered := 0 }
    (w.oci.execs + 1) (fun hLt => .inl (hh hLt)) (fun _ => .inr rfl) (.inl rfl)
    fun _ he => .inl he, rfl, ?_⟩
  simp

/-- The statement handles an execution on the handle `h` opens cursors on. -/
def World.OpensOn (w : World) (h h' : Nat) : Prop :=
  h' = h ∨ ∃ e ∈ (w.oci.stmt h).binds, ∃ p, e.2.valuep = .rsHandle p ∧
    (w.params p).m_rsHandle = some h'

theorem wp_openBounds_touches {params : Nat → Parameter} (hParams : w.params = params)
    (binds : List (TString × Registration))
    (hBinds : ∀ e ∈ binds, ∀ p h', e.2.valuep = .rsHandle p → (params p).m_rsHandle = some h' →
      h' < n → T (.cursor h')) :
    wp (binds.forM fun e => openBound e.2) (fun _ w' => Touches n T w w') E w := by
  refine wp_mono (wp_forM (fun _ w₁ => Touches n T w w₁ ∧ w₁.params = params) binds
    (fun done e rest w₁ hSplit hDone => ?_) ⟨.refl n T w, hParams⟩) (fun _ _ h => h.1)
    (fun _ _ h => h)
  have he : e ∈ binds := by
    rw [hSplit]
    exact List.mem_append_right _ List.mem_cons_self
  rw [openBound, wp_bind, wp_get, hDone.2]
  cases hAddr : e.2.valuep with
  | rsHandle p =>
    dsimp only
    cases hHandle : (params p).m_rsHandle with
    | none => exact hDone
    | some h' =>
      refine wp_mono (wp_openCursor_touches (hBinds e he p h' hAddr hHandle)) ?_ (fun _ _ h => h)
      rintro _ w₂ ⟨h₂, hSame, -⟩
      exact ⟨hDone.1.trans h₂, hSame.trans hDone.2⟩
  | buffer => exact hDone
  | indicator => exact hDone
  | dataLen => exact hDone

theorem wp_ociStmtExecute_touches {stmt : Option Nat} (svc error : Option Nat)
    (hOpens : ∀ h, stmt = some h → ∀ h', w.OpensOn h h' → h' < n → T (.cursor h')) :
    wp (ociStmtExecute svc stmt error) (fun _ w' => Touches n T w w') E w := by
  have hUses := touches_uses (n := n) (T := T) w
    (ptr .svcctx svc ++ ptr .stmt stmt ++ ptr .error error)
  simp only [ociStmtExecute, wp_bind, wp_pass, wp_answer]
  rw [wp_ite]
  split
  · cases stmt with
    | none => exact hUses
    | some h =>
      simp only [wp_bind]
      refine wp_mono (wp_openCursor_touches (hOpens h rfl h (.inl rfl))) ?_ (fun _ _ h => h)
      rintro _ w₁ ⟨h₁, hParams, hBinds⟩
      rw [wp_get, hBinds]
      refine wp_mono (wp_openBounds_touches hParams _ fun e he p h' hp hh' =>
        hOpens h rfl h' (.inr ⟨e, he, p, hp, hh'⟩)) (fun _ w₂ h₂ => ?_) (fun _ _ h => h)
      exact (hUses.trans h₁).trans h₂
  · exact hUses

/-- **An execution** touches its statement, and the cursors it opens. -/
theorem touches_executePrepared (hs : s < n → T (.object ⟨.statement, s⟩))
    (hOpens : ∀ h, (w.stmts s).m_stmtHandle = some h → ∀ h', w.OpensOn h h' → h' < n →
      T (.cursor h')) :
    wp (Statement.executePrepared s) (fun _ w' => Touches n T w w')
      (fun _ w' => Touches n T w w') w := by
  rw [Statement.executePrepared, wp_bind, wp_get, wp_bind]
  refine wp_mono (wp_ociStmtExecute_touches _ _ hOpens) (fun result w₁ h₁ => ?_) (fun _ _ h => h)
  rw [wp_ite]
  split
  · rw [wp_modifyStmt]
    exact h₁.trans (touches_modifyStmt w₁ _ hs)
  · exact wp_throwOnError fun rs _ => h₁.trans (touches_uses w₁ rs)

end Executions

-- ---------------------------------------------------------------------------
-- Fetches
-- ---------------------------------------------------------------------------

/-- What a fetch for a result set on the handle `h` may change. -/
structure FetchesInto (n : Nat) (T : Place → Prop) (w : World) (r : Nat) : Prop where
  object : r < n → T (.object ⟨.resultSet, r⟩)
  cursor : ∀ h, (w.rsets r).m_rsHandle = some h → h < n → T (.cursor h)
  cols   : ∀ h, (w.rsets r).m_rsHandle = some h → ∀ c ∈ (w.oci.stmt h).targets, c < n →
    T (.object ⟨.column, c⟩)

/-- The fetches made for the other result sets are what they were. -/
theorem fetchesOf_of_onBehalf {new : List ReadEvent} {r' : Nat}
    (hNew : ∀ e ∈ new, ReadEvent.OnBehalf w r e) (hr : r' ≠ r) (log : List ReadEvent) :
    fetchesOf r' (new ++ log) = fetchesOf r' log := by
  unfold fetchesOf
  rw [List.countP_append, Nat.add_eq_right, List.countP_eq_zero]
  intro e he
  obtain ⟨h, -, rfl | ⟨wrote, -, rfl⟩⟩ := hNew e he
  · exact Bool.false_ne_true
  · simpa using Ne.symm hr

/-- A column that no position of the query is defined on gets nothing. -/
theorem deliver_of_not_target {st : StmtState} {c : Nat} (hNot : c ∉ st.targets)
    (k : Nat) (slots : Nat → Slot) : st.deliver k c slots = slots := by
  have hColumn : st.columnOf c = none := by
    rw [StmtState.columnOf, List.find?_eq_none]
    intro pos hPos hDefined
    exact hNot (List.mem_filterMap.mpr ⟨pos, hPos, of_decide_eq_true hDefined⟩)
  rw [StmtState.deliver, hColumn]

/-- A fetch for the result set `r` delivers to the columns its query is defined
on, and reads the cursor of no other handle. -/
structure Delivers (r : Nat) (w w' : World) : Prop where
  cols : ∀ c, (∀ h, (w.rsets r).m_rsHandle = some h → c ∉ (w.oci.stmt h).targets) →
    w'.cols c = w.cols c
  stmt : ∀ h, (w.rsets r).m_rsHandle ≠ some h → w'.oci.stmt h = w.oci.stmt h

theorem delivers_of_eq (hCols : w'.cols = w.cols) (hStmt : w'.oci.stmt = w.oci.stmt) :
    Delivers r w w' :=
  ⟨fun c _ => congrFun hCols c, fun h _ => congrFun hStmt h⟩

theorem Delivers.step (hD : Delivers r w w₁) (hCols : w'.cols = w₁.cols)
    (hStmt : w'.oci.stmt = w₁.oci.stmt) : Delivers r w w' :=
  ⟨fun c hc => (congrFun hCols c).trans (hD.cols c hc),
    fun h hh => (congrFun hStmt h).trans (hD.stmt h hh)⟩

theorem delivers_ociStmtFetch {E : OraError → World → Prop} (r k : Nat) :
    wp (ociStmtFetch r (w.rsets r).m_rsHandle w.conn.m_errorHandle k)
      (fun _ w' => Delivers r w w') E w := by
  cases hHandle : (w.rsets r).m_rsHandle with
  | none => exact delivers_of_eq rfl rfl
  | some h =>
    refine wp_ociStmtFetch (fun _ _ _ => ⟨fun c hc => ?_, fun h' hh' => ?_⟩)
      (fun _ => delivers_of_eq rfl rfl)
    · simp only [World.fetched, deliver_of_not_target (hc h hHandle)]
    · have hne : h' ≠ h := fun heq => hh' (heq ▸ hHandle)
      simp only [World.fetched, Function.update_of_ne hne]

theorem delivers_fetchRows (r : Nat) :
    Respects (Delivers r) (ResultSet.fetchRows r) := by
  refine respects_get_bind fun w => ?_
  dsimp only
  rw [wp_bind]
  refine wp_mono (delivers_ociStmtFetch r _) (fun result w₁ h₁ => ?_) (fun _ _ h => h)
  rw [wp_ite]
  split
  · rw [wp_bind]
    refine wp_mono (wp_rowsCount_read r w₁) (fun rows w₂ hRead => ?_) (fun _ w₂ hRead => ?_)
    · rw [wp_modifyRs]
      exact h₁.step (by rw [hRead.2.same]) (by rw [hRead.2.same])
    · exact h₁.step (by rw [hRead.same]) (by rw [hRead.same])
  · exact wp_throwOnError fun rs _ => h₁.step rfl rfl

theorem delivers_next (r : Nat) : Respects (Delivers r) (ResultSet.next r) := by
  intro w
  have hMoved : Delivers r w (w.moved r) := delivers_of_eq rfl rfl
  have hFetch : ∀ w', Delivers r (w.moved r) w' → Delivers r w w' := by
    intro w' hD
    have hHandle : ((w.moved r).rsets r).m_rsHandle = (w.rsets r).m_rsHandle := by
      simp [World.moved, ResultSet.advanced]
    exact ⟨fun c hc => hD.cols c (hHandle ▸ hc), fun h hh => hD.stmt h (hHandle ▸ hh)⟩
  refine wp_next (fun _ _ => hMoved) (fun _ _ => ?_) (fun _ => hMoved)
  exact wp_mono (delivers_fetchRows r _) (fun _ w' hD => hFetch w' hD) (fun _ w' hD => hFetch w' hD)

/-- Rows may have been fetched for the result set `r`, into its footprint. -/
theorem Reading.touches (hR : Reading r w w') (hT : FetchesInto n T w r) (hD : Delivers r w w') :
    Touches n T w w' := by
  have hFresh : w.fresh ≤ w'.fresh := by rw [hR.same]
  have hParams : w'.params = w.params := by rw [hR.same]
  have hSettled : ∀ r', (w.rsets r').Settled (w'.rsets r') := by
    intro r'
    rw [hR.rsets]
    by_cases hr : r' = r
    · subst hr
      exact .same (by simp) (by simp)
    · exact .same (by simp [hr]) (by simp [hr])
  refine ⟨by rw [hR.same], by rw [hR.same], by rw [hR.same], hosts_of_settled hFresh
    (fun h pos c hd => ?_) hSettled, fun place hOld hNot => ?_,
    fun p _ hNone => by rw [hParams, hNone], fun r' h hh => .inl ((hSettled r').2 h hh),
    fun h e he => ?_⟩
  · rwa [hR.stmt] at hd
  · cases place with
    | object y =>
      refine ⟨?_, fun hKind => ?_, hR.trace.released y⟩
      · obtain ⟨kind, id⟩ := y
        cases kind with
        | resultSet =>
          have hne : id ≠ r := fun heq => hNot (heq ▸ hT.object (heq ▸ hOld))
          show w'.rsets id = w.rsets id
          rw [hR.rsets, Function.update_of_ne hne]
        | statement =>
          show w'.stmts id = w.stmts id
          rw [hR.same]
        | parameter =>
          show w'.params id = w.params id
          rw [hR.same]
        | column =>
          exact hD.cols id fun h hh hm => hNot (hT.cols h hh id hm hOld)
        | _ => trivial
      · obtain ⟨kind, id⟩ := y
        obtain rfl : kind = .resultSet := hKind
        have hne : id ≠ r := fun heq => hNot (heq ▸ hT.object (heq ▸ hOld))
        obtain ⟨new, hLog, hNew⟩ := hR.log
        rw [hLog]
        exact fetchesOf_of_onBehalf hNew hne _
    | cursor h =>
      have hne : (w.rsets r).m_rsHandle ≠ some h := fun hh => hNot (hT.cursor h hh hOld)
      show w'.oci.stmt h = _
      rw [hD.stmt h hne]
    | binds h =>
      show (w'.oci.stmt h).binds = _
      rw [hR.stmt]
  · rw [hR.stmt] at he
    exact .inl he

theorem touches_fetchRows (hT : FetchesInto n T w r) :
    wp (ResultSet.fetchRows r) (fun _ w' => Touches n T w w') (fun _ w' => Touches n T w w') w :=
  wp_mono (wp_and (reading_fetchRows r w) (delivers_fetchRows r w))
    (fun _ _ h => h.1.touches hT h.2) (fun _ _ h => h.1.touches hT h.2)

/-- **`Next`** touches its result set, the cursor this one is on, and the
columns the query is defined on. -/
theorem touches_next (hT : FetchesInto n T w r) :
    wp (ResultSet.next r) (fun _ w' => Touches n T w w') (fun _ w' => Touches n T w w') w :=
  wp_mono (wp_and (reading_next r w) (delivers_next r w))
    (fun _ _ h => h.1.touches hT h.2) (fun _ _ h => h.1.touches hT h.2)

end Epol
