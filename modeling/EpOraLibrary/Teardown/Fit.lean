import EpOraLibrary.Ownership.Application

/-!
# EpOraLibrary — which handles may be passed

* `Deletes`, `deleting_releaseObj` — `ReleaseObj` deletes objects and frees
  statement handles, and does nothing else.
* `Fit` — no call was passed a freed handle so far, the handles of the
  connection are there, and every statement handle comes from its environment.
* `Fit.live` — a statement handle that is accounted for is there.
* `Fit.releaseObj`, `Gains.fit_release` — releasing what is owned keeps `Fit`.
-/

namespace Epol

open Ledger Prog

variable {w w' w₁ w₂ : World} {conn : Connection} {x y : Res} {hs : List Nat}

-- ---------------------------------------------------------------------------
-- What ReleaseObj does to the handles
-- ---------------------------------------------------------------------------

/-- What no handle is a child of: the objects, which are deleted without a call
to OCI, and the descriptors. -/
def Kind.isLeaf : Kind → Bool
  | .descriptor | .statement | .resultSet | .column | .parameter => true
  | _ => false

theorem not_leaf_of_rank {k : Kind} (hk : k.rank < 5) : k.isLeaf ≠ true := by
  cases k <;> first | exact Bool.false_ne_true | exact absurd hk (by decide)

/-- Leaves were given back, and the statement handles `hs` were passed to the
call that frees them. -/
structure Deletes (hs : List Nat) (w w' : World) : Prop where
  outcome : w'.outcome = w.outcome
  cleanup : Cleanup (fun x => decide (w.outcome (.handleFree x) = .success))
    (fun x => x.kind.isLeaf = true) w.trace (hs.map (Res.mk .stmt)) w'.trace

/-- Some handles were. -/
def Deleting (w w' : World) : Prop := ∃ hs, Deletes hs w w'

theorem deletes_refl (w : World) : Deletes [] w w := ⟨rfl, .refl⟩

theorem Deletes.trans {hs' : List Nat} (h : Deletes hs w w₁) (h' : Deletes hs' w₁ w₂) :
    Deletes (hs' ++ hs) w w₂ := by
  refine ⟨h'.outcome.trans h.outcome, ?_⟩
  have hLater := h'.cleanup
  rw [h.outcome] at hLater
  rw [List.map_append]
  exact h.cleanup.trans hLater

/-- A leaf is given back. -/
theorem deletes_release (w : World) (hx : x.kind.isLeaf = true) (done : Bool) :
    Deletes [] w { w with trace := .release x done :: w.trace } :=
  ⟨rfl, .give x done hx .refl⟩

theorem frame_deleting : Frame Deleting where
  refl w := ⟨[], deletes_refl w⟩
  trans {s t u} hst htu := by
    obtain ⟨hs, h⟩ := hst
    obtain ⟨hs', h'⟩ := htu
    exact ⟨hs' ++ hs, h.trans h'⟩

theorem deleting_freeStmtHandle (handle : Option Nat) :
    Respects Deleting (freeStmtHandle handle) := by
  intro w
  cases handle with
  | none => exact frame_deleting.refl w
  | some h =>
    simp only [freeStmtHandle, ociHandleFree, wp_bind, wp_pass, wp_answer, wp_release, wp_pure]
    exact ⟨[h], rfl, .free (⟨.stmt, h⟩ : Res) .refl⟩

/-- A change of the objects alone. -/
theorem deleting_modify {f : World → World} (hOutcome : ∀ w, (f w).outcome = w.outcome)
    (hTrace : ∀ w, (f w).trace = w.trace) : Respects Deleting (modify f : M Unit) := by
  refine respects_modify fun w => ⟨[], hOutcome w, ?_⟩
  rw [hTrace]
  exact .refl

theorem deleting_modifyRs (r : Nat) (f : ResultSet → ResultSet) :
    Respects Deleting (modifyRs r f) :=
  deleting_modify (fun _ => rfl) fun _ => rfl

theorem deleting_modifyStmt (s : Nat) (f : Statement → Statement) :
    Respects Deleting (modifyStmt s f) :=
  deleting_modify (fun _ => rfl) fun _ => rfl

theorem deleting_modifyParam (p : Nat) (f : Parameter → Parameter) :
    Respects Deleting (modifyParam p f) :=
  deleting_modify (fun _ => rfl) fun _ => rfl

theorem deleting_releaseIf {release : Res → M Unit} {kind : Kind}
    (hRelease : ∀ o, Respects Deleting (release ⟨kind, o⟩)) (object : Option Nat) :
    Respects Deleting (releaseIf release kind object) := by
  cases object with
  | none => exact respects_pure frame_deleting ()
  | some o => exact hRelease o

/-- **`ReleaseObj`** deletes objects and frees statement handles. -/
theorem deleting_releaseObj (depth : Nat) (hx : x.kind.isLeaf = true) :
    Respects Deleting (releaseObj depth x) := by
  induction depth generalizing x with
  | zero => exact respects_pure frame_deleting ()
  | succ depth ih =>
    obtain ⟨kind, id⟩ := x
    have hLast : ∀ cleanUp : M Unit, Respects Deleting cleanUp →
        Respects Deleting (cleanUp >>= fun _ => release ⟨kind, id⟩ true) := fun _ hCleanUp =>
      respects_bind frame_deleting hCleanUp fun _ w => ⟨[], deletes_release w hx true⟩
    cases kind with
    | resultSet =>
      refine hLast _ (respects_get_bind fun w => ?_)
      refine respects_bind frame_deleting (respects_forM frame_deleting (fun c => ih rfl) _)
        (fun _ => ?_) w
      refine respects_bind frame_deleting (deleting_modifyRs id _) fun _ => ?_
      refine respects_bind frame_deleting (deleting_releaseIf (fun s => ih rfl) _) fun _ => ?_
      exact deleting_modifyRs id _
    | statement =>
      refine hLast _ (respects_get_bind fun w => ?_)
      refine respects_bind frame_deleting (deleting_freeStmtHandle _) (fun _ => ?_) w
      refine respects_bind frame_deleting (deleting_modifyStmt id _) fun _ => ?_
      refine respects_bind frame_deleting (respects_forM frame_deleting (fun p => ih rfl) _)
        fun _ => ?_
      exact deleting_modifyStmt id _
    | parameter =>
      refine hLast _ (respects_get_bind fun w => ?_)
      refine respects_bind frame_deleting (deleting_releaseIf (fun r => ih rfl) _) (fun _ => ?_) w
      refine respects_bind frame_deleting (deleting_modifyParam id _) fun _ => ?_
      refine respects_bind frame_deleting (deleting_freeStmtHandle _) fun _ => ?_
      exact deleting_modifyParam id _
    | column => exact hLast _ (deleting_modify (fun _ => rfl) fun _ => rfl)
    | descriptor => exact hLast _ (respects_pure frame_deleting ())
    | _ => cases hx

section Deletes

variable {k : Kind} {h : Nat}

theorem stmt_not_leaf (h : Nat) : (⟨.stmt, h⟩ : Res).kind.isLeaf ≠ true := Bool.false_ne_true

theorem stmt_injective : Function.Injective (Res.mk .stmt) := fun _ _ heq => (Res.mk.inj heq).2

theorem mem_stmts : (⟨.stmt, h⟩ : Res) ∈ hs.map (Res.mk .stmt) ↔ h ∈ hs :=
  List.mem_map_of_injective stmt_injective

/-- What a handle is acquired from is an environment, which is not deleted. -/
theorem Deletes.parent (hw : Minted w.fresh w.trace) (hLeaf : x.kind.isLeaf ≠ true) {p : Res}
    (hp : .acquire x (some p) ∈ w.trace) :
    p.kind.isLeaf ≠ true ∧ p ∉ hs.map (Res.mk .stmt) := by
  obtain ⟨kind, id⟩ := x
  have hKind : p.kind = .env := by
    have hParent := hw.parent hp
    cases kind <;> first | exact hParent | exact absurd rfl hLeaf
  refine ⟨by rw [hKind]; exact Bool.false_ne_true, fun hm => ?_⟩
  obtain ⟨h, -, heq⟩ := List.mem_map.mp hm
  rw [← heq] at hKind
  cases hKind

/-- The handles of the connection stay as they are. -/
theorem Deletes.gone (hDeletes : Deletes hs w w') (hw : Minted w.fresh w.trace)
    (hk : k.rank < 5) : Gone true w'.trace ⟨k, h⟩ ↔ Gone true w.trace ⟨k, h⟩ := by
  have hLeaf := not_leaf_of_rank hk
  rw [hDeletes.cleanup.gone hLeaf fun p hp => Deletes.parent (x := ⟨k, h⟩) hw hLeaf hp]
  refine or_iff_left fun hm => ?_
  obtain ⟨h', -, heq⟩ := List.mem_map.mp hm.1
  rw [← (Res.mk.inj heq).1] at hk
  exact absurd hk (by decide)

/-- **When deleting is safe**: each handle is freed once, and was there. -/
theorem Deletes.safe (hDeletes : Deletes hs w w') (hw : Minted w.fresh w.trace)
    (hSafe : Safe true w.trace) (hNodup : hs.Nodup)
    (hThere : ∀ h ∈ hs, ¬ Gone true w.trace ⟨.stmt, h⟩) : Safe true w'.trace := by
  refine (cleanup_safe hDeletes.cleanup (hNodup.map stmt_injective) fun x hx => ?_).mpr
    ⟨hSafe, fun x hx => ?_⟩
  · obtain ⟨h, -, rfl⟩ := List.mem_map.mp hx
    exact ⟨stmt_not_leaf h, fun p hp => Deletes.parent hw (stmt_not_leaf h) hp⟩
  · obtain ⟨h, hh, rfl⟩ := List.mem_map.mp hx
    exact hThere h hh

/-- What becomes of the statement handles. -/
theorem Deletes.released (hDeletes : Deletes hs w w') :
    Released w'.trace ⟨.stmt, h⟩ ↔ Released w.trace ⟨.stmt, h⟩ ∨
      h ∈ hs ∧ w.outcome (.handleFree ⟨.stmt, h⟩) = .success := by
  rw [hDeletes.cleanup.released (stmt_not_leaf h), decide_eq_true_iff, mem_stmts]

/-- An object that owns nothing twice is deleted with the statement handles it
owns. -/
theorem wp_deletes {E : OraError → World → Prop} {n : Nat} (depth : Nat)
    (hKind : x.kind = .statement ∨ x.kind = .resultSet ∨ x.kind = .parameter)
    (hCursors : w.CursorsBelow n) (hNodup : (w.owned x).Nodup) :
    wp (releaseObj (depth + 5) x) (fun _ w' => Frees w w' (w.owned x) (w.owned x) ∧
      ∃ hs, Deletes hs w w' ∧ hs.Nodup ∧ ∀ h, h ∈ hs ↔ ⟨.stmt, h⟩ ∈ w.owned x) E w := by
  have hLeaf : x.kind.isLeaf = true := by
    rcases hKind with hk | hk | hk <;> rw [hk] <;> rfl
  refine wp_mono (wp_and (wp_releaseObj (E := fun _ _ => False) depth hKind hCursors hNodup)
    (deleting_releaseObj _ hLeaf w)) (fun _ w' ⟨hF, hs, hD⟩ => ?_)
    (fun _ _ hFalse => hFalse.1.elim)
  have hCount : ∀ h, (hs.map (Res.mk .stmt)).count ⟨.stmt, h⟩ = (w.owned x).count ⟨.stmt, h⟩ := by
    intro h
    have hFreed := hF.net ⟨.stmt, h⟩
    rw [hD.cleanup.net (stmt_not_leaf h)] at hFreed
    omega
  refine ⟨hF, hs, hD, ?_, fun h => ?_⟩
  · refine List.Nodup.of_map (Res.mk .stmt) (List.nodup_iff_count_le_one.mpr fun y => ?_)
    by_cases hy : y ∈ hs.map (Res.mk .stmt)
    · obtain ⟨h, -, rfl⟩ := List.mem_map.mp hy
      rw [hCount]
      exact List.nodup_iff_count_le_one.mp hNodup _
    · rw [List.count_eq_zero_of_not_mem hy]
      exact Nat.zero_le _
  · rw [← mem_stmts, ← List.count_pos_iff, hCount, List.count_pos_iff]

end Deletes

-- ---------------------------------------------------------------------------
-- Handles that may be passed
-- ---------------------------------------------------------------------------

/-- Under the connection `conn`: no call was passed a freed handle so far, the
handles of the connection are there, every statement handle comes from its
environment, and none was freed more often than allocated. -/
structure Fit (conn : Connection) (w : World) : Prop where
  same    : w.conn = conn
  minted  : Minted w.fresh w.trace
  safe    : Safe true w.trace
  held    : ∀ {k h}, conn.handle k = some h → ¬ Gone true w.trace ⟨k, h⟩
  rooted  : ∀ {h q}, .acquire ⟨.stmt, h⟩ q ∈ w.trace → q = conn.m_envHandle.map (Res.mk .env)
  counted : ∀ h, 0 ≤ net w.trace ⟨.stmt, h⟩

/-- A statement handle that was not freed is there as long as the environment
is. -/
theorem not_gone_stmt {env : Option Nat} {t : Trace Res} {h : Nat}
    (hRooted : ∀ {q}, .acquire ⟨.stmt, h⟩ q ∈ t → q = env.map (Res.mk .env))
    (hEnv : ∀ e, env = some e → ¬ Released t ⟨.env, e⟩) (hThere : ¬ Released t ⟨.stmt, h⟩) :
    ¬ Gone true t ⟨.stmt, h⟩ := by
  rintro (hReleased | ⟨-, p, hp, hReleased⟩)
  · exact hThere hReleased
  · obtain ⟨e, he, rfl⟩ := Option.map_eq_some_iff.mp (hRooted hp).symm
    exact hEnv e he hReleased

/-- **A statement handle that is accounted for is there.** -/
theorem Fit.live (hw : Fit conn w) {h : Nat} (hNet : 0 < net w.trace ⟨.stmt, h⟩) :
    ¬ Gone true w.trace ⟨.stmt, h⟩ :=
  not_gone_stmt hw.rooted (fun _ he hReleased => hw.held (k := .env) he (.inl hReleased))
    (not_released_of_net (hw.minted.once _) hNet)

theorem Fit.of_eq (hw : Fit conn w) (hConn : w₁.conn = w.conn) (hFresh : w₁.fresh = w.fresh)
    (hTrace : w₁.trace = w.trace) : Fit conn w₁ where
  same := hConn.trans hw.same
  minted := hFresh ▸ hTrace ▸ hw.minted
  safe := hTrace ▸ hw.safe
  held hh := hTrace ▸ hw.held hh
  rooted hm := hw.rooted (hTrace ▸ hm)
  counted h := hTrace ▸ hw.counted h

/-- A call is handed resources that are there. -/
theorem Fit.uses (hw : Fit conn w) {rs : List Res} (hrs : ∀ x ∈ rs, ¬ Gone true w.trace x) :
    Fit conn { w with trace := rs.map .use ++ w.trace } where
  same := hw.same
  minted := hw.minted.uses rs
  safe := (safe_uses rs).mpr ⟨hrs, hw.safe⟩
  held hh := by
    rw [gone_uses]
    exact hw.held hh
  rooted hm := hw.rooted (by simpa using hm)
  counted h := by
    rw [net_uses]
    exact hw.counted h

theorem Fit.passed (hw : Fit conn w) {allowed : List Res} (hConn : w₁.conn = w.conn)
    (hFresh : w₁.fresh = w.fresh) (hPassed : Passed allowed w.trace w₁.trace)
    (hAllowed : ∀ x ∈ allowed, ¬ Gone true w.trace x) : Fit conn w₁ := by
  obtain ⟨us, hTrace, hus⟩ := hPassed
  exact (hw.uses fun x hx => hAllowed x (hus hx)).of_eq hConn hFresh hTrace

/-- A statement handle is allocated from the environment, or a leaf is made. -/
theorem Fit.acquire (hw : Fit conn w) (kind : Kind) (parent : Option Res)
    (hParent : ∀ p, parent = some p → p.kind = kind.parent)
    (hKind : kind.isLeaf = true ∨
      kind = .stmt ∧ parent = conn.m_envHandle.map (Res.mk .env)) :
    Fit conn { w with
      fresh := w.fresh + 1
      trace := .acquire ⟨kind, w.fresh⟩ parent :: w.trace } where
  same := hw.same
  minted := hw.minted.acquire kind hParent
  safe := hw.safe
  held {k h} hh := by
    have hRank := handle_rank hh
    have hNe : (⟨k, h⟩ : Res) ≠ ⟨kind, w.fresh⟩ := fun heq => by
      rw [(Res.mk.inj heq).1] at hRank
      rcases hKind with hLeaf | ⟨rfl, -⟩
      · exact not_leaf_of_rank hRank hLeaf
      · exact absurd hRank (by decide)
    rw [gone_acquire_of_ne hNe]
    exact hw.held hh
  rooted hm := by
    rcases List.mem_cons.mp hm with heq | hm
    · injection heq with hx hq
      rcases hKind with hLeaf | ⟨-, hRoot⟩
      · rw [← (Res.mk.inj hx).1] at hLeaf
        cases hLeaf
      · exact hq.trans hRoot
    · exact hw.rooted hm
  counted h := by
    rw [net_acquire]
    have := hw.counted h
    split <;> omega

/-- **Leaves are given back and statement handles freed** that are accounted
for, each once. -/
theorem Fit.delete (hw : Fit conn w) (hDeletes : Deletes hs w w₁) (hConn : w₁.conn = w.conn)
    (hMinted : Minted w₁.fresh w₁.trace) (hNodup : hs.Nodup)
    (hNet : ∀ h ∈ hs, 0 < net w.trace ⟨.stmt, h⟩) : Fit conn w₁ where
  same := hConn.trans hw.same
  minted := hMinted
  safe := hDeletes.safe hw.minted hw.safe hNodup fun h hh => hw.live (hNet h hh)
  held {k h} hh := by
    rw [hDeletes.gone hw.minted (handle_rank hh)]
    exact hw.held hh
  rooted hm := hw.rooted (hDeletes.cleanup.acquired.mp hm)
  counted h := by
    have hOnce := List.nodup_iff_count_le_one.mp (hNodup.map stmt_injective) ⟨.stmt, h⟩
    have hCounted := hw.counted h
    rw [hDeletes.cleanup.net (stmt_not_leaf h)]
    by_cases hm : h ∈ hs
    · have hPos := hNet h hm
      omega
    · rw [List.count_eq_zero_of_not_mem fun hm' => hm (mem_stmts.mp hm')]
      omega

/-- A leaf is given back. -/
theorem Fit.release (hw : Fit conn w) (hx : x.kind.isLeaf = true) (hLt : x.id < w.fresh)
    (done : Bool) : Fit conn { w with trace := .release x done :: w.trace } :=
  hw.delete (deletes_release w hx done) rfl (hw.minted.release hLt done) List.nodup_nil
    fun _ hm => nomatch hm

-- ---------------------------------------------------------------------------
-- Releasing an object
-- ---------------------------------------------------------------------------

section Release

variable {E : OraError → World → Prop} {n : Nat}

/-- **`ReleaseObj`** of an object that owns nothing twice, and handles that are
accounted for. -/
theorem Fit.releaseObj (hw : Fit conn w) (depth : Nat) (hKind : x.kind = .statement ∨
      x.kind = .resultSet ∨ x.kind = .parameter) (hCursors : w.CursorsBelow n)
    (hNodup : (w.owned x).Nodup) (hLt : ∀ y ∈ w.owned x, y.id < w.fresh)
    (hNet : ∀ h, ⟨.stmt, h⟩ ∈ w.owned x → 0 < net w.trace ⟨.stmt, h⟩) :
    wp (releaseObj (depth + 5) x) (fun _ w' => Fit conn w') E w := by
  refine wp_mono (wp_deletes depth hKind hCursors hNodup)
    (fun _ w' ⟨hF, hs, hD, hNodup', hOwned⟩ => ?_) (fun _ _ h => h)
  refine hw.delete hD ?_ (hF.minted hLt hw.minted) hNodup' fun h hh => hNet h ((hOwned h).mp hh)
  rw [hF.same]

/-- The handles of an object that was made are accounted for. -/
theorem Gains.stmt_pos (hG : Gains w w₁ x) (hw : Fit conn w) {h : Nat}
    (hh : ⟨.stmt, h⟩ ∈ w₁.owned x) : 0 < net w₁.trace ⟨.stmt, h⟩ := by
  rw [hG.conserves.net]
  have hOld := hw.counted h
  have hNew := List.count_pos_iff.mpr hh
  omega

/-- What a call made can be released again. -/
theorem Gains.fit_release (hG : Gains w w₁ x) (hw : Fit conn w) (hw₁ : Fit conn w₁) (depth : Nat)
    (hKind : x.kind = .statement ∨ x.kind = .resultSet ∨ x.kind = .parameter)
    (hCursors : w.CursorsBelow w.fresh) :
    wp (releaseObj (depth + 5) x) (fun _ w' => Fit conn w') E w₁ := by
  exact hw₁.releaseObj depth hKind (hG.conserves.cursors _ (Nat.le_refl _) hCursors) hG.nodup
    (fun y hy => (hG.new y hy).2) fun h hh => hG.stmt_pos hw hh

end Release

end Epol
