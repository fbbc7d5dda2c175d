import EpOraLibrary.Model.Statement

/-!
# EpOraLibrary — what calls leave alone

* `Minted` — no number is handed out twice, and none is in use before.
* `Quiet` — a call that only talks to OCI: nothing changes but the trace and
  the supply of numbers, and what it acquires it gives back.
* `Passed` — a call that only passes handles.
-/

namespace Epol

open Ledger Prog

variable {w w' : World} {α : Type}

/-- What a resource is acquired from, if from anything: a descriptor from a
statement handle, any other handle from the environment. -/
def Kind.parent : Kind → Kind
  | .descriptor => .stmt
  | _ => .env

/-- The supply of numbers is ahead of all that is on record, and every number
was handed out once. -/
structure Minted (fresh : Nat) (t : Trace Res) : Prop where
  once     : ∀ x, acquired t x ≤ 1
  acquired : ∀ {x q}, .acquire x q ∈ t → x.id < fresh
  parent   : ∀ {x p}, .acquire x (some p) ∈ t → p.kind = x.kind.parent
  released : ∀ {x}, Released t x → x.id < fresh

/-- A call that only talks to OCI. -/
structure Quiet (w w' : World) : Prop where
  same     : w' = { w with fresh := w'.fresh, trace := w'.trace }
  fresh    : w.fresh ≤ w'.fresh
  net      : ∀ x, net w'.trace x = net w.trace x
  minted   : Minted w.fresh w.trace → Minted w'.fresh w'.trace
  released : ∀ x, x.id < w.fresh → (Released w'.trace x ↔ Released w.trace x)

theorem frame_quiet : Frame Quiet where
  refl w := ⟨rfl, Nat.le_refl _, fun _ => rfl, id, fun _ _ => Iff.rfl⟩
  trans {s t u} hst htu := by
    refine ⟨?_, Nat.le_trans hst.fresh htu.fresh, fun x => (htu.net x).trans (hst.net x),
      fun h => htu.minted (hst.minted h), fun x hx =>
        (htu.released x (Nat.lt_of_lt_of_le hx hst.fresh)).trans (hst.released x hx)⟩
    rw [htu.same, hst.same]

section Minted

variable {fresh : Nat} {t : Trace Res}

theorem Minted.uses (h : Minted fresh t) (rs : List Res) : Minted fresh (rs.map .use ++ t) where
  once x := by rw [acquired_uses]; exact h.once x
  acquired hm := h.acquired (by simpa using hm)
  parent hm := h.parent (by simpa using hm)
  released hr := h.released ((released_uses rs).mp hr)

/-- What is acquired is new. -/
theorem Minted.acquire (h : Minted fresh t) (kind : Kind) {parent : Option Res}
    (hParent : ∀ p, parent = some p → p.kind = kind.parent) :
    Minted (fresh + 1) (.acquire ⟨kind, fresh⟩ parent :: t) where
  once x := by
    have hOnce := h.once x
    rw [Ledger.acquired]
    split
    · rename_i hx
      have hNone : Ledger.acquired t x = 0 := by
        rw [acquired_eq_zero_iff]
        intro q hq
        have := h.acquired hq
        rw [← hx] at this
        exact Nat.lt_irrefl _ this
      omega
    · omega
  acquired hm := by
    rcases List.mem_cons.mp hm with heq | hm
    · injection heq with hx _
      rw [hx]
      exact Nat.lt_succ_self _
    · exact Nat.lt_succ_of_lt (h.acquired hm)
  parent hm := by
    rcases List.mem_cons.mp hm with heq | hm
    · injection heq with hx hp
      rw [hx]
      exact hParent _ hp.symm
    · exact h.parent hm
  released hr := Nat.lt_succ_of_lt (h.released (released_acquire.mp hr))

/-- What is released was there. -/
theorem Minted.release (h : Minted fresh t) {x : Res} (hx : x.id < fresh) (done : Bool) :
    Minted fresh (.release x done :: t) where
  once := h.once
  acquired hm := h.acquired (by simpa using hm)
  parent hm := h.parent (by simpa using hm)
  released hr := by
    rw [released_release] at hr
    rcases hr with ⟨rfl, -⟩ | hr
    · exact hx
    · exact h.released hr

end Minted

-- ---------------------------------------------------------------------------
-- Quiet calls
-- ---------------------------------------------------------------------------

theorem quiet_uses (w : World) (rs : List Res) :
    Quiet w { w with trace := rs.map .use ++ w.trace } :=
  ⟨rfl, Nat.le_refl _, fun _ => net_uses rs, fun h => h.uses rs,
    fun _ _ => released_uses rs⟩

theorem quiet_pass (rs : List Res) : Respects Quiet (pass rs) :=
  fun w => quiet_uses w rs

theorem quiet_answer (call : OciCall) : Respects Quiet (answer call) :=
  fun w => frame_quiet.refl w

theorem quiet_passAnswer (rs : List Res) (call : OciCall) :
    Respects Quiet (do pass rs; answer call) :=
  respects_bind frame_quiet (quiet_pass rs) fun _ => quiet_answer call

theorem respects_andThen {R : World → World → Prop} (hR : Frame R) (result : OciResult)
    {call : M OciResult} (hCall : Respects R call) : Respects R (result.andThen call) :=
  respects_ite hCall (respects_pure hR result)

theorem respects_orThrow {R : World → World → Prop} (result : OciResult)
    {call failure : M OciResult} (hCall : Respects R call) (hFailure : Respects R failure) :
    Respects R (result.orThrow call failure) :=
  respects_ite hCall hFailure

/-- A resource that is released by the call that acquired it. -/
theorem Quiet.round {kind : Kind} {parent : Option Res}
    (hParent : ∀ p, parent = some p → p.kind = kind.parent) (rs : List Res) (done : Bool)
    (h : Quiet { w with
      fresh := w.fresh + 1
      trace := .acquire ⟨kind, w.fresh⟩ parent :: w.trace } w') :
    Quiet w { w' with trace := .release ⟨kind, w.fresh⟩ done :: (rs.map .use ++ w'.trace) } where
  same := by rw [h.same]
  fresh := Nat.le_of_succ_le h.fresh
  net x := by
    rw [net_release, net_uses, h.net, net_acquire]
    omega
  minted hw := by
    refine ((h.minted (hw.acquire kind hParent)).uses rs).release ?_ done
    exact Nat.lt_of_lt_of_le (Nat.lt_succ_self _) h.fresh
  released x hx := by
    rw [released_release, released_uses, h.released x (Nat.lt_succ_of_lt hx), released_acquire]
    refine or_iff_right fun heq => ?_
    rw [heq.1] at hx
    exact Nat.lt_irrefl _ hx

theorem respects_readAttrs {R : World → World → Prop} (hR : Frame R) {param error : Option Nat}
    (hPass : Respects R (pass (ptr .descriptor param ++ ptr .error error))) (result : OciResult)
    (pos : Nat) : Respects R (ResultSet.readAttrs result param error pos) := by
  have hGet : ∀ attr, Respects R (ociParamAttrGet attr pos param error) := fun _ =>
    respects_bind hR hPass fun _ w => hR.refl w
  refine respects_bind hR (respects_andThen hR _ (hGet _)) fun _ => ?_
  exact respects_bind hR (respects_andThen hR _ (hGet _)) fun _ => respects_andThen hR _ (hGet _)

theorem quiet_readAttrs (result : OciResult) (param error : Option Nat) (pos : Nat) :
    Respects Quiet (ResultSet.readAttrs result param error pos) :=
  respects_readAttrs frame_quiet (quiet_pass _) result pos

theorem readAttrs_returns (result : OciResult) (param error : Option Nat) (pos : Nat) :
    wp (ResultSet.readAttrs result param error pos) (fun _ _ => True) (fun _ _ => False) w := by
  simp [ResultSet.readAttrs, ociParamAttrGet, wp_andThen]

/-- No attribute is asked for after a failure. -/
theorem readAttrs_failed {result : OciResult} {param error : Option Nat} {pos : Nat}
    (hFailed : result ≠ .success) :
    wp (ResultSet.readAttrs result param error pos) (fun result' _ => result' ≠ .success)
      (fun _ _ => True) w := by
  simp [ResultSet.readAttrs, wp_andThen, hFailed]

/-- A descriptor is freed in the turn it was acquired in; when all went well,
what OCI answered to that is what the turn goes on with. -/
theorem wp_readParam (handle error : Option Nat) (i : Nat) (w : World) :
    wp (ResultSet.readParam handle error i)
      (fun out w' => Quiet w w' ∧ (out.1 = .success →
        out.2 = w.outcome (.descriptorFree (i + 1))))
      (fun _ w' => Quiet w w') w := by
  have hUses := quiet_uses w (ptr .stmt handle ++ ptr .error error)
  rw [ResultSet.readParam, wp_bind]
  simp only [ociParamGet, wp_bind, wp_pass, wp_answer, wp_ite, wp_acquire, wp_pure]
  split
  · refine wp_mono (wp_and (quiet_readAttrs _ _ _ _ _) (readAttrs_returns _ _ _ _))
      (fun result w' hw' => ?_) (fun _ _ hFalse => hFalse.2.elim)
    simp only [ociDescriptorFree, wp_bind, wp_pass, wp_answer, wp_release, wp_pure]
    refine ⟨frame_quiet.trans hUses (hw'.1.round (fun p hp => ?_) [_] _), fun _ => ?_⟩
    · obtain ⟨h, -, rfl⟩ := Option.map_eq_some_iff.mp hp
      rfl
    · rw [hw'.1.same]
  · rename_i hFailed
    have hNot : w.outcome (.paramGet (i + 1)) ≠ .success := fun hSuccess => by
      rw [hSuccess] at hFailed
      exact hFailed rfl
    refine wp_mono (wp_and (quiet_readAttrs _ _ _ _ _) (readAttrs_failed hNot))
      (fun _ _ hw' => ⟨frame_quiet.trans hUses hw'.1, fun hSuccess => absurd hSuccess hw'.2⟩)
      (fun _ _ hw' => frame_quiet.trans hUses hw'.1)

-- ---------------------------------------------------------------------------
-- Calls that only pass handles
-- ---------------------------------------------------------------------------

/-- The trace grew by uses of the resources `allowed`. -/
def Passed (allowed : List Res) (t t' : Trace Res) : Prop :=
  ∃ us : List Res, t' = us.map .use ++ t ∧ us ⊆ allowed

section Passed

variable {allowed rs : List Res} {t t' t'' : Trace Res}

theorem passed_uses (t : Trace Res) (h : rs ⊆ allowed) : Passed allowed t (rs.map .use ++ t) :=
  ⟨rs, rfl, h⟩

theorem Passed.refl (allowed : List Res) (t : Trace Res) : Passed allowed t t :=
  passed_uses t (List.nil_subset _)

theorem Passed.trans (h : Passed allowed t t') (h' : Passed allowed t' t'') :
    Passed allowed t t'' := by
  obtain ⟨us, rfl, hus⟩ := h
  obtain ⟨vs, rfl, hvs⟩ := h'
  refine ⟨vs ++ us, ?_, List.append_subset.mpr ⟨hvs, hus⟩⟩
  rw [List.map_append, List.append_assoc]

theorem Passed.net (h : Passed allowed t t') (x : Res) : net t' x = net t x := by
  obtain ⟨us, rfl, -⟩ := h
  exact net_uses us

theorem Passed.minted {fresh : Nat} (h : Passed allowed t t') (hw : Minted fresh t) :
    Minted fresh t' := by
  obtain ⟨us, rfl, -⟩ := h
  exact hw.uses us

theorem Passed.released (h : Passed allowed t t') (x : Res) : Released t' x ↔ Released t x := by
  obtain ⟨us, rfl, -⟩ := h
  exact released_uses us

end Passed

end Epol
