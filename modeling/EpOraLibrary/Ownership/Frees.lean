import EpOraLibrary.Model.Frames

/-!
# EpOraLibrary — what `ReleaseObj` releases

Every object of the library owns what its destructor releases: a `ResultSet`
its columns and the statement attached to it, a `Statement` its handle and its
parameters, a `Parameter` its result set and that one's statement handle.

* `Frees` — a call that asks for the release of a list of resources, once
  each, and touches no object outside another list.
* `wp_releaseRs`, `wp_releaseStmt`, `wp_releaseParam` — `ReleaseObj` releases
  exactly what the object owns, where nothing is owned twice.
-/

namespace Epol

open Ledger Prog

variable {w w₁ w₂ : World} {xs ys ts us : List Res}

/-- The record of an object is the same in both worlds. -/
def SameAt (w w' : World) (y : Res) : Prop :=
  match y.kind with
  | .resultSet => w'.rsets y.id = w.rsets y.id
  | .statement => w'.stmts y.id = w.stmts y.id
  | .parameter => w'.params y.id = w.params y.id
  | .column => w'.cols y.id = w.cols y.id
  | _ => True

theorem SameAt.refl (w : World) (y : Res) : SameAt w w y := by
  unfold SameAt
  split <;> trivial

theorem SameAt.trans {y : Res} (h : SameAt w w₁ y) (h' : SameAt w₁ w₂ y) : SameAt w w₂ y := by
  obtain ⟨kind, id⟩ := y
  cases kind <;> first | exact Eq.trans h' h | trivial

/-- The object owns the same in both worlds. -/
def Linked (w w' : World) (y : Res) : Prop :=
  match y.kind with
  | .resultSet => (w'.rsets y.id).m_columns = (w.rsets y.id).m_columns ∧
      (w'.rsets y.id).m_stmt = (w.rsets y.id).m_stmt
  | .statement => (w'.stmts y.id).m_stmtHandle = (w.stmts y.id).m_stmtHandle ∧
      (w'.stmts y.id).m_parameters = (w.stmts y.id).m_parameters
  | .parameter => (w'.params y.id).m_resultSet = (w.params y.id).m_resultSet ∧
      (w'.params y.id).m_rsHandle = (w.params y.id).m_rsHandle
  | _ => True

theorem Linked.refl (w : World) (y : Res) : Linked w w y := by
  unfold Linked
  split <;> first | exact ⟨rfl, rfl⟩ | trivial

theorem Linked.trans {y : Res} (h : Linked w w₁ y) (h' : Linked w₁ w₂ y) : Linked w w₂ y := by
  obtain ⟨kind, id⟩ := y
  cases kind <;> first | exact ⟨h'.1.trans h.1, h'.2.trans h.2⟩ | trivial

theorem SameAt.linked {y : Res} (h : SameAt w w₁ y) : Linked w w₁ y := by
  obtain ⟨kind, id⟩ := y
  cases kind with
  | resultSet => exact ⟨congrArg ResultSet.m_columns h, congrArg ResultSet.m_stmt h⟩
  | statement => exact ⟨congrArg Statement.m_stmtHandle h, congrArg Statement.m_parameters h⟩
  | parameter => exact ⟨congrArg Parameter.m_resultSet h, congrArg Parameter.m_rsHandle h⟩
  | _ => trivial

/-- The result sets of cursor parameters have numbers below `n`, and no
statement of their own. -/
def World.CursorsBelow (w : World) (n : Nat) : Prop :=
  ∀ p r, (w.params p).m_resultSet = some r → r < n ∧ (w.rsets r).m_stmt = none

theorem World.CursorsBelow.mono {n m : Nat} (h : w.CursorsBelow n) (hm : n ≤ m) :
    w.CursorsBelow m :=
  fun p r hr => ⟨Nat.lt_of_lt_of_le (h p r hr).1 hm, (h p r hr).2⟩

theorem World.CursorsBelow.of_eq {n : Nat} (h : w.CursorsBelow n)
    (hParams : ∀ p, (w₁.params p).m_resultSet = (w.params p).m_resultSet)
    (hStmt : ∀ r < n, (w₁.rsets r).m_stmt = (w.rsets r).m_stmt) : w₁.CursorsBelow n := by
  intro p r hr
  rw [hParams] at hr
  obtain ⟨hLt, hNone⟩ := h p r hr
  exact ⟨hLt, (hStmt r hLt).trans hNone⟩

theorem cursorsBelow_of_none (h : ∀ p, (w.params p).m_resultSet = none) (n : Nat) :
    w.CursorsBelow n := by
  intro p r hr
  rw [h] at hr
  cases hr

/-- The call from `w` to `w'` releases the resources `xs`, once each, and
touches at most the objects `ts`. -/
structure Frees (w w' : World) (xs ts : List Res) : Prop where
  same      : w' = { w with
    stmts := w'.stmts
    params := w'.params
    rsets := w'.rsets
    cols := w'.cols
    trace := w'.trace }
  net       : ∀ x, net w'.trace x = net w.trace x - (xs.count x : Nat)
  minted    : (∀ x ∈ xs, x.id < w.fresh) → Minted w.fresh w.trace → Minted w'.fresh w'.trace
  released  : ∀ x, x ∉ xs → (Released w'.trace x ↔ Released w.trace x)
  untouched : ∀ y, y ∉ ts → SameAt w w' y
  cursors   : ∀ n, w.CursorsBelow n → w'.CursorsBelow n
  owners    : ∀ c, (w'.cols c).m_resultSet = (w.cols c).m_resultSet

theorem Frees.refl (w : World) : Frees w w [] [] :=
  ⟨rfl, fun _ => by simp, fun _ h => h, fun _ _ => Iff.rfl, fun y _ => .refl w y, fun _ h => h,
    fun _ => rfl⟩

theorem Frees.trans (h : Frees w w₁ xs ts) (h' : Frees w₁ w₂ ys us) :
    Frees w w₂ (xs ++ ys) (ts ++ us) where
  same := by rw [h'.same, h.same]
  net x := by
    rw [h'.net, h.net, List.count_append]
    push_cast
    omega
  minted hxs hw := by
    have hFresh : w₁.fresh = w.fresh := by rw [h.same]
    have hys : ∀ x ∈ ys, x.id < w₁.fresh := fun x hx =>
      hFresh ▸ hxs x (List.mem_append_right _ hx)
    exact h'.minted hys (h.minted (fun x hx => hxs x (List.mem_append_left _ hx)) hw)
  released x hx := by
    rw [List.mem_append, not_or] at hx
    exact (h'.released x hx.2).trans (h.released x hx.1)
  untouched y hy := by
    rw [List.mem_append, not_or] at hy
    exact (h.untouched y hy.1).trans (h'.untouched y hy.2)
  cursors n hn := h'.cursors n (h.cursors n hn)
  owners c := (h'.owners c).trans (h.owners c)

/-- More objects may have been touched. -/
theorem Frees.widen (h : Frees w w₁ xs ts) (hts : ts ⊆ us) : Frees w w₁ xs us :=
  { h with untouched := fun y hy => h.untouched y fun hm => hy (hts hm) }

-- ---------------------------------------------------------------------------
-- Single steps
-- ---------------------------------------------------------------------------

theorem update_of_not_mem {α : Type} {f : Nat → α} {a : α} {kind : Kind} {k id : Nat}
    (h : (⟨kind, id⟩ : Res) ∉ [(⟨kind, k⟩ : Res)]) : Function.update f k a id = f id := by
  refine Function.update_of_ne (fun heq => h ?_) ..
  rw [heq]
  exact List.mem_singleton_self _

theorem frees_modifyRs (w : World) (r : Nat) (rs : ResultSet)
    (hStmt : (w.rsets r).m_stmt = none → rs.m_stmt = none) :
    Frees w { w with rsets := Function.update w.rsets r rs } [] [⟨.resultSet, r⟩] := by
  refine ⟨rfl, fun _ => by simp, fun _ h => h, fun _ _ => Iff.rfl, fun ⟨kind, id⟩ hy => ?_,
    fun n hn p r' hr' => ⟨(hn p r' hr').1, ?_⟩, fun _ => rfl⟩
  · cases kind <;> first | exact update_of_not_mem hy | exact rfl | trivial
  · have hNone := (hn p r' hr').2
    by_cases hr : r' = r
    · subst hr
      simpa using hStmt hNone
    · simpa [hr] using hNone

theorem frees_modifyStmt (w : World) (s : Nat) (st : Statement) :
    Frees w { w with stmts := Function.update w.stmts s st } [] [⟨.statement, s⟩] := by
  refine ⟨rfl, fun _ => by simp, fun _ h => h, fun _ _ => Iff.rfl, fun ⟨kind, id⟩ hy => ?_,
    fun _ h => h, fun _ => rfl⟩
  cases kind <;> first | exact update_of_not_mem hy | exact rfl | trivial

theorem frees_modifyParam (w : World) (p : Nat) (param : Parameter)
    (hParam : ∀ r, param.m_resultSet = some r → (w.params p).m_resultSet = some r) :
    Frees w { w with params := Function.update w.params p param } [] [⟨.parameter, p⟩] := by
  refine ⟨rfl, fun _ => by simp, fun _ h => h, fun _ _ => Iff.rfl, fun ⟨kind, id⟩ hy => ?_,
    fun n hn p' r hr => hn p' r ?_, fun _ => rfl⟩
  · cases kind <;> first | exact update_of_not_mem hy | exact rfl | trivial
  · by_cases hp : p' = p
    · subst hp
      exact hParam r (by simpa using hr)
    · simpa [hp] using hr

theorem frees_modifyCol (w : World) (c : Nat) {col : Column}
    (hOwner : col.m_resultSet = (w.cols c).m_resultSet) :
    Frees w { w with cols := Function.update w.cols c col } [] [⟨.column, c⟩] := by
  refine ⟨rfl, fun _ => by simp, fun _ h => h, fun _ _ => Iff.rfl, fun ⟨kind, id⟩ hy => ?_,
    fun _ h => h, fun c' => ?_⟩
  · cases kind <;> first | exact update_of_not_mem hy | exact rfl | trivial
  · by_cases hc : c' = c
    · subst hc
      simpa using hOwner
    · simp [hc]

/-- The release of one resource, which may be passed to the call. -/
theorem frees_release (w : World) (rs : List Res) (x : Res) (done : Bool) :
    Frees w { w with trace := .release x done :: (rs.map .use ++ w.trace) } [x] [] where
  same := rfl
  net y := by
    rw [net_release, net_uses, List.count_singleton]
    by_cases hxy : x = y
    · simp [hxy]
    · simp [hxy]
  minted hxs hw := (hw.uses rs).release (hxs x (List.mem_singleton_self x)) done
  released y hy := by
    rw [released_release, released_uses]
    exact or_iff_right fun heq => hy (by rw [heq.1]; exact List.mem_singleton_self x)
  untouched y _ := .refl w y
  cursors _ h := h
  owners _ := rfl

section Steps

variable {E : OraError → World → Prop}

theorem wp_freeStmtHandle (handle : Option Nat) :
    wp (freeStmtHandle handle) (fun _ w' => Frees w w' (ptr .stmt handle) []) E w := by
  cases handle with
  | none => exact Frees.refl w
  | some h =>
    simp only [freeStmtHandle, ociHandleFree, wp_bind, wp_pass, wp_answer, wp_release, wp_pure]
    exact frees_release w [⟨.stmt, h⟩] ⟨.stmt, h⟩ _

/-- A list of objects is released one by one, where none of them owns what an
earlier one of the list does. -/
theorem wp_forM_frees {body : Nat → M Unit} (own : Nat → List Res) (objects : List Nat)
    (hNodup : (objects.flatMap own).Nodup)
    (hBody : ∀ o ∈ objects, ∀ w₁, (∀ y ∈ own o, SameAt w w₁ y) →
      wp (body o) (fun _ w₂ => Frees w₁ w₂ (own o) (own o)) E w₁) :
    wp (objects.forM body)
      (fun _ w' => Frees w w' (objects.flatMap own) (objects.flatMap own)) E w := by
  refine wp_forM (fun done w₁ => Frees w w₁ (done.flatMap own) (done.flatMap own)) objects
    (fun done o rest w₁ hSplit hDone => ?_) (Frees.refl w)
  have hDisjoint : ∀ y ∈ own o, y ∉ done.flatMap own := by
    rw [hSplit, List.flatMap_append, List.flatMap_cons, List.nodup_append] at hNodup
    intro y hy hm
    exact hNodup.2.2 y hm y (List.mem_append_left _ hy) rfl
  have ho : o ∈ objects := by
    rw [hSplit]
    exact List.mem_append_right _ (List.mem_cons_self ..)
  refine wp_mono (hBody o ho w₁ fun y hy => hDone.untouched y (hDisjoint y hy))
    (fun _ w₂ hFrees => ?_) (fun _ _ h => h)
  rw [List.flatMap_append, List.flatMap_cons, List.flatMap_nil, List.append_nil]
  exact hDone.trans hFrees

-- ---------------------------------------------------------------------------
-- Objects
-- ---------------------------------------------------------------------------

/-- A column owns nothing but itself. -/
theorem wp_releaseColumn (depth c : Nat) :
    wp (releaseObj (depth + 1) ⟨.column, c⟩)
      (fun _ w' => Frees w w' [⟨.column, c⟩] [⟨.column, c⟩]) E w := by
  simp only [releaseObj, Column.cleanUp, wp_bind, wp_modifyCol, wp_release]
  exact (frees_modifyCol w c (by rfl)).trans (frees_release _ [] ⟨.column, c⟩ true)

/-- The columns of a result set. -/
def World.columnsOwned (w : World) (r : Nat) : List Res :=
  (w.rsets r).m_columns.map (Res.mk .column)

theorem wp_releaseColumns (depth : Nat) (cols : List Nat)
    (hNodup : (cols.map (Res.mk .column)).Nodup) :
    wp (cols.forM fun c => releaseObj (depth + 1) ⟨.column, c⟩)
      (fun _ w' => Frees w w' (cols.map (Res.mk .column)) (cols.map (Res.mk .column))) E w := by
  have hFlat : cols.flatMap (fun c => [(⟨.column, c⟩ : Res)]) = cols.map (Res.mk .column) := by
    induction cols with
    | nil => rfl
    | cons c cols ih => rw [List.flatMap_cons, ih (List.nodup_cons.mp hNodup).2]; rfl
  rw [← hFlat]
  exact wp_forM_frees (fun c => [⟨.column, c⟩]) cols (hFlat ▸ hNodup) fun c _ w₁ _ =>
    wp_releaseColumn depth c

/-- An object behind a pointer that may be `NULL`. -/
theorem wp_releaseIf {release : Res → M Unit} {kind : Kind} (own : Nat → List Res)
    (object : Option Nat) (hObject : ∀ o, object = some o →
      wp (release ⟨kind, o⟩) (fun _ w' => Frees w w' (own o) (own o)) E w) :
    wp (releaseIf release kind object)
      (fun _ w' => Frees w w' (object.toList.flatMap own) (object.toList.flatMap own)) E w := by
  cases object with
  | none => exact Frees.refl w
  | some o =>
    rw [Option.toList_some, List.flatMap_cons, List.flatMap_nil, List.append_nil]
    exact hObject o rfl

/-- `cleanUp` of a result set whose statement owns `own`. -/
theorem wp_cleanUpRs (depth r : Nat) (own : Nat → List Res) (hNodup : (w.columnsOwned r ++
      (w.rsets r).m_stmt.toList.flatMap own ++ [(⟨.resultSet, r⟩ : Res)]).Nodup)
    (hStmt : ∀ s, (w.rsets r).m_stmt = some s → ∀ w₁, (∀ y ∈ own s, SameAt w w₁ y) →
      wp (releaseObj (depth + 1) ⟨.statement, s⟩)
        (fun _ w₂ => Frees w₁ w₂ (own s) (own s)) E w₁) :
    wp (ResultSet.cleanUpWith (releaseObj (depth + 1)) r)
      (fun _ w' => Frees w w' (w.columnsOwned r ++ (w.rsets r).m_stmt.toList.flatMap own)
        (w.columnsOwned r ++ (w.rsets r).m_stmt.toList.flatMap own ++ [⟨.resultSet, r⟩])) E w := by
  rw [List.append_assoc, List.nodup_append] at hNodup
  obtain ⟨hCols, hRest, hApart⟩ := hNodup
  rw [ResultSet.cleanUpWith, wp_bind, wp_get, wp_bind]
  refine wp_mono (wp_releaseColumns depth _ hCols) (fun _ w₁ h₁ => ?_) (fun _ _ h => h)
  rw [wp_bind, wp_modifyRs, wp_bind]
  have h₂ := h₁.trans
    (frees_modifyRs w₁ r { w₁.rsets r with m_columns := [], m_rsHandle := none } id)
  refine wp_mono (wp_releaseIf own _ fun s hs => hStmt s hs _ fun y hy => ?_)
    (fun _ w₃ h₃ => ?_) (fun _ _ h => h)
  · have hy' : y ∈ (w.rsets r).m_stmt.toList.flatMap own :=
      List.mem_flatMap.mpr ⟨s, Option.mem_toList.mpr hs, hy⟩
    refine h₂.untouched y fun hm => ?_
    rcases List.mem_append.mp hm with hm | hm
    · exact hApart y hm y (List.mem_append_left _ hy') rfl
    · exact (List.nodup_append.mp hRest).2.2 y hy' y hm rfl
  · rw [wp_modifyRs]
    have h₄ := (h₂.trans h₃).trans
      (frees_modifyRs w₃ r { w₃.rsets r with m_stmt := none } fun _ => rfl)
    rw [List.append_nil, List.append_nil] at h₄
    refine h₄.widen fun y hy => ?_
    simp only [List.mem_append] at hy ⊢
    rcases hy with ((hy | hy) | hy) | hy
    · exact .inl (.inl hy)
    · exact .inr hy
    · exact .inl (.inr hy)
    · exact .inr hy

/-- What the result set of a cursor parameter owns. -/
def World.cursorOwned (w : World) (r : Nat) : List Res :=
  w.columnsOwned r ++ [⟨.resultSet, r⟩]

theorem wp_releaseCursor (depth r : Nat) (hPlain : (w.rsets r).m_stmt = none)
    (hNodup : (w.cursorOwned r).Nodup) :
    wp (releaseObj (depth + 2) ⟨.resultSet, r⟩)
      (fun _ w' => Frees w w' (w.cursorOwned r) (w.cursorOwned r)) E w := by
  have hClean := wp_cleanUpRs (w := w) (E := E) depth r (fun _ => [])
    (by simpa [hPlain, World.cursorOwned] using hNodup) (fun s hs => by rw [hPlain] at hs; cases hs)
  rw [releaseObj, wp_bind]
  refine wp_mono hClean (fun _ w₁ h₁ => ?_) (fun _ _ h => h)
  rw [wp_release]
  have h₂ := h₁.trans (frees_release w₁ [] ⟨.resultSet, r⟩ true)
  simpa [hPlain, World.cursorOwned] using h₂

-- ---------------------------------------------------------------------------
-- Parameters, statements and result sets
-- ---------------------------------------------------------------------------

/-- What a parameter owns. -/
def World.paramOwned (w : World) (p : Nat) : List Res :=
  (w.params p).m_resultSet.toList.flatMap w.cursorOwned ++ ptr .stmt (w.params p).m_rsHandle ++
    [⟨.parameter, p⟩]

/-- What a statement owns. -/
def World.stmtOwned (w : World) (s : Nat) : List Res :=
  ptr .stmt (w.stmts s).m_stmtHandle ++ (w.stmts s).m_parameters.flatMap w.paramOwned ++
    [⟨.statement, s⟩]

/-- What a result set owns. -/
def World.rsOwned (w : World) (r : Nat) : List Res :=
  w.columnsOwned r ++ (w.rsets r).m_stmt.toList.flatMap w.stmtOwned ++ [⟨.resultSet, r⟩]

/-- The result set of a cursor parameter has no statement of its own. -/
def World.PlainCursor (w : World) (p : Nat) : Prop :=
  ∀ r, (w.params p).m_resultSet = some r → (w.rsets r).m_stmt = none

theorem World.CursorsBelow.plain {n : Nat} (h : w.CursorsBelow n) (p : Nat) : w.PlainCursor p :=
  fun r hr => (h p r hr).2

/-- What an object owns is read off the objects it owns. -/
theorem paramOwned_congr {p : Nat} (hSame : ∀ y ∈ w.paramOwned p, Linked w w₁ y) :
    w₁.paramOwned p = w.paramOwned p ∧ (w.PlainCursor p → w₁.PlainCursor p) := by
  have hParam : Linked w w₁ ⟨.parameter, p⟩ := hSame _ (by simp [World.paramOwned])
  have hRs : ∀ r, (w.params p).m_resultSet = some r → Linked w w₁ ⟨.resultSet, r⟩ := fun r hr =>
    hSame _ (by simp [World.paramOwned, World.cursorOwned, hr])
  constructor
  · rw [World.paramOwned, World.paramOwned, hParam.1, hParam.2]
    congr 2
    refine List.flatMap_congr fun r hr => ?_
    rw [World.cursorOwned, World.cursorOwned, World.columnsOwned, World.columnsOwned,
      (hRs r (Option.mem_toList.mp hr)).1]
  · intro hPlain r hr
    rw [hParam.1] at hr
    rw [(hRs r hr).2]
    exact hPlain r hr

theorem mem_stmtOwned {s p : Nat} {y : Res} (hp : p ∈ (w.stmts s).m_parameters)
    (hy : y ∈ w.paramOwned p) : y ∈ w.stmtOwned s := by
  rw [World.stmtOwned, List.append_assoc]
  exact List.mem_append_right _ (List.mem_append_left _ (List.mem_flatMap.mpr ⟨p, hp, hy⟩))

theorem stmtOwned_congr {s : Nat} (hSame : ∀ y ∈ w.stmtOwned s, Linked w w₁ y) :
    (w₁.stmts s).m_parameters = (w.stmts s).m_parameters ∧ w₁.stmtOwned s = w.stmtOwned s ∧
      ∀ p ∈ (w.stmts s).m_parameters, w.PlainCursor p → w₁.PlainCursor p := by
  have hStmt : Linked w w₁ ⟨.statement, s⟩ := hSame _ (by simp [World.stmtOwned])
  have hParams : ∀ p ∈ (w.stmts s).m_parameters, ∀ y ∈ w.paramOwned p, Linked w w₁ y :=
    fun p hp y hy => hSame y (mem_stmtOwned hp hy)
  refine ⟨hStmt.2, ?_, fun p hp => (paramOwned_congr (hParams p hp)).2⟩
  rw [World.stmtOwned, World.stmtOwned, hStmt.1, hStmt.2]
  congr 2
  exact List.flatMap_congr fun p hp => (paramOwned_congr (hParams p hp)).1

theorem rsOwned_congr {r : Nat} (hSame : ∀ y ∈ w.rsOwned r, Linked w w₁ y) :
    w₁.rsOwned r = w.rsOwned r := by
  have hRs : Linked w w₁ ⟨.resultSet, r⟩ := hSame _ (by simp [World.rsOwned])
  rw [World.rsOwned, World.rsOwned, World.columnsOwned, World.columnsOwned, hRs.1, hRs.2]
  congr 2
  refine List.flatMap_congr fun s hs => (stmtOwned_congr fun y hy => hSame y ?_).2.1
  rw [World.rsOwned, List.append_assoc]
  exact List.mem_append_right _ (List.mem_append_left _ (List.mem_flatMap.mpr ⟨s, hs, hy⟩))

theorem wp_releaseParam (depth p : Nat) (hPlain : w.PlainCursor p)
    (hNodup : (w.paramOwned p).Nodup) :
    wp (releaseObj (depth + 3) ⟨.parameter, p⟩)
      (fun _ w' => Frees w w' (w.paramOwned p) (w.paramOwned p)) E w := by
  rw [World.paramOwned, List.append_assoc, List.nodup_append] at hNodup
  rw [releaseObj, wp_bind, Parameter.cleanUpWith, wp_bind, wp_get, wp_bind]
  refine wp_mono (wp_releaseIf w.cursorOwned _ fun r hr =>
      wp_releaseCursor depth r (hPlain r hr) ?_) (fun _ w₁ h₁ => ?_) (fun _ _ h => h)
  · simpa [hr] using hNodup.1
  · rw [wp_bind, wp_modifyParam, wp_bind]
    have h₂ := h₁.trans (frees_modifyParam w₁ p
      { w₁.params p with m_resultSet := none } fun _ hr => nomatch hr)
    refine wp_mono (wp_freeStmtHandle _) (fun _ w₃ h₃ => ?_) (fun _ _ h => h)
    rw [wp_modifyParam, wp_release]
    have h₄ := (h₂.trans h₃).trans (frees_modifyParam w₃ p
      { w₃.params p with m_rsHandle := none, m_fetchBuffer := none } fun _ hr => hr)
    have h₅ := h₄.trans (frees_release _ [] ⟨.parameter, p⟩ true)
    simp only [List.append_nil] at h₅
    refine h₅.widen fun y hy => ?_
    simp only [List.mem_append] at hy
    rcases hy with (hy | hy) | hy
    · exact List.mem_append_left _ (List.mem_append_left _ hy)
    · exact List.mem_append_right _ hy
    · exact List.mem_append_right _ hy

theorem wp_releaseStmt (depth s : Nat) (hPlain : ∀ p ∈ (w.stmts s).m_parameters, w.PlainCursor p)
    (hNodup : (w.stmtOwned s).Nodup) :
    wp (releaseObj (depth + 4) ⟨.statement, s⟩)
      (fun _ w' => Frees w w' (w.stmtOwned s) (w.stmtOwned s)) E w := by
  rw [World.stmtOwned, List.append_assoc, List.nodup_append, List.nodup_append] at hNodup
  obtain ⟨-, ⟨hParams, -, hApart⟩, -⟩ := hNodup
  rw [releaseObj, wp_bind, Statement.cleanUpWith, wp_bind, wp_get, wp_bind]
  refine wp_mono (wp_freeStmtHandle _) (fun _ w₁ h₁ => ?_) (fun _ _ h => h)
  rw [wp_bind, wp_modifyStmt, wp_bind]
  have h₂ := h₁.trans (frees_modifyStmt w₁ s { w₁.stmts s with m_stmtHandle := none })
  refine wp_mono (wp_forM_frees w.paramOwned _ hParams fun p hp w₃ hSame => ?_)
    (fun _ w₃ h₃ => ?_) (fun _ _ h => h)
  · -- the parameter is still as it was when the release of the statement began
    have hSame' : ∀ y ∈ w.paramOwned p, Linked w w₃ y := fun y hy =>
      ((h₂.untouched y fun hm => hApart y (List.mem_flatMap.mpr ⟨p, hp, hy⟩) y hm rfl).trans
        (hSame y hy)).linked
    obtain ⟨hOwned, hPlain'⟩ := paramOwned_congr hSame'
    rw [← hOwned]
    refine wp_releaseParam depth p (hPlain' (hPlain p hp)) ?_
    rw [hOwned]
    exact (List.nodup_flatMap.mp hParams).1 p hp
  · rw [wp_modifyStmt, wp_release]
    have h₄ := (h₂.trans h₃).trans (frees_modifyStmt w₃ s
      { w₃.stmts s with m_parameters := [], m_parametersMap := [] })
    have h₅ := h₄.trans (frees_release _ [] ⟨.statement, s⟩ true)
    simp only [List.append_nil] at h₅
    refine h₅.widen fun y hy => ?_
    simp only [List.nil_append, List.mem_append] at hy
    rw [World.stmtOwned, List.append_assoc]
    rcases hy with (hy | hy) | hy
    · exact List.mem_append_right _ (List.mem_append_right _ hy)
    · exact List.mem_append_right _ (List.mem_append_left _ hy)
    · exact List.mem_append_right _ (List.mem_append_right _ hy)

theorem wp_releaseRs (depth r : Nat) (hPlain : ∀ s, (w.rsets r).m_stmt = some s →
      ∀ p ∈ (w.stmts s).m_parameters, w.PlainCursor p)
    (hNodup : (w.rsOwned r).Nodup) :
    wp (releaseObj (depth + 5) ⟨.resultSet, r⟩)
      (fun _ w' => Frees w w' (w.rsOwned r) (w.rsOwned r)) E w := by
  rw [releaseObj, wp_bind]
  refine wp_mono (wp_cleanUpRs (depth + 3) r w.stmtOwned hNodup
    fun s hs w₁ hSame => ?_) (fun _ w₁ h₁ => ?_) (fun _ _ h => h)
  · obtain ⟨hStmt, hOwned, hPlain'⟩ := stmtOwned_congr fun y hy => (hSame y hy).linked
    rw [← hOwned]
    refine wp_releaseStmt depth s (fun p hp => ?_) ?_
    · rw [hStmt] at hp
      exact hPlain' p hp (hPlain s hs p hp)
    · rw [hOwned]
      rw [World.rsOwned, List.nodup_append, List.nodup_append] at hNodup
      simpa [hs] using hNodup.1.2.1
  · rw [wp_release]
    have h₂ := h₁.trans (frees_release w₁ [] ⟨.resultSet, r⟩ true)
    rw [List.append_nil] at h₂
    exact h₂

end Steps

end Epol
